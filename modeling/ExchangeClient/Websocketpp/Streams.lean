import ExchangeClient.Websocketpp.Receiver

/-!
# Streams of frames

The bytes that a processor reads without an error, up to the end of a frame, are the
bytes of frames that the receiver takes one by one, and every such stream is read. It
does not matter in how many reads the bytes arrive.
-/

namespace ExchangeClient.Websocketpp

open LittleEndian Keystream

/-! ### From bytes to headers -/

namespace Opcode

theorem value_ofByte : ∀ b : UInt8, (ofByte (b &&& 0x0F)).value &&& 0x0F = b &&& 0x0F :=
  forall_uint8 (by decide +kernel)

end Opcode

namespace BasicHeader

theorem b0_of_fields : ∀ b0 : UInt8, b0 &&& 0x40 ≠ 0x40 → b0 &&& 0x20 ≠ 0x20 →
    b0 &&& 0x10 ≠ 0x10 → (if b0 &&& 0x80 = 0x80 then 0x80 else 0x00) ||| 0x00 ||| 0x00 ||| 0x00 |||
      (b0 &&& 0x0F) = b0 :=
  forall_uint8 (by decide +kernel)

theorem b1_of_fields : ∀ b1 : UInt8,
    (if b1 &&& 0x80 = 0x80 then 0x80 else 0x00) ||| (b1 &&& 0x7F) = b1 :=
  forall_uint8 (by decide +kernel)

/-- A header without reserved bits is the header made from what it says. -/
theorem make_fields {h : BasicHeader} {size : UInt64} (hrsv1 : h.getRsv1 = false)
    (hrsv2 : h.getRsv2 = false) (hrsv3 : h.getRsv3 = false)
    (hsize : basicValue size = h.getBasicSize) :
    make h.getOpcode size h.getFin h.getMasked false false false = h := by
  obtain ⟨b0, b1⟩ := h
  simp only [getRsv1, getRsv2, getRsv3, decide_eq_false_iff_not] at hrsv1 hrsv2 hrsv3
  have hb0 := b0_of_fields b0 hrsv1 hrsv2 hrsv3
  have hb1 := b1_of_fields b1
  simp only [make, hsize, getOpcode, Opcode.value_ofByte, getFin, getMasked, getBasicSize,
    decide_eq_true_eq, Bool.false_eq_true, if_false, hb0, hb1]

theorem getBasicSize_le (h : BasicHeader) : h.getBasicSize ≤ 0x7F :=
  (forall_uint8 (by decide +kernel) : ∀ b : UInt8, b &&& 0x7F ≤ 0x7F) h.b1

end BasicHeader

section Reconstruction

variable {h : BasicHeader} {e : ExtendedHeader} {field more : Bytes}

/-- The code of a length is 126 or 127 or the length. -/
theorem basicSize_cases (h : BasicHeader) :
    h.getBasicSize.toNat ≤ 125 ∨ h.getBasicSize = payloadSizeCode16bit ∨
      h.getBasicSize = payloadSizeCode64bit := by
  have hle : h.getBasicSize.toNat ≤ 127 := UInt8.le_iff_toNat_le.mp h.getBasicSize_le
  rcases Nat.lt_or_ge 125 h.getBasicSize.toNat with hbig | hsmall
  · right
    rw [← UInt8.toNat_inj, ← UInt8.toNat_inj]
    change h.getBasicSize.toNat = 126 ∨ h.getBasicSize.toNat = 127
    omega
  · exact Or.inl hsmall

theorem getPayloadSize_small (hsmall : h.getBasicSize.toNat ≤ 125) :
    (getPayloadSize h e).toNat = h.getBasicSize.toNat := by
  have hle : h.getBasicSize.toUInt64 ≤ payloadSizeBasic := by
    rw [UInt64.le_iff_toNat_le, UInt8.toNat_toUInt64]
    exact hsmall
  rw [getPayloadSize, if_pos hle, UInt8.toNat_toUInt64]

theorem getPayloadSize_16bit (hcode : h.getBasicSize = payloadSizeCode16bit)
    (he : e.bytes = field ++ more) (hfield : field.length = 2) :
    (getPayloadSize h e).toNat = value field.reverse := by
  rw [getPayloadSize, hcode, if_neg (by decide), if_pos rfl, getExtendedSize, he,
    List.take_left' hfield, UInt16.toNat_toUInt64, toNat_ntohs_value hfield]

theorem getPayloadSize_64bit (hcode : h.getBasicSize = payloadSizeCode64bit)
    (he : e.bytes = field ++ more) (hfield : field.length = 8) :
    (getPayloadSize h e).toNat = value field.reverse := by
  rw [getPayloadSize, hcode, if_neg (by decide), if_neg (by decide), getJumboSize, he,
    List.take_left' hfield, toNat_htonll_value hfield]

/-- A number that needs all of the bytes of the field is written as the field. -/
theorem sizeField_value {size : UInt64} (hsize : size.toNat = value field.reverse)
    (hfield : 8 - ExtendedHeader.payloadOffset size = field.length) : sizeField size = field := by
  have hbytes := bytes_value field.reverse
  rw [List.length_reverse] at hbytes
  rw [sizeField, hfield, hsize, hbytes, List.reverse_reverse]

/-- A length that is not longer than needed is the length field made from the length. -/
theorem sizeField_of_valid (he : e.bytes = field ++ more)
    (hfield : field.length = h.getMaskingKeyOffset)
    (hvalid : Processor.validateIncomingExtendedHeader h e = .ok ()) :
    BasicHeader.basicValue (getPayloadSize h e) = h.getBasicSize ∧
      sizeField (getPayloadSize h e) = field := by
  rw [Processor.validateIncomingExtendedHeader] at hvalid
  rcases basicSize_cases h with hsmall | hcode | hcode
  · have hsize := getPayloadSize_small (e := e) hsmall
    have hle : getPayloadSize h e ≤ payloadSizeBasic := by
      rw [UInt64.le_iff_toNat_le, hsize]
      exact hsmall
    have hoffset : h.getMaskingKeyOffset = 0 := by
      rw [BasicHeader.getMaskingKeyOffset, if_neg, if_neg]
      · rintro hcode
        rw [hcode] at hsmall
        exact absurd hsmall (by decide)
      · rintro hcode
        rw [hcode] at hsmall
        exact absurd hsmall (by decide)
    obtain rfl : field = [] := List.eq_nil_of_length_eq_zero (hfield.trans hoffset)
    constructor
    · rw [BasicHeader.basicValue, if_pos hle, ← UInt8.toNat_inj, UInt64.toNat_toUInt8, hsize]
      exact Nat.mod_eq_of_lt (UInt8.toNat_lt _)
    · rw [sizeField, ExtendedHeader.payloadOffset, if_pos hle]
      rfl
  · have hoffset : h.getMaskingKeyOffset = 2 := by rw [BasicHeader.getMaskingKeyOffset, if_pos hcode]
    have hsize := getPayloadSize_16bit hcode he (hfield.trans hoffset)
    have hbig : ¬ getPayloadSize h e ≤ payloadSizeBasic := by
      intro hle
      rw [if_pos ⟨hcode, hle⟩] at hvalid
      cases hvalid
    have hfits : getPayloadSize h e ≤ payloadSizeExtended := by
      have hlt := value_lt field.reverse
      rw [List.length_reverse, hfield.trans hoffset] at hlt
      rw [UInt64.le_iff_toNat_le, hsize]
      exact Nat.le_of_lt_succ hlt
    constructor
    · rw [BasicHeader.basicValue, if_neg hbig, if_pos hfits, hcode]
    · apply sizeField_value hsize
      rw [ExtendedHeader.payloadOffset, if_neg hbig, if_pos hfits, hfield.trans hoffset]
  · have hoffset : h.getMaskingKeyOffset = 8 := by
      rw [BasicHeader.getMaskingKeyOffset, hcode]
      rfl
    have hsize := getPayloadSize_64bit hcode he (hfield.trans hoffset)
    have hjumbo : ¬ getPayloadSize h e ≤ payloadSizeExtended := by
      intro hle
      rw [if_neg (by rw [hcode]; exact fun h => absurd h.1 (by decide)), if_pos ⟨hcode, hle⟩] at hvalid
      cases hvalid
    have hbig : ¬ getPayloadSize h e ≤ payloadSizeBasic :=
      fun hle => hjumbo (UInt64.le_trans hle (by decide))
    constructor
    · rw [BasicHeader.basicValue, if_neg hbig, if_neg hjumbo, hcode]
    · apply sizeField_value hsize
      rw [ExtendedHeader.payloadOffset, if_neg hbig, if_neg hjumbo, hfield.trans hoffset]

theorem MaskingKey.c_ofNat {row : Bytes} (hrow : row.length = 4) :
    MaskingKey.c ⟨UInt32.ofNat (value row)⟩ = row := by
  have hlt := value_lt row
  have hbytes := bytes_value row
  rw [hrow] at hlt hbytes
  rw [MaskingKey.c, UInt32.toNat_ofNat', Nat.mod_eq_of_lt (by exact hlt), hbytes]

theorem Frame.wire_eq {f : Frame} {ext data : Bytes} (hheader : f.basicHeader = h)
    (hext : sizeField f.size ++ f.keyField = ext) (hdata : f.masked = data) :
    f.wire = h.b0 :: h.b1 :: (ext ++ data) := by
  rw [Frame.wire, Frame.header, hheader, hext, hdata]
  rfl

/-- Bytes whose header is valid, with as much payload as it says, are those of a frame. -/
theorem exists_wire {ext data : Bytes} (hrsv1 : h.getRsv1 = false) (hrsv2 : h.getRsv2 = false)
    (hrsv3 : h.getRsv3 = false) (he : e.bytes = ext ++ more)
    (hext : ext.length = h.getHeaderLen - basicHeaderLength)
    (hvalid : Processor.validateIncomingExtendedHeader h e = .ok ())
    (hdata : data.length = (getPayloadSize h e).toNat) :
    ∃ f : Frame, f.wire = h.b0 :: h.b1 :: (ext ++ data) := by
  have hlen : ext.length = h.getMaskingKeyOffset + if h.getMasked then 4 else 0 := by
    rw [hext, BasicHeader.getHeaderLen, Nat.add_assoc, Nat.add_sub_cancel_left]
  have hsplit : ext = ext.take h.getMaskingKeyOffset ++ ext.drop h.getMaskingKeyOffset :=
    (List.take_append_drop _ _).symm
  have hoffset : (ext.take h.getMaskingKeyOffset).length = h.getMaskingKeyOffset :=
    List.length_take_of_le (hlen ▸ Nat.le_add_right _ _)
  have hfield : e.bytes = ext.take h.getMaskingKeyOffset ++
      (ext.drop h.getMaskingKeyOffset ++ more) := by
    rw [he, ← List.append_assoc, ← hsplit]
  obtain ⟨hbasic, hsize⟩ := sizeField_of_valid hfield hoffset hvalid
  have hbound : data.length < 2 ^ 64 := hdata ▸ UInt64.toNat_lt _
  have hword : UInt64.ofNat data.length = getPayloadSize h e := by
    rw [hdata, UInt64.ofNat_toNat]
  have hheader := BasicHeader.make_fields hrsv1 hrsv2 hrsv3 hbasic
  by_cases hmasked : h.getMasked = true
  · have hrow : (ext.drop h.getMaskingKeyOffset).length = 4 := by
      rw [List.length_drop, hlen, if_pos hmasked, Nat.add_sub_cancel_left]
    let key : MaskingKey := ⟨UInt32.ofNat (value (ext.drop h.getMaskingKeyOffset))⟩
    have hkey : key.c = ext.drop h.getMaskingKeyOffset := MaskingKey.c_ofNat hrow
    have hlength : (mask (keyStream key 0) data).length = data.length := length_mask _ _
    have hsame : UInt64.ofNat (mask (keyStream key 0) data).length = getPayloadSize h e := by
      rw [hlength, hword]
    refine ⟨⟨h.getFin, h.getOpcode, some key, mask (keyStream key 0) data, hlength ▸ hbound⟩,
      Frame.wire_eq ?_ ?_ (mask_mask _ _)⟩
    · rw [Frame.basicHeader, Frame.size, hsame]
      simpa [hmasked] using hheader
    · rw [Frame.size, hsame, hsize, Frame.keyField, Option.elim_some, hkey]
      exact hsplit.symm
  · have hrow : ext.drop h.getMaskingKeyOffset = [] := by
      rw [List.drop_eq_nil_iff, hlen, if_neg hmasked]
      exact Nat.le_refl _
    refine ⟨⟨h.getFin, h.getOpcode, none, data, hbound⟩, Frame.wire_eq ?_ ?_ rfl⟩
    · rw [Frame.basicHeader, Frame.size, hword]
      simpa [hmasked] using hheader
    · rw [Frame.size, hword, hsize, Frame.keyField, Option.elim_none, ← hrow]
      exact hsplit.symm

end Reconstruction

/-! ### Frames from bytes in one way only -/

namespace Frame

variable {f g : Frame} {a b : Bytes}

theorem ext_of_fields (hfin : f.fin = g.fin) (hopcode : f.opcode = g.opcode) (hkey : f.key = g.key)
    (hpayload : f.payload = g.payload) : f = g := by
  cases f
  cases g
  cases hfin
  cases hopcode
  cases hkey
  cases hpayload
  rfl

theorem key_of_header (hheader : f.basicHeader = g.basicHeader)
    (hext : sizeField f.size ++ f.keyField = sizeField g.size ++ g.keyField) : f.key = g.key := by
  have hsome : f.key.isSome = g.key.isSome := by
    rw [← f.getMasked_basicHeader, hheader, g.getMasked_basicHeader]
  have hvalue : f.key.getD ⟨0⟩ = g.key.getD ⟨0⟩ := by
    let e : ExtendedHeader := ⟨sizeField f.size ++ f.keyField⟩
    have hf := f.getMaskingKey_basicHeader (e := e) (List.append_nil _).symm
    have hg := g.getMaskingKey_basicHeader (e := e) (hext.trans (List.append_nil _).symm)
    rw [← hf, hheader, hg]
  cases hf : f.key with
  | none =>
      rw [hf] at hsome
      exact (Option.isNone_iff_eq_none.mp (by simpa using hsome.symm)).symm
  | some key =>
      rw [hf] at hsome hvalue
      obtain ⟨key', hkey'⟩ := Option.isSome_iff_exists.mp hsome.symm
      rw [hkey'] at hvalue ⊢
      exact congrArg some hvalue

theorem size_of_header (hheader : f.basicHeader = g.basicHeader)
    (hext : sizeField f.size ++ f.keyField = sizeField g.size ++ g.keyField) : f.size = g.size := by
  have hf := getPayloadSize_eq (e := ⟨sizeField f.size ++ f.keyField⟩) f.getBasicSize_basicHeader rfl
  have hg := getPayloadSize_eq (e := ⟨sizeField f.size ++ f.keyField⟩) g.getBasicSize_basicHeader hext
  rw [← hf, hheader, hg]

/-- No frame is the beginning of another one. -/
theorem wire_append_inj (h : f.wire ++ a = g.wire ++ b) : f = g ∧ a = b := by
  simp only [wire, header, List.cons_append, List.cons.injEq, List.append_assoc] at h
  obtain ⟨hb0, hb1, hrest⟩ := h
  have hheader : f.basicHeader = g.basicHeader := by
    cases hf : f.basicHeader
    cases hg : g.basicHeader
    rw [hf, hg] at hb0 hb1
    cases hb0
    cases hb1
    rfl
  rw [← List.append_assoc, ← List.append_assoc (sizeField g.size)] at hrest
  obtain ⟨hext, hdata⟩ := List.append_inj hrest
    (by rw [← f.getHeaderLen_eq, ← g.getHeaderLen_eq, hheader])
  have hsize := size_of_header hheader hext
  have hkey := key_of_header hheader hext
  have hlen : f.masked.length = g.masked.length := by
    rw [f.length_masked, g.length_masked, ← f.toNat_size, ← g.toNat_size, hsize]
  obtain ⟨hmasked, rfl⟩ := List.append_inj hdata hlen
  have hpayload : f.payload = g.payload := by
    rw [masked, masked, hkey] at hmasked
    cases hg : g.key with
    | none => simpa [hg] using hmasked
    | some key =>
        simp only [hg, Option.elim_some] at hmasked
        rw [← mask_mask (keyStream key 0) f.payload, hmasked, mask_mask]
  have hopcode : f.opcode = g.opcode := by
    rw [← f.getOpcode_basicHeader, hheader, g.getOpcode_basicHeader]
  have hfin : f.fin = g.fin := by
    rw [← f.getFin_basicHeader, hheader, g.getFin_basicHeader]
  exact ⟨ext_of_fields hfin hopcode hkey hpayload, rfl⟩

theorem wire_ne_nil (f : Frame) : f.wire ≠ [] := List.cons_ne_nil _ _

/-- A stream of frames can be taken apart in one way only. -/
theorem flatMap_wire_inj {frames frames' : List Frame} :
    frames.flatMap wire = frames'.flatMap wire ↔ frames = frames' := by
  constructor
  · intro h
    induction frames generalizing frames' with
    | nil =>
        cases frames' with
        | nil => rfl
        | cons g frames' => exact absurd (List.append_eq_nil_iff.mp h.symm).1 g.wire_ne_nil
    | cons f frames ih =>
        cases frames' with
        | nil => exact absurd (List.append_eq_nil_iff.mp h).1 f.wire_ne_nil
        | cons g frames' =>
            rw [List.flatMap_cons, List.flatMap_cons] at h
            obtain ⟨rfl, hrest⟩ := wire_append_inj h
            rw [ih hrest]
  · intro h
    rw [h]

end Frame

/-! ### Reading to the end of a frame -/

namespace Processor

variable {cfg : Endpoint} {p q : Processor} {r : Receiver} {buf : Bytes} {out : List Message}

/-- The processor waits for a frame to begin. -/
def BetweenFrames (p : Processor) : Prop := p.state = .headerBasic ∧ p.bytesNeeded = 2

instance (p : Processor) : Decidable p.BetweenFrames := inferInstanceAs (Decidable (_ ∧ _))

theorem Represents.betweenFrames (hp : p.Represents r) : p.BetweenFrames := ⟨hp.state, hp.need⟩

theorem rsv_of_valid {h : BasicHeader} {server new : Bool}
    (hvalid : validateIncomingBasicHeader h server new = .ok ()) :
    h.getRsv1 = false ∧ h.getRsv2 = false ∧ h.getRsv3 = false := by
  simp only [validateIncomingBasicHeader] at hvalid
  split at hvalid
  · cases hvalid
  · split at hvalid
    · cases hvalid
    · next hrsv1 =>
        split at hvalid
        · cases hvalid
        · next hrsv => simpa [hrsv1] using hrsv

theorem beginPayload_need (h : p.beginPayload cfg = .ok q) : q.bytesNeeded = p.bytesNeeded := by
  simp only [beginPayload] at h
  repeat' split at h
  all_goals cases h
  all_goals rfl

/-- The extended header has been read: what it says is valid, and the payload follows. -/
theorem finish_extended {first : List Message} (hstate : p.state = .headerExtended)
    (h : p.finish cfg = (first, .ok q)) :
    first = [] ∧ validateIncomingExtendedHeader p.basicHeader p.extendedHeader = .ok () ∧
      q.state = .application ∧
      q.bytesNeeded = (getPayloadSize p.basicHeader p.extendedHeader).toNat := by
  rw [Processor.finish, hstate] at h
  obtain ⟨hfirst, hcomplete⟩ := Prod.mk.inj h
  obtain ⟨_, hvalid, hbegin⟩ := bind_eq_ok.mp hcomplete
  exact ⟨hfirst.symm, hvalid, completeExtendedHeader_state hcomplete, beginPayload_need hbegin⟩

/-- A part of a field leaves the processor inside of the frame. -/
theorem read_inside (hp : p.Inv) (hshort : buf.length < p.bytesNeeded)
    (hstart : p.BetweenFrames → buf ≠ []) (hread : (reader cfg).read p buf = (out, .ok q)) :
    out = [] ∧ ¬ q.BetweenFrames := by
  rw [FieldReader.read_part (reader_lawful cfg) hp hshort] at hread
  obtain ⟨hout, hend⟩ := Prod.mk.inj hread
  have hend : p.absorb buf = .ok q := hend
  refine ⟨hout.symm, ?_⟩
  rintro ⟨hstate, hneed⟩
  have hstate' := absorb_state hp (Nat.le_of_lt hshort) hend
  obtain ⟨-, hcount⟩ := absorb_ok hp (Nat.le_of_lt hshort) hend
  have hbound := hp.basic (hstate'.symm.trans hstate)
  have hempty : buf = [] := List.eq_nil_of_length_eq_zero (by omega)
  exact hstart ⟨hstate'.symm.trans hstate, by rw [← hcount, hneed, hempty]; rfl⟩ hempty

/-- A stream that is read without an error is empty, or begins with a whole frame, or
ends inside of the first frame. -/
theorem Represents.read_cases (hp : p.Represents r)
    (hread : (reader cfg).read p buf = (out, .ok q)) :
    buf = [] ∨ (∃ (f : Frame) (rest : Bytes), buf = f.wire ++ rest) ∨
      out = [] ∧ ¬ q.BetweenFrames := by
  rcases buf with _ | ⟨b0, _ | ⟨b1, buf⟩⟩
  · exact Or.inl rfl
  · right; right
    refine read_inside hp.inv ?_ (fun _ hnil => by cases hnil) hread
    rw [hp.need]
    exact Nat.one_lt_two
  right
  have hlaw := reader_lawful cfg
  -- the basic header
  have hlen : p.bytesNeeded ≤ (b0 :: b1 :: buf).length := by
    rw [hp.need]
    exact Nat.le_add_left 2 buf.length
  obtain ⟨mid, _, p₂, out₂, habsorb, hfinish, hread₂, hinv₂, hout⟩ :=
    FieldReader.of_read_ok hlaw hp.inv hlen hread
  have hmid : mid = { p with basicHeader := ⟨b0, b1⟩, bytesNeeded := 0 } := by
    change p.absorb ((b0 :: b1 :: buf).take p.bytesNeeded) = _ at habsorb
    rw [hp.need] at habsorb
    exact (Except.ok.inj ((hp.absorb_basic ⟨b0, b1⟩).symm.trans habsorb)).symm
  change mid.finish cfg = _ at hfinish
  rw [hmid, Processor.finish] at hfinish
  simp only [hp.state] at hfinish
  obtain ⟨rfl, hcomplete⟩ := Prod.mk.inj hfinish
  obtain ⟨_, hvalid, hp₂eq⟩ := bind_eq_ok.mp hcomplete
  obtain ⟨hrsv1, hrsv2, hrsv3⟩ := rsv_of_valid hvalid
  have hp₂ : p₂ = { p with
      basicHeader := ⟨b0, b1⟩
      state := .headerExtended
      cursor := 0
      bytesNeeded := BasicHeader.getHeaderLen ⟨b0, b1⟩ - basicHeaderLength } :=
    (Except.ok.inj hp₂eq).symm
  have hstate₂ : p₂.state = .headerExtended := by rw [hp₂]
  have hneed₂ : p₂.bytesNeeded = BasicHeader.getHeaderLen ⟨b0, b1⟩ - basicHeaderLength := by
    rw [hp₂]
  have hread₂ : (reader cfg).read p₂ buf = (out₂, .ok q) := by
    change (reader cfg).read p₂ ((b0 :: b1 :: buf).drop p.bytesNeeded) = _ at hread₂
    rwa [hp.need] at hread₂
  rcases Nat.lt_or_ge buf.length p₂.bytesNeeded with hshort | hlong
  · right
    rw [hout]
    refine read_inside hinv₂ hshort ?_ hread₂
    rintro ⟨hstate, -⟩
    rw [hstate₂] at hstate
    cases hstate
  -- the extended header
  obtain ⟨mid₂, _, p₃, out₃, habsorb₂, hfinish₂, hread₃, hinv₃, hout₂⟩ :=
    FieldReader.of_read_ok hlaw hinv₂ hlong hread₂
  have hext : (buf.take p₂.bytesNeeded).length =
      BasicHeader.getHeaderLen ⟨b0, b1⟩ - basicHeaderLength := by
    rw [List.length_take_of_le hlong, hneed₂]
  have hmid₂ : mid₂ = (p₂.copyExtendedHeaderBytes (buf.take p₂.bytesNeeded)).1 := by
    change p₂.absorb _ = _ at habsorb₂
    rw [Processor.absorb, hstate₂] at habsorb₂
    exact (Except.ok.inj habsorb₂).symm
  have hbasic₂ : mid₂.basicHeader = ⟨b0, b1⟩ := by
    rw [hmid₂, hp₂]
    rfl
  have hextended₂ : mid₂.extendedHeader.bytes = buf.take p₂.bytesNeeded ++
      p.extendedHeader.bytes.drop (buf.take p₂.bytesNeeded).length := by
    rw [hmid₂, copyExtendedHeaderBytes_of_le (List.length_take_le _ _), hp₂]
    simp only [overwrite, List.take_zero, List.nil_append, Nat.zero_add]
  have hstate_mid₂ : mid₂.state = .headerExtended := by
    rw [hmid₂]
    exact hstate₂
  obtain ⟨rfl, hvalid₂, hstate₃, hneed₃⟩ := finish_extended hstate_mid₂ hfinish₂
  have hread₃ : (reader cfg).read p₃ (buf.drop p₂.bytesNeeded) = (out₃, .ok q) := hread₃
  rw [hbasic₂] at hvalid₂ hneed₃
  rcases Nat.lt_or_ge (buf.drop p₂.bytesNeeded).length p₃.bytesNeeded with hshort | hlong₃
  · right
    rw [hout, hout₂]
    refine read_inside hinv₃ hshort ?_ hread₃
    rintro ⟨hstate, -⟩
    rw [hstate₃] at hstate
    cases hstate
  · left
    have hdata := List.length_take_of_le hlong₃
    obtain ⟨f, hf⟩ := exists_wire hrsv1 hrsv2 hrsv3 hextended₂ hext hvalid₂ (hdata.trans hneed₃)
    refine ⟨f, (buf.drop p₂.bytesNeeded).drop p₃.bytesNeeded, ?_⟩
    rw [hf, List.cons_append, List.cons_append, List.append_assoc, List.take_append_drop,
      List.take_append_drop]

/-! ### Streams -/

/-- What is read without an error, up to the end of a frame, are frames. -/
theorem Represents.exists_frames : ∀ {n : Nat} {buf : Bytes} {p : Processor} {r : Receiver}
    {out : List Message}, buf.length < n → p.Represents r →
      (reader cfg).read p buf = (out, .ok q) → q.BetweenFrames →
      ∃ frames r', buf = frames.flatMap Frame.wire ∧
        Receiver.acceptAll cfg r frames = (out, .ok r') := by
  intro n
  induction n with
  | zero => intro buf _ _ _ hlen; exact absurd hlen (Nat.not_lt_zero _)
  | succ n ih =>
      intro buf p r out hlen hp hread hbetween
      rcases hp.read_cases hread with rfl | ⟨f, rest, rfl⟩ | ⟨-, hinside⟩
      · rw [hp.read_nil] at hread
        obtain ⟨rfl, -⟩ := Prod.mk.inj hread
        exact ⟨[], r, rfl, rfl⟩
      · obtain ⟨e, hrel, hframe⟩ := hp.read_frame cfg f rest
        rw [hframe] at hread
        obtain ⟨first, p', more, rfl, hrest, rfl⟩ := Emission.of_andThen_ok hread
        cases haccept : r.accept cfg f with
        | mk out next =>
            rw [haccept] at hrel
            cases hrel with
            | @ok _ _ r' hp' =>
                have hshort : rest.length < n := by
                  simp only [Frame.wire, Frame.header, List.length_append, List.length_cons] at hlen
                  omega
                obtain ⟨frames, r'', rfl, haccepted⟩ := ih hshort hp' hrest hbetween
                refine ⟨f :: frames, r'', rfl, ?_⟩
                rw [Receiver.acceptAll, haccept]
                simp only [Emission.andThen, haccepted]
      · exact absurd hbetween hinside

end Processor

section Streams

open Processor

variable {τ : Type} {cfg : Endpoint}

/-- Reads that begin with whole frames, and what is left of them when the receiver has
taken the frames. -/
theorem handleReads_frames (cfg : Endpoint) {reads : List Bytes} {frames : List Frame} {rest : Bytes}
    (hreads : reads.flatten = frames.flatMap Frame.wire ++ rest) (dispatch : Message → τ → τ) (t : τ) :
    ∃ e : Emission ProcessorError Message Processor,
      e.Rel Represents (Receiver.acceptAll cfg none frames) ∧
      handleReads cfg dispatch .init t reads =
        some ((e.andThen fun p => (reader cfg).read p rest).1.foldl (fun t msg => dispatch msg t) t,
          (e.andThen fun p => (reader cfg).read p rest).2) := by
  have hinit := represents_init
  obtain ⟨e, hrel, hread⟩ := hinit.read_frames cfg rest frames
  refine ⟨e, hrel, ?_⟩
  rw [handleReads_eq dispatch hinit.inv (by decide), hreads, hread]

/-- Frames that the receiver takes are read to the end. -/
theorem handleReads_taken {reads : List Bytes} {frames : List Frame} {out : List Message}
    {r : Receiver} (hreads : reads.flatten = frames.flatMap Frame.wire)
    (htaken : Receiver.acceptAll cfg none frames = (out, .ok r)) (dispatch : Message → τ → τ) (t : τ) :
    ∃ p : Processor, p.Represents r ∧ handleReads cfg dispatch .init t reads =
      some (out.foldl (fun t msg => dispatch msg t) t, .ok p) := by
  obtain ⟨e, hrel, hread⟩ := handleReads_frames cfg (hreads.trans (List.append_nil _).symm) dispatch t
  rw [htaken] at hrel
  cases hrel with
  | @ok _ p _ hp =>
      refine ⟨p, hp, ?_⟩
      rw [hread]
      simp [Emission.andThen, hp.read_nil, Emission.pure]

/-- Of frames that the receiver takes, whatever part has arrived has been read: the
messages given away so far are the first ones. -/
theorem handleReads_prefix {reads : List Bytes} {frames : List Frame} {out : List Message}
    {r : Receiver} (hreads : reads.flatten <+: frames.flatMap Frame.wire)
    (htaken : Receiver.acceptAll cfg none frames = (out, .ok r)) (dispatch : Message → τ → τ)
    (t : τ) :
    ∃ p n, handleReads cfg dispatch .init t reads =
        some ((out.take n).foldl (fun t msg => dispatch msg t) t, .ok p) ∧
      (reads.flatten = frames.flatMap Frame.wire → out.take n = out) := by
  have hinit := represents_init
  obtain ⟨rest, hrest⟩ := hreads
  obtain ⟨e, hrel, hread⟩ := hinit.read_frames cfg [] frames
  rw [htaken] at hrel
  cases hrel with
  | @ok _ p _ hp =>
      rw [List.append_nil, ← hrest, FieldReader.read_append (reader_lawful cfg) hinit.inv] at hread
      have hall : ((reader cfg).read .init reads.flatten).andThen
          (fun q => (reader cfg).read q rest) = (out, .ok p) := by
        rw [hread]
        simp [Emission.andThen, hp.read_nil, Emission.pure]
      obtain ⟨first, mid, more, hfirst, hmore, hout⟩ := Emission.of_andThen_ok hall
      refine ⟨mid, first.length, ?_, ?_⟩
      · rw [handleReads_eq dispatch hinit.inv (by decide), hfirst, hout, List.take_left]
      · intro hwhole
        have hnone : rest = [] := by
          rw [← hrest] at hwhole
          exact List.append_right_eq_self.mp hwhole.symm
        obtain ⟨hmid, hneed⟩ :=
          FieldReader.read_ok (reader_lawful cfg) hinit.inv (congrArg Prod.snd hfirst)
        have hnothing : (reader cfg).read mid [] = .pure mid := FieldReader.settle_waiting hneed
        rw [hnone, hnothing] at hmore
        obtain ⟨rfl, -⟩ := Prod.mk.inj hmore
        rw [hout, List.append_nil, List.take_length]

/-- A frame that the receiver refuses ends the reading with the same error, in any
number of reads and whatever follows the frame. -/
theorem handleReads_refused {reads : List Bytes} {frames : List Frame}
    {rest : Bytes} {out : List Message} {ec : ProcessorError}
    (hreads : reads.flatten = frames.flatMap Frame.wire ++ rest)
    (hrefused : Receiver.acceptAll cfg none frames = (out, .error ec)) (dispatch : Message → τ → τ)
    (t : τ) : handleReads cfg dispatch .init t reads =
      some (out.foldl (fun t msg => dispatch msg t) t, .error ec) := by
  obtain ⟨e, hrel, hread⟩ := handleReads_frames cfg hreads dispatch t
  rw [hrefused] at hrel
  cases hrel
  exact hread

/-- A client that is sent a masked frame, byte by byte, and another one behind it. -/
theorem handleReads_refused_example :
    let good : Frame := ⟨true, .ping, none, ascii "a", by decide⟩
    let bad : Frame := ⟨true, .text, some ⟨7⟩, ascii "hi", by decide⟩
    handleReads .client (fun msg log => log ++ [msg]) .init []
        (([good, bad].flatMap Frame.wire ++ good.wire).map fun b => [b]) =
      some ([Receiver.message .ping (ascii "a")], .error .maskingForbidden) := by
  intro good bad
  have hreads : (([good, bad].flatMap Frame.wire ++ good.wire).map fun b => [b]).flatten =
      [good, bad].flatMap Frame.wire ++ good.wire := by
    rw [← List.flatMap_def, List.flatMap_singleton']
  have hrefused : Receiver.acceptAll .client none [good, bad] =
      ([Receiver.message .ping (ascii "a")], .error .maskingForbidden) := rfl
  exact handleReads_refused hreads hrefused _ _

/-- It does not matter how the bytes are cut into reads. -/
theorem handleReads_cut (cfg : Endpoint) {reads reads' : List Bytes}
    (hreads : reads.flatten = reads'.flatten) (dispatch : Message → τ → τ) (t : τ) :
    handleReads cfg dispatch .init t reads = handleReads cfg dispatch .init t reads' := by
  have hinit := represents_init
  rw [handleReads_eq dispatch hinit.inv (by decide), handleReads_eq dispatch hinit.inv (by decide),
    hreads]

theorem handleReads_cut_example :
    handleReads .client (fun msg log => log ++ [msg]) .init [] [[0x81], [0x02, 0x68], [0x69]] =
      handleReads .client (fun msg log => log ++ [msg]) .init [] [[0x81, 0x02, 0x68, 0x69]] :=
  handleReads_cut .client rfl _ _

end Streams

end ExchangeClient.Websocketpp
