import ExchangeClient.Websocketpp.Reading

/-!
# What the processor is for

A stream of frames, and a receiver that takes them one by one: it refuses what the
protocol forbids, puts the frames of a message together and gives complete messages
away. A processor between two frames stands for a receiver and reads the bytes of a
frame as the receiver takes the frame.
-/

namespace ExchangeClient.Websocketpp

open LittleEndian Keystream

/-! ### Frames -/

/-- A frame. The length field has eight bytes at most. -/
structure Frame where
  fin : Bool
  opcode : Opcode
  key : Option MaskingKey
  payload : Bytes
  bounded : payload.length < 2 ^ 64

namespace Frame

variable (f : Frame)

def size : UInt64 := UInt64.ofNat f.payload.length

def basicHeader : BasicHeader :=
  BasicHeader.make f.opcode f.size f.fin f.key.isSome false false false

def keyField : Bytes := f.key.elim [] MaskingKey.c

/-- The payload as it is sent. -/
def masked : Bytes := f.key.elim f.payload fun key => mask (keyStream key 0) f.payload

def header : Bytes :=
  f.basicHeader.b0 :: f.basicHeader.b1 :: (sizeField f.size ++ f.keyField)

/-- The bytes of a frame. -/
def wire : Bytes := f.header ++ f.masked

@[simp] theorem toNat_size : f.size.toNat = f.payload.length := by
  rw [size, UInt64.toNat_ofNat']
  exact Nat.mod_eq_of_lt f.bounded

@[simp] theorem length_masked : f.masked.length = f.payload.length := by
  unfold masked
  cases f.key <;> simp

end Frame

/-! ### The receiver -/

/-- Octets that begin a sequence of characters. -/
def Begins (s : Bytes) : Prop := (Utf8.scan [] s).isSome = true

instance (s : Bytes) : Decidable (Begins s) := inferInstanceAs (Decidable (_ = true))

instance (s : Bytes) : Decidable (Utf8.Valid s) := decidable_of_iff _ Utf8.scan_eq_nil_iff

theorem begins_of_append {a b : Bytes} (h : Begins (a ++ b)) : Begins a := by
  rw [Begins, Utf8.scan_append] at h
  obtain ⟨ranges, hranges⟩ := Option.isSome_iff_exists.mp h
  obtain ⟨mid, hmid, -⟩ := Option.bind_eq_some_iff.mp hranges
  rw [Begins, hmid]
  rfl

theorem begins_of_valid {s : Bytes} (h : Utf8.Valid s) : Begins s := by
  rw [Begins, Utf8.scan_valid h]
  rfl

/-- A data message whose last frame has not arrived. A text may end inside of a
character. -/
structure Partial where
  opcode : Opcode
  payload : Bytes
  data : opcode.isControl = false
  begins : opcode = .text → Begins payload
deriving DecidableEq

abbrev Receiver := Option Partial

namespace Receiver

variable (cfg : Endpoint) (r : Receiver) (f : Frame)

/-- What the header of a frame must not say. -/
def admits : Except ProcessorError Unit :=
  if f.opcode.isControl ∧ 125 < f.payload.length then .error .controlTooBig
  else if f.opcode.reserved then .error .invalidOpcode
  else if f.opcode.isControl ∧ f.fin = false then .error .fragmentedControl
  else if r.isNone ∧ f.opcode = .continuation then .error .invalidContinuation
  else if r.isSome ∧ f.opcode.isControl = false ∧ f.opcode ≠ .continuation then
    .error .invalidContinuation
  else if cfg.server ∧ f.key.isNone then .error .maskingRequired
  else if cfg.server = false ∧ f.key.isSome then .error .maskingForbidden
  else .ok ()

/-- The message that a data frame continues. -/
def beginning (hdata : f.opcode.isControl = false) : Partial :=
  r.getD ⟨f.opcode, [], hdata, fun _ => rfl⟩

/-- The bytes a message may have are counted in a machine word. -/
def tooBig : Bool :=
  match r with
  | none => f.payload.length > cfg.maxMessageSize
  | some m => (m.payload.length + f.payload.length) % 2 ^ 64 > cfg.maxMessageSize

def message (op : Opcode) (payload : Bytes) : Message := { getMessage op with payload := payload }

/-- A text has to be UTF-8 as far as it has arrived. That it does not end inside of a
character is only asked of a text in a single frame: the opcode that is looked at is
that of the last frame. -/
def acceptData (hdata : f.opcode.isControl = false) : Emission ProcessorError Message Receiver :=
  let m := r.beginning f hdata
  if r.tooBig cfg f then .fail .messageTooBig
  else if hbegins : m.opcode = .text → Begins (m.payload ++ f.payload) then
    if f.fin then
      if f.opcode = .text ∧ ¬ Utf8.Valid (m.payload ++ f.payload) then .fail .invalidUtf8
      else ([message m.opcode (m.payload ++ f.payload)], .ok none)
    else .pure (some ⟨m.opcode, m.payload ++ f.payload, m.data, hbegins⟩)
  else .fail .invalidUtf8

/-- The receiver after a frame, and the message that the frame completes. -/
def accept : Emission ProcessorError Message Receiver :=
  match r.admits cfg f with
  | .error ec => .fail ec
  | .ok () =>
      if hcontrol : f.opcode.isControl = true then ([message f.opcode f.payload], .ok r)
      else r.acceptData cfg f (Bool.eq_false_of_not_eq_true hcontrol)

/-- A sequence of frames. -/
def acceptAll (cfg : Endpoint) (r : Receiver) :
    List Frame → Emission ProcessorError Message Receiver
  | [] => .pure r
  | f :: frames => (r.accept cfg f).andThen fun r => acceptAll cfg r frames

end Receiver

namespace Receiver

variable {cfg : Endpoint} {f : Frame}

/-- A message is continued by continuation frames only. -/
theorem continuation_of_admits {m : Partial} (hdata : f.opcode.isControl = false)
    (h : admits cfg (some m) f = .ok ()) : f.opcode = .continuation := by
  by_contra hop
  simp [admits, hdata, hop] at h
  split at h <;> cases h

/-- A control message is never sent in pieces. -/
theorem fin_of_admits {r : Receiver} (hcontrol : f.opcode.isControl = true)
    (h : r.admits cfg f = .ok ()) : f.fin = true := by
  by_contra hfin
  have hfin : f.fin = false := Bool.eq_false_of_not_eq_true hfin
  simp only [admits, hcontrol, hfin, and_self, if_true] at h
  split at h
  · cases h
  · split at h <;> cases h

end Receiver

/-! ### Headers -/

namespace Frame

variable (f : Frame)

theorem getOpcode_basicHeader : f.basicHeader.getOpcode = f.opcode := BasicHeader.getOpcode_make ..

theorem getFin_basicHeader : f.basicHeader.getFin = f.fin := BasicHeader.getFin_make ..

theorem getMasked_basicHeader : f.basicHeader.getMasked = f.key.isSome :=
  BasicHeader.getMasked_make ..

theorem getBasicSize_basicHeader : f.basicHeader.getBasicSize = BasicHeader.basicValue f.size :=
  BasicHeader.getBasicSize_make ..

theorem toNat_basicSize : f.basicHeader.getBasicSize.toNat =
    if f.payload.length ≤ 125 then f.payload.length
    else if f.payload.length ≤ 0xFFFF then 126 else 127 := by
  have hbasic : f.size ≤ payloadSizeBasic ↔ f.payload.length ≤ 125 := by
    rw [UInt64.le_iff_toNat_le, toNat_size]
    rfl
  have hextended : f.size ≤ payloadSizeExtended ↔ f.payload.length ≤ 0xFFFF := by
    rw [UInt64.le_iff_toNat_le, toNat_size]
    rfl
  rw [getBasicSize_basicHeader, BasicHeader.basicValue]
  by_cases hsmall : f.payload.length ≤ 125
  · rw [if_pos (hbasic.mpr hsmall), if_pos hsmall, UInt64.toNat_toUInt8, toNat_size]
    exact Nat.mod_eq_of_lt (by omega)
  · rw [if_neg (mt hbasic.mp hsmall), if_neg hsmall]
    by_cases hmedium : f.payload.length ≤ 0xFFFF
    · rw [if_pos (hextended.mpr hmedium), if_pos hmedium]
      rfl
    · rw [if_neg (mt hextended.mp hmedium), if_neg hmedium]
      rfl

theorem basicSize_le_iff : f.basicHeader.getBasicSize.toUInt64 ≤ payloadSizeBasic ↔
    f.payload.length ≤ 125 := by
  rw [UInt64.le_iff_toNat_le, UInt8.toNat_toUInt64, toNat_basicSize]
  change _ ≤ 125 ↔ _
  split
  · rfl
  · next hbig => split <;> simp [hbig]

/-- The checks of the basic header are those of the receiver. -/
theorem validateIncomingBasicHeader_eq (cfg : Endpoint) (r : Receiver) :
    Processor.validateIncomingBasicHeader f.basicHeader cfg.server r.isNone = r.admits cfg f := by
  have hsize : f.basicHeader.getBasicSize.toUInt64 > payloadSizeBasic ↔ 125 < f.payload.length := by
    rw [gt_iff_lt, ← UInt64.not_le, f.basicSize_le_iff, not_le]
  have hrsv1 : f.basicHeader.getRsv1 = false := BasicHeader.getRsv1_make ..
  have hrsv2 : f.basicHeader.getRsv2 = false := BasicHeader.getRsv2_make ..
  have hrsv3 : f.basicHeader.getRsv3 = false := BasicHeader.getRsv3_make ..
  simp only [Processor.validateIncomingBasicHeader, Receiver.admits, getOpcode_basicHeader,
    getFin_basicHeader, getMasked_basicHeader, hrsv1, hrsv2, hrsv3, hsize, Opcode.invalid_eq_false,
    Bool.or_self, Bool.false_eq_true, if_false, Bool.and_eq_true, decide_eq_true_eq,
    Bool.not_eq_true', Bool.and_assoc]
  cases r <;> cases f.key <;> cases cfg.server <;> simp

theorem validateIncomingExtendedHeader_eq {e : ExtendedHeader} {more : Bytes}
    (he : e.bytes = sizeField f.size ++ more) :
    Processor.validateIncomingExtendedHeader f.basicHeader e = .ok () := by
  have hnat := f.toNat_basicSize
  rw [Processor.validateIncomingExtendedHeader, getPayloadSize_eq f.getBasicSize_basicHeader he, if_neg, if_neg]
  · rintro ⟨hcode, hle⟩
    have hle : f.payload.length ≤ 0xFFFF := f.toNat_size ▸ UInt64.le_iff_toNat_le.mp hle
    rw [hcode, if_pos hle] at hnat
    change 127 = _ at hnat
    split at hnat <;> omega
  · rintro ⟨hcode, hle⟩
    have hle : f.payload.length ≤ 125 := f.toNat_size ▸ UInt64.le_iff_toNat_le.mp hle
    rw [hcode, if_pos hle] at hnat
    change 126 = _ at hnat
    omega

theorem getHeaderLen_eq : f.basicHeader.getHeaderLen - basicHeaderLength =
    (sizeField f.size ++ f.keyField).length := by
  rw [BasicHeader.getHeaderLen, getMaskingKeyOffset_eq f.getBasicSize_basicHeader,
    getMasked_basicHeader, keyField, List.length_append, Nat.add_assoc, Nat.add_sub_cancel_left]
  cases f.key <;> simp

theorem getMaskingKey_basicHeader {e : ExtendedHeader} {more : Bytes}
    (he : e.bytes = sizeField f.size ++ f.keyField ++ more) :
    getMaskingKey f.basicHeader e = f.key.getD ⟨0⟩ := by
  cases hkey : f.key with
  | none =>
      rw [getMaskingKey, getMasked_basicHeader, hkey]
      rfl
  | some key =>
      rw [keyField, hkey] at he
      exact getMaskingKey_eq (by rw [getMasked_basicHeader, hkey]; rfl) f.getBasicSize_basicHeader he

end Frame

/-! ### The payload of a frame -/

namespace Processor

variable {cfg : Endpoint} {p : Processor} {f : Frame} {msg : Message}

/-- The processor before the payload of `f`, which continues the message `msg`. -/
structure BeforePayload (p : Processor) (f : Frame) (msg : Message) : Prop where
  state : p.state = .application
  header : p.basicHeader = f.basicHeader
  need : p.bytesNeeded = f.payload.length
  extended : p.extendedHeader.bytes.length = maxExtendedHeaderLength
  side : p.current = if msg.opcode.isControl then .control else .data
  message : p.currentMsg.msg = some msg
  opcode : f.opcode = .text → msg.opcode = .text
  key : p.currentMsg.preparedKey = prepareMaskingKey (f.key.getD ⟨0⟩)
  validator : msg.opcode = .text →
    p.currentMsg.validator = (Validator.fresh.decode msg.payload).1 ∧
      (Validator.fresh.decode msg.payload).2 = true

/-- The processor after it. -/
def afterPayload (p : Processor) (f : Frame) (msg : Message) : Processor :=
  { p.setCurrentMsg (p.extend msg f.masked) with bytesNeeded := 0 }

theorem BeforePayload.inv (h : p.BeforePayload f msg) : p.Inv := by
  refine ⟨h.extended, ?_⟩
  rw [FieldInv, h.state]
  exact ⟨⟨msg, h.message⟩, f.key.getD ⟨0⟩, 0, h.key ▸ prepared_prepareMaskingKey _⟩

theorem BeforePayload.unmask_eq (h : p.BeforePayload f msg) : (p.unmask f.masked).1 = f.payload := by
  rw [Processor.unmask, h.header, Frame.getMasked_basicHeader]
  cases hkey : f.key with
  | none =>
      rw [if_neg (by decide), Frame.masked, hkey]
      rfl
  | some key =>
      have hprepared : Prepared key 0 p.currentMsg.preparedKey := by
        rw [h.key, hkey]
        exact prepared_prepareMaskingKey key
      rw [if_pos Option.isSome_some, (byteMaskCirc_eq hprepared _).1, Frame.masked, hkey]
      exact mask_mask _ _

/-- The validator has gone through the text as far as it has arrived. -/
theorem BeforePayload.decode_eq (h : p.BeforePayload f msg) (htext : msg.opcode = .text) :
    p.currentMsg.validator.decode f.payload =
      Validator.fresh.decode (msg.payload ++ f.payload) := by
  obtain ⟨hvalidator, hvalid⟩ := h.validator htext
  rw [Validator.decode_append, if_pos hvalid, hvalidator]

theorem decode_begins (s : Bytes) :
    (Validator.fresh.decode s).2 = true ↔ Begins s := by
  rw [Validator.decode_fresh_iff, Begins, Utf8.scan_isSome_iff]

theorem extend_nil (hmsg : p.currentMsg.msg = some msg) : p.extend msg [] = p.currentMsg := by
  have hmask : p.unmask [] = ([], p.currentMsg.preparedKey) := by
    unfold unmask
    split <;> rfl
  simp only [extend, hmask, List.append_nil, Validator.decode, ite_self]
  rw [← hmsg]

theorem setCurrentMsg_currentMsg : p.setCurrentMsg p.currentMsg = p := by
  unfold setCurrentMsg currentMsg
  cases hcurrent : p.current <;> simp only [← hcurrent]

theorem BeforePayload.absorb_eq (h : p.BeforePayload f msg) :
    p.absorb f.masked =
      if msg.opcode = .text ∧ ¬ Begins (msg.payload ++ f.payload) then
        .error .invalidUtf8
      else .ok (p.afterPayload f msg) := by
  have hbegins : msg.opcode = .text →
      ((p.currentMsg.validator.decode f.payload).2 = false ↔
        ¬ Begins (msg.payload ++ f.payload)) := by
    intro htext
    rw [h.decode_eq htext, ← decode_begins, Bool.not_eq_true]
  have hread : p.processPayloadBytes f.masked =
      if msg.opcode = .text ∧ ¬ Begins (msg.payload ++ f.payload) then
        .error .invalidUtf8
      else .ok (p.afterPayload f msg) := by
    have hcount : p.bytesNeeded - f.masked.length = 0 := by
      rw [h.need, Frame.length_masked, Nat.sub_self]
    rw [processPayloadBytes_eq h.message, h.unmask_eq, hcount]
    by_cases htext : msg.opcode = .text
    · simp only [htext, true_and, hbegins htext]
      rfl
    · rw [if_neg fun hbad => htext hbad.1, if_neg fun hbad => htext hbad.1]
      rfl
  rw [Processor.absorb, h.state]
  rcases eq_or_ne f.masked [] with hnil | hne
  · -- nothing is taken in, and the text is the one that has been checked already
    have hempty : f.payload = [] := by
      rw [← List.length_eq_zero_iff, ← Frame.length_masked, hnil]
      rfl
    have hafter : p.afterPayload f msg = p := by
      have hneed : p.bytesNeeded = 0 := by rw [h.need, hempty]; rfl
      rw [afterPayload, hnil, extend_nil h.message, setCurrentMsg_currentMsg, ← hneed]
    have hgood : ¬ (msg.opcode = .text ∧ ¬ Begins (msg.payload ++ f.payload)) := by
      rintro ⟨htext, hbad⟩
      apply hbad
      rw [← decode_begins, hempty, List.append_nil]
      exact (h.validator htext).2
    simp only [if_pos hnil, hafter, if_neg hgood]
  · simp only [if_neg hne, hread]

/-- The frame is complete: its message is ready, or more frames of it follow. -/
theorem BeforePayload.finish_eq (h : p.BeforePayload f msg) (cfg : Endpoint)
    (hbegins : msg.opcode = .text → Begins (msg.payload ++ f.payload)) :
    (p.afterPayload f msg).finish cfg =
      if f.fin then
        if f.opcode = .text ∧ ¬ Utf8.Valid (msg.payload ++ f.payload) then .fail .invalidUtf8
        else .pure { p.afterPayload f msg with state := .ready }
      else .pure (p.afterPayload f msg).resetHeaders := by
  have hstate : (p.afterPayload f msg).state = .application := state_setCurrentMsg.trans h.state
  have hheader : (p.afterPayload f msg).basicHeader = f.basicHeader :=
    basicHeader_setCurrentMsg.trans h.header
  have hcurrent : (p.afterPayload f msg).currentMsg = p.extend msg f.masked := currentMsg_needing 0
  have hcomplete : f.opcode = .text →
      ((p.extend msg f.masked).validator.complete = false ↔
        ¬ Utf8.Valid (msg.payload ++ f.payload)) := by
    intro hop
    have htext := h.opcode hop
    rw [extend, if_pos htext, h.unmask_eq, h.decode_eq htext,
      ← Validator.decode_fresh_complete ((decode_begins _).mpr (hbegins htext)), Bool.not_eq_true]
  rw [Processor.finish, hstate]
  simp only [completeFrame, finalizeMessage, hheader, Frame.getFin_basicHeader,
    Frame.getOpcode_basicHeader, hcurrent]
  by_cases hfin : f.fin = true
  · rw [if_pos hfin, if_pos hfin]
    by_cases hop : f.opcode = .text
    · simp only [hop, true_and, hcomplete hop]
      split <;> rfl
    · rw [if_neg fun hbad => hop hbad.1, if_neg fun hbad => hop hbad.1]
      rfl
  · rw [if_neg hfin, if_neg hfin]
    rfl

/-- The processor after a message has been given away: the data message, or a control
message that came in between. -/
def afterMessage (p : Processor) (f : Frame) (msg : Message) : Processor :=
  resetHeaders { p with
    bytesNeeded := 0
    dataMsg :=
      if msg.opcode.isControl then p.dataMsg else { p.extend msg f.masked with msg := none }
    controlMsg :=
      if msg.opcode.isControl then { p.extend msg f.masked with msg := none }
      else p.controlMsg }

theorem BeforePayload.getMessage_eq (h : p.BeforePayload f msg) :
    { p.afterPayload f msg with state := .ready }.getMessage =
      (some { msg with payload := msg.payload ++ f.payload }, p.afterMessage f msg) := by
  have hextend : (p.extend msg f.masked).msg =
      some { msg with payload := msg.payload ++ f.payload } := by
    rw [extend, h.unmask_eq]
  have hside := h.side
  by_cases hcontrol : msg.opcode.isControl = true
  · rw [if_pos hcontrol] at hside
    simp [Processor.getMessage, afterPayload, currentMsg, setCurrentMsg, hside, hextend, hcontrol,
      afterMessage, resetHeaders]
  · rw [if_neg hcontrol] at hside
    simp [Processor.getMessage, afterPayload, currentMsg, setCurrentMsg, hside, hextend, hcontrol,
      afterMessage, resetHeaders]

end Processor

/-! ### The processor stands for the receiver -/

namespace Processor

variable {cfg : Endpoint} {p : Processor} {r : Receiver} {f : Frame} {msg : Message}

/-- A processor between two frames stands for a receiver. -/
structure Represents (p : Processor) (r : Receiver) : Prop where
  state : p.state = .headerBasic
  need : p.bytesNeeded = 2
  extended : p.extendedHeader.bytes.length = maxExtendedHeaderLength
  data : p.dataMsg.msg = r.map fun m => Receiver.message m.opcode m.payload
  validator : ∀ m, r = some m → m.opcode = .text →
    p.dataMsg.validator = (Validator.fresh.decode m.payload).1

theorem Represents.inv (hp : p.Represents r) : p.Inv := by
  refine ⟨hp.extended, ?_⟩
  rw [FieldInv, hp.state]
  exact Nat.le_of_eq hp.need

theorem Represents.read_nil (hp : p.Represents r) : (reader cfg).read p [] = .pure p := by
  have hneed : 0 < p.bytesNeeded := hp.need ▸ Nat.zero_lt_two
  exact FieldReader.settle_waiting hneed

theorem represents_init : Processor.init.Represents none where
  state := rfl
  need := rfl
  extended := rfl
  data := rfl
  validator := fun m hm => by cases hm

/-- The processor with the header of `f` read. -/
def withHeader (p : Processor) (f : Frame) : Processor :=
  { p with
    basicHeader := f.basicHeader
    extendedHeader := ⟨overwrite p.extendedHeader.bytes 0 (sizeField f.size ++ f.keyField)⟩
    cursor := (sizeField f.size ++ f.keyField).length
    state := .application
    bytesNeeded := f.payload.length }

theorem extendedHeader_withHeader (f : Frame) : ∃ more,
    (p.withHeader f).extendedHeader.bytes = sizeField f.size ++ f.keyField ++ more :=
  ⟨_, by simp only [withHeader, overwrite, List.take_zero, List.nil_append]; rfl⟩

theorem Represents.absorb_basic (hp : p.Represents r) (h : BasicHeader) :
    p.absorb [h.b0, h.b1] = .ok { p with basicHeader := h, bytesNeeded := 0 } := by
  simp [Processor.absorb, copyBasicHeaderBytes, hp.state, hp.need]

theorem Represents.finish_basic (hp : p.Represents r) :
    finish cfg { p with basicHeader := f.basicHeader, bytesNeeded := 0 } =
      (Emission.ofExcept (r.admits cfg f)).andThen fun _ =>
        .pure { p with
          basicHeader := f.basicHeader
          state := .headerExtended
          cursor := 0
          bytesNeeded := (sizeField f.size ++ f.keyField).length } := by
  have hnew : p.dataMsg.msg.isNone = r.isNone := by
    rw [hp.data]
    cases r <;> rfl
  simp only [Processor.finish, hp.state, completeBasicHeader, hnew,
    f.validateIncomingBasicHeader_eq, f.getHeaderLen_eq]
  cases r.admits cfg f <;> rfl

theorem length_fields_le (f : Frame) :
    (sizeField f.size ++ f.keyField).length ≤ maxExtendedHeaderLength :=
  f.getHeaderLen_eq ▸ getHeaderLen_le _

theorem read_extended {rest : Bytes}
    (hextended : p.extendedHeader.bytes.length = maxExtendedHeaderLength) :
    (reader cfg).read
        { p with
          basicHeader := f.basicHeader
          state := .headerExtended
          cursor := 0
          bytesNeeded := (sizeField f.size ++ f.keyField).length }
        (sizeField f.size ++ f.keyField ++ rest) =
      (Emission.ofExcept (beginPayload cfg (p.withHeader f))).andThen fun p =>
        (reader cfg).read p rest := by
  let q : Processor :=
    { p with
      basicHeader := f.basicHeader
      state := .headerExtended
      cursor := 0
      bytesNeeded := (sizeField f.size ++ f.keyField).length }
  obtain ⟨more, hmore⟩ := extendedHeader_withHeader (p := p) f
  have hfit : q.cursor + q.bytesNeeded ≤ maxExtendedHeaderLength := by
    change 0 + (sizeField f.size ++ f.keyField).length ≤ _
    rw [Nat.zero_add]
    exact length_fields_le f
  have hq : q.Inv := ⟨hextended, hfit⟩
  have habsorb : q.absorb (sizeField f.size ++ f.keyField) =
      .ok { p.withHeader f with state := .headerExtended, bytesNeeded := 0 } := by
    rw [Processor.absorb]
    simp only [q, copyExtendedHeaderBytes, withHeader, Nat.min_self, List.take_length,
      Nat.zero_add, Nat.sub_self]
  have hfinish : finish cfg { p.withHeader f with state := .headerExtended, bytesNeeded := 0 } =
      .ofExcept (beginPayload cfg (p.withHeader f)) := by
    have hsize : getPayloadSize f.basicHeader (p.withHeader f).extendedHeader = f.size :=
      getPayloadSize_eq f.getBasicSize_basicHeader (by rw [hmore, List.append_assoc])
    have hvalid : validateIncomingExtendedHeader f.basicHeader (p.withHeader f).extendedHeader =
        .ok () := f.validateIncomingExtendedHeader_eq (by rw [hmore, List.append_assoc])
    have hheader : (p.withHeader f).basicHeader = f.basicHeader := rfl
    simp only [Processor.finish, completeExtendedHeader, hheader, hvalid, hsize, Frame.toNat_size]
    rfl
  have hread := FieldReader.read_field (reader_lawful cfg) hq rfl rest
  change _ = (Emission.ofExcept (q.absorb _)).andThen fun p => (finish cfg p).andThen _ at hread
  rw [habsorb, Emission.ofExcept_ok, Emission.pure_andThen, hfinish] at hread
  exact hread

/-- The two header fields are read. -/
theorem Represents.read_header (hp : p.Represents r) (f : Frame) (rest : Bytes) :
    (reader cfg).read p (f.header ++ rest) =
      (Emission.ofExcept (r.admits cfg f)).andThen fun _ =>
        (Emission.ofExcept (beginPayload cfg (p.withHeader f))).andThen fun p =>
          (reader cfg).read p rest := by
  have hfirst := FieldReader.read_field (reader_lawful cfg) hp.inv
    (a := [f.basicHeader.b0, f.basicHeader.b1]) hp.need.symm
    (sizeField f.size ++ f.keyField ++ rest)
  have hheader : f.header ++ rest = [f.basicHeader.b0, f.basicHeader.b1] ++
      (sizeField f.size ++ f.keyField ++ rest) := rfl
  change _ = (Emission.ofExcept (p.absorb _)).andThen fun p => (finish cfg p).andThen _ at hfirst
  rw [hp.absorb_basic, Emission.ofExcept_ok, Emission.pure_andThen, hp.finish_basic,
    Emission.andThen_assoc] at hfirst
  rw [hheader, hfirst]
  apply Emission.andThen_congr
  intro _ _
  rw [Emission.pure_andThen, read_extended hp.extended]

theorem Represents.read_wire (hp : p.Represents r) (rest : Bytes) :
    (reader cfg).read p (f.wire ++ rest) =
      (Emission.ofExcept (r.admits cfg f)).andThen fun _ =>
        (Emission.ofExcept (beginPayload cfg (p.withHeader f))).andThen fun p =>
          (reader cfg).read p (f.masked ++ rest) := by
  rw [Frame.wire, List.append_assoc, hp.read_header f]

/-! #### The message a frame belongs to -/

theorem length_withHeader (f : Frame)
    (hextended : p.extendedHeader.bytes.length = maxExtendedHeaderLength) :
    (p.withHeader f).extendedHeader.bytes.length = maxExtendedHeaderLength := by
  rw [withHeader, length_overwrite, hextended]
  rw [hextended, Nat.zero_add]
  exact length_fields_le f

theorem getMaskingKey_withHeader (f : Frame) :
    getMaskingKey (p.withHeader f).basicHeader (p.withHeader f).extendedHeader =
      f.key.getD ⟨0⟩ := by
  obtain ⟨more, hmore⟩ := extendedHeader_withHeader (p := p) f
  exact f.getMaskingKey_basicHeader hmore

theorem Represents.beginPayload_control (hp : p.Represents r) (cfg : Endpoint)
    (hcontrol : f.opcode.isControl = true) :
    ∃ q : Processor, beginPayload cfg (p.withHeader f) = .ok q ∧ q.dataMsg = p.dataMsg ∧
      q.BeforePayload f (Receiver.message f.opcode []) := by
  refine ⟨{ p.withHeader f with
    controlMsg := .make (Websocketpp.getMessage f.opcode) (f.key.getD ⟨0⟩)
    current := .control }, ?_, rfl, ?_⟩
  · have hop : (p.withHeader f).basicHeader.getOpcode = f.opcode := f.getOpcode_basicHeader
    simp only [beginPayload, hop, if_pos hcontrol, getMaskingKey_withHeader]
  · exact {
      state := rfl
      header := rfl
      need := rfl
      extended := length_withHeader f hp.extended
      side := (if_pos hcontrol).symm
      message := rfl
      opcode := id
      key := rfl
      validator := fun _ => ⟨rfl, rfl⟩ }

theorem Represents.beginPayload_data (hp : p.Represents r) (hdata : f.opcode.isControl = false)
    (hadmits : r.admits cfg f = .ok ()) :
    (r.tooBig cfg f = true → beginPayload cfg (p.withHeader f) = .error .messageTooBig) ∧
    (r.tooBig cfg f = false → ∃ q : Processor, beginPayload cfg (p.withHeader f) = .ok q ∧
      q.BeforePayload f (Receiver.message (r.beginning f hdata).opcode (r.beginning f hdata).payload)) := by
  have hop : (p.withHeader f).basicHeader.getOpcode = f.opcode := f.getOpcode_basicHeader
  have hcontrol : ¬ f.opcode.isControl = true := by rw [hdata]; exact Bool.false_ne_true
  have hneed : (p.withHeader f).bytesNeeded = f.payload.length := rfl
  have hmsg : (p.withHeader f).dataMsg.msg = r.map fun m => Receiver.message m.opcode m.payload := hp.data
  simp only [beginPayload, hop, if_neg hcontrol, getMaskingKey_withHeader, hneed, hmsg]
  cases r with
  | none =>
      simp only [Receiver.tooBig, decide_eq_true_eq, decide_eq_false_iff_not, Option.map_none]
      refine ⟨fun hbig => if_pos hbig, fun hfits => ⟨_, if_neg hfits, ?_⟩⟩
      exact {
        state := rfl
        header := rfl
        need := rfl
        extended := length_withHeader f hp.extended
        side := (if_neg hcontrol).symm
        message := rfl
        opcode := id
        key := rfl
        validator := fun _ => ⟨rfl, rfl⟩ }
  | some m =>
      simp only [Receiver.tooBig, decide_eq_true_eq, decide_eq_false_iff_not, Option.map_some]
      refine ⟨fun hbig => if_pos hbig, fun hfits => ⟨_, if_neg hfits, ?_⟩⟩
      have hcontinues : f.opcode = .continuation := Receiver.continuation_of_admits hdata hadmits
      exact {
        state := rfl
        header := rfl
        need := rfl
        extended := length_withHeader f hp.extended
        side := by rw [if_neg]; exact fun h => Bool.noConfusion (h.symm.trans m.data)
        message := rfl
        opcode := fun htext => by rw [hcontinues] at htext; cases htext
        key := rfl
        validator := fun htext => ⟨hp.validator m rfl htext, (decode_begins _).mpr (m.begins htext)⟩ }

/-! #### The payload -/

theorem BeforePayload.read_masked (h : p.BeforePayload f msg) (cfg : Endpoint) (rest : Bytes) :
    (msg.opcode = .text ∧ ¬ Begins (msg.payload ++ f.payload) →
      (reader cfg).read p (f.masked ++ rest) = .fail .invalidUtf8) ∧
    ((msg.opcode = .text → Begins (msg.payload ++ f.payload)) →
      (reader cfg).read p (f.masked ++ rest) =
        ((p.afterPayload f msg).finish cfg).andThen fun p => (reader cfg).read p rest) := by
  have hread := FieldReader.read_field (reader_lawful cfg) h.inv
    (f.length_masked.trans h.need.symm) rest
  change _ = (Emission.ofExcept (p.absorb _)).andThen fun p => (finish cfg p).andThen _ at hread
  rw [h.absorb_eq] at hread
  constructor
  · intro hbad
    rw [hread, if_pos hbad]
    rfl
  · intro hbegins
    rw [hread, if_neg fun hbad => hbad.2 (hbegins hbad.1)]
    rfl

/-- A complete message is given away and the next frame is read. -/
theorem BeforePayload.read_ready (h : p.BeforePayload f msg) (rest : Bytes) :
    (reader cfg).read { p.afterPayload f msg with state := .ready } rest =
      Emission.andThen
        ([{ msg with payload := msg.payload ++ f.payload }], .ok (p.afterMessage f msg))
        fun p => (reader cfg).read p rest := by
  have hinv : Inv { p.afterPayload f msg with state := .ready } := by
    refine ⟨?_, rfl⟩
    exact (congrArg (fun e => e.bytes.length) extendedHeader_setCurrentMsg).trans h.extended
  have hfinish : finish cfg { p.afterPayload f msg with state := .ready } =
      ([{ msg with payload := msg.payload ++ f.payload }], .ok (p.afterMessage f msg)) := by
    simp only [Processor.finish, h.getMessage_eq]
    rfl
  rw [← hfinish]
  exact FieldReader.read_complete (reader_lawful cfg) hinv rfl rest

theorem Represents.afterMessage_control (hp : p.Represents r) {q : Processor}
    (hq : q.dataMsg = p.dataMsg) (hcontrol : msg.opcode.isControl = true) :
    (q.afterMessage f msg).Represents r := by
  have hdata : (q.afterMessage f msg).dataMsg = p.dataMsg := (if_pos hcontrol).trans hq
  exact {
    state := rfl
    need := rfl
    extended := rfl
    data := hdata ▸ hp.data
    validator := hdata ▸ hp.validator }

theorem represents_afterMessage (hdata : msg.opcode.isControl = false) :
    (p.afterMessage f msg).Represents none where
  state := rfl
  need := rfl
  extended := rfl
  data := by
    have hdata : (p.afterMessage f msg).dataMsg = { p.extend msg f.masked with msg := none } :=
      if_neg (by rw [hdata]; exact Bool.false_ne_true)
    rw [hdata]
    rfl
  validator := fun m hm => by cases hm

/-- More frames of the message have to follow. -/
theorem BeforePayload.represents_reset {m : Partial}
    (h : p.BeforePayload f (Receiver.message m.opcode m.payload))
    (hbegins : m.opcode = .text → Begins (m.payload ++ f.payload)) :
    (p.afterPayload f (Receiver.message m.opcode m.payload)).resetHeaders.Represents
      (some ⟨m.opcode, m.payload ++ f.payload, m.data, hbegins⟩) := by
  have hside : p.current = .data := by
    rw [h.side, if_neg]
    exact fun hcontrol => Bool.noConfusion (hcontrol.symm.trans m.data)
  have hdata : (p.afterPayload f (Receiver.message m.opcode m.payload)).resetHeaders.dataMsg =
      p.extend (Receiver.message m.opcode m.payload) f.masked := by
    simp only [resetHeaders, afterPayload, setCurrentMsg, hside]
  exact {
    state := rfl
    need := rfl
    extended := rfl
    data := by
      rw [hdata, extend, h.unmask_eq]
      rfl
    validator := by
      rintro m' hm htext
      obtain rfl := Option.some.inj hm
      have htext : (Receiver.message m.opcode m.payload).opcode = .text := htext
      rw [hdata, extend, h.unmask_eq, if_pos htext, h.decode_eq htext]
      rfl }

/-! #### A frame -/

theorem Represents.read_control (hp : p.Represents r) (hcontrol : f.opcode.isControl = true)
    (hadmits : r.admits cfg f = .ok ()) (rest : Bytes) :
    ∃ p' : Processor, p'.Represents r ∧ (reader cfg).read p (f.wire ++ rest) =
      Emission.andThen ([Receiver.message f.opcode f.payload], .ok p')
        fun p => (reader cfg).read p rest := by
  obtain ⟨q, hbegin, hdataMsg, hq⟩ := hp.beginPayload_control cfg hcontrol
  have hnot : f.opcode ≠ .text := by
    intro htext
    rw [htext] at hcontrol
    cases hcontrol
  have hbegins : (Receiver.message f.opcode []).opcode = .text → Begins ([] ++ f.payload) :=
    fun htext => absurd htext hnot
  refine ⟨q.afterMessage f (Receiver.message f.opcode []), hp.afterMessage_control hdataMsg hcontrol, ?_⟩
  rw [hp.read_wire, hadmits, Emission.ofExcept_ok, Emission.pure_andThen, hbegin,
    Emission.ofExcept_ok, Emission.pure_andThen, (hq.read_masked cfg rest).2 hbegins,
    hq.finish_eq cfg hbegins, if_pos (Receiver.fin_of_admits hcontrol hadmits),
    if_neg fun h => hnot h.1, Emission.pure_andThen, hq.read_ready]
  rfl

theorem Represents.read_data (hp : p.Represents r) (hdata : f.opcode.isControl = false)
    (hadmits : r.admits cfg f = .ok ()) (rest : Bytes) :
    ∃ e : Emission ProcessorError Message Processor,
      e.Rel Represents (r.acceptData cfg f hdata) ∧
      (reader cfg).read p (f.wire ++ rest) = e.andThen fun p => (reader cfg).read p rest := by
  let m := r.beginning f hdata
  have hmdata : (Receiver.message m.opcode m.payload).opcode.isControl = false := m.data
  obtain ⟨hbig, hfits⟩ := hp.beginPayload_data hdata hadmits
  rw [hp.read_wire, hadmits, Emission.ofExcept_ok, Emission.pure_andThen, Receiver.acceptData]
  by_cases htooBig : r.tooBig cfg f = true
  · rw [hbig htooBig, if_pos htooBig]
    exact ⟨_, .fail _, rfl⟩
  · obtain ⟨q, hbegin, hq⟩ := hfits (Bool.eq_false_of_not_eq_true htooBig)
    obtain ⟨hbad, hgood⟩ := hq.read_masked cfg rest
    rw [hbegin, Emission.ofExcept_ok, Emission.pure_andThen, if_neg htooBig]
    by_cases hbegins : m.opcode = .text → Begins (m.payload ++ f.payload)
    · have hfinish := hq.finish_eq cfg hbegins
      rw [dif_pos hbegins, hgood hbegins, hfinish]
      by_cases hfin : f.fin = true
      · rw [if_pos hfin, if_pos hfin]
        by_cases hinvalid : f.opcode = .text ∧ ¬ Utf8.Valid (m.payload ++ f.payload)
        · have hfail : f.opcode = .text ∧ ¬ Utf8.Valid
              ((Receiver.message m.opcode m.payload).payload ++ f.payload) := hinvalid
          rw [if_pos hinvalid, if_pos hfail]
          exact ⟨_, .fail _, rfl⟩
        · have hpass : ¬ (f.opcode = .text ∧ ¬ Utf8.Valid
              ((Receiver.message m.opcode m.payload).payload ++ f.payload)) := hinvalid
          rw [if_neg hinvalid, if_neg hpass, Emission.pure_andThen, hq.read_ready]
          exact ⟨_, .ok _ (represents_afterMessage hmdata), rfl⟩
      · rw [if_neg hfin, if_neg hfin]
        exact ⟨_, .pure (hq.represents_reset hbegins), rfl⟩
    · rw [dif_neg hbegins, hbad (Classical.not_imp.mp hbegins)]
      exact ⟨_, .fail _, rfl⟩

/-- The processor reads the bytes of a frame as the receiver takes the frame. -/
theorem Represents.read_frame (hp : p.Represents r) (cfg : Endpoint) (f : Frame) (rest : Bytes) :
    ∃ e : Emission ProcessorError Message Processor, e.Rel Represents (r.accept cfg f) ∧
      (reader cfg).read p (f.wire ++ rest) = e.andThen fun p => (reader cfg).read p rest := by
  rw [Receiver.accept]
  cases hadmits : r.admits cfg f with
  | error ec =>
      rw [hp.read_wire, hadmits]
      exact ⟨_, .fail ec, rfl⟩
  | ok =>
      by_cases hcontrol : f.opcode.isControl = true
      · simp only [dif_pos hcontrol]
        obtain ⟨p', hp', hread⟩ := hp.read_control hcontrol hadmits rest
        exact ⟨_, .ok _ hp', hread⟩
      · simp only [dif_neg hcontrol]
        exact hp.read_data _ hadmits rest

/-- A stream of frames is read as the receiver takes them. -/
theorem Represents.read_frames (cfg : Endpoint) (rest : Bytes) (frames : List Frame) :
    ∀ {p : Processor} {r : Receiver}, p.Represents r → ∃ e : Emission ProcessorError Message Processor,
      e.Rel Represents (Receiver.acceptAll cfg r frames) ∧
      (reader cfg).read p (frames.flatMap Frame.wire ++ rest) =
        e.andThen fun p => (reader cfg).read p rest := by
  induction frames with
  | nil =>
      intro p r hp
      exact ⟨_, .pure hp, rfl⟩
  | cons f frames ih =>
      intro p r hp
      obtain ⟨e, hframe, hread⟩ := hp.read_frame cfg f (frames.flatMap Frame.wire ++ rest)
      rw [List.flatMap_cons, List.append_assoc, Receiver.acceptAll, hread]
      exact hframe.exists_andThen fun _ _ hp' => ih hp'

end Processor

end ExchangeClient.Websocketpp
