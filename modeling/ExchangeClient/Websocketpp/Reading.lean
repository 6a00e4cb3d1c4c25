import ExchangeClient.Lib.FieldReader
import ExchangeClient.Websocketpp.Hybi13

/-!
# Reading frames in pieces

The processor is a reader of fields. Its loops over the bytes of one read do what the
reader does byte by byte, so a stream of frames is read in the same way however the
transport cuts it.
-/

namespace ExchangeClient.Websocketpp

open LittleEndian Keystream

/-! ### Masking in pieces -/

theorem Prepared.unique {key : MaskingKey} {offset : Nat} {k k' : UInt64}
    (hk : Prepared key offset k) (hk' : Prepared key offset k') : k = k' := by
  have hbytes : bytes 8 k.toNat = bytes 8 k'.toNat := hk.trans hk'.symm
  have hk : value (bytes 8 k.toNat) = k.toNat := value_bytes k.toNat_lt
  have hk' : value (bytes 8 k'.toNat) = k'.toNat := value_bytes k'.toNat_lt
  rw [← UInt64.toNat_inj, ← hk, hbytes, hk']

theorem byteMaskCirc_append {key : MaskingKey} {offset : Nat} {k : UInt64}
    (hk : Prepared key offset k) (a b : Bytes) :
    byteMaskCirc (a ++ b) k =
      ((byteMaskCirc a k).1 ++ (byteMaskCirc b (byteMaskCirc a k).2).1,
        (byteMaskCirc b (byteMaskCirc a k).2).2) := by
  obtain ⟨ha, hka⟩ := byteMaskCirc_eq hk a
  obtain ⟨hb, hkb⟩ := byteMaskCirc_eq hka b
  obtain ⟨hab, hkab⟩ := byteMaskCirc_eq hk (a ++ b)
  have hkey : (byteMaskCirc (a ++ b) k).2 = (byteMaskCirc b (byteMaskCirc a k).2).2 := by
    rw [List.length_append, ← Nat.add_assoc] at hkab
    exact hkab.unique hkb
  apply Prod.ext
  · rw [hab, ha, hb, mask_append, keyStream_shift]
  · exact hkey

theorem overwrite_nil (buffer : Bytes) (start : Nat) : overwrite buffer start [] = buffer := by
  simp [overwrite]

theorem overwrite_overwrite {buffer a : Bytes} {start : Nat} (b : Bytes)
    (h : start ≤ buffer.length) :
    overwrite (overwrite buffer start a) (start + a.length) b = overwrite buffer start (a ++ b) := by
  have htake : (buffer.take start ++ a).length = start + a.length := by
    rw [List.length_append, List.length_take_of_le h]
  have hdrop : (buffer.take start ++ a ++ buffer.drop (start + a.length)).drop
      (start + a.length + b.length) = buffer.drop (start + (a ++ b).length) := by
    rw [← htake, ← List.drop_drop, List.drop_left, htake, List.drop_drop, List.length_append,
      Nat.add_assoc]
  rw [overwrite, overwrite, List.take_left' htake, hdrop, overwrite]
  simp only [List.append_assoc]

namespace Processor

variable {p p' : Processor} {m : MsgMetadata}

@[simp] theorem currentMsg_setCurrentMsg : (p.setCurrentMsg m).currentMsg = m := by
  unfold setCurrentMsg currentMsg
  cases p.current <;> rfl

/-- A message set over another one, with the count of bytes changed in between. -/
theorem setCurrentMsg_needing (n k : Nat) (m' : MsgMetadata) :
    { { p.setCurrentMsg m with bytesNeeded := n }.setCurrentMsg m' with bytesNeeded := k } =
      { p.setCurrentMsg m' with bytesNeeded := k } := by
  unfold setCurrentMsg
  cases p.current <;> rfl

@[simp] theorem currentMsg_needing (n : Nat) :
    { p.setCurrentMsg m with bytesNeeded := n }.currentMsg = m := by
  unfold setCurrentMsg currentMsg
  cases p.current <;> rfl

@[simp] theorem state_setCurrentMsg : (p.setCurrentMsg m).state = p.state := by
  unfold setCurrentMsg
  cases p.current <;> rfl

@[simp] theorem basicHeader_setCurrentMsg : (p.setCurrentMsg m).basicHeader = p.basicHeader := by
  unfold setCurrentMsg
  cases p.current <;> rfl

@[simp] theorem extendedHeader_setCurrentMsg :
    (p.setCurrentMsg m).extendedHeader = p.extendedHeader := by
  unfold setCurrentMsg
  cases p.current <;> rfl

/-! ### The processor as a reader -/

/-- Take in bytes of the present field, no more than it needs. -/
def absorb (p : Processor) (a : Bytes) : Except ProcessorError Processor :=
  match p.state with
  | .headerBasic => .ok (p.copyBasicHeaderBytes a).1
  | .headerExtended => .ok (p.copyExtendedHeaderBytes a).1
  | .extension => .ok p
  | .application => if a = [] then .ok p else p.processPayloadBytes a
  | .ready => .ok p
  | .fatalError => .ok p

/-- Act on a complete field. A complete message is given away at once. -/
def finish (cfg : Endpoint) (p : Processor) : Emission ProcessorError Message Processor :=
  match p.state with
  | .headerBasic => .ofExcept (p.completeBasicHeader cfg)
  | .headerExtended => .ofExcept (p.completeExtendedHeader cfg)
  | .extension => .pure { p with state := .application }
  | .application => .ofExcept p.completeFrame
  | .ready => (p.getMessage.1.toList, .ok p.getMessage.2)
  | .fatalError => .fail .general

def reader (cfg : Endpoint) : FieldReader UInt8 ProcessorError Message Processor where
  need := bytesNeeded
  absorb := absorb
  finish := finish cfg
  rank := fieldRank

/-- What holds of the processor in each of the states it can be in. -/
def FieldInv (p : Processor) : Prop :=
  match p.state with
  | .headerBasic => p.bytesNeeded ≤ 2
  | .headerExtended => p.cursor + p.bytesNeeded ≤ maxExtendedHeaderLength
  | .application =>
      (∃ msg, p.currentMsg.msg = some msg) ∧
        ∃ key offset, Prepared key offset p.currentMsg.preparedKey
  | .ready => p.bytesNeeded = 0
  | .extension => False
  | .fatalError => False

structure Inv (p : Processor) : Prop where
  extended : p.extendedHeader.bytes.length = maxExtendedHeaderLength
  field : p.FieldInv

theorem Inv.basic (hp : p.Inv) (hstate : p.state = .headerBasic) : p.bytesNeeded ≤ 2 := by
  have hfield := hp.field
  rwa [FieldInv, hstate] at hfield

theorem Inv.header (hp : p.Inv) (hstate : p.state = .headerExtended) :
    p.cursor + p.bytesNeeded ≤ maxExtendedHeaderLength := by
  have hfield := hp.field
  rwa [FieldInv, hstate] at hfield

theorem Inv.payload (hp : p.Inv) (hstate : p.state = .application) :
    (∃ msg, p.currentMsg.msg = some msg) ∧
      ∃ key offset, Prepared key offset p.currentMsg.preparedKey := by
  have hfield := hp.field
  rwa [FieldInv, hstate] at hfield

theorem Inv.ready (hp : p.Inv) (hstate : p.state = .ready) : p.bytesNeeded = 0 := by
  have hfield := hp.field
  rwa [FieldInv, hstate] at hfield

theorem Inv.not_extension (hp : p.Inv) : p.state ≠ .extension := by
  intro hstate
  have hfield := hp.field
  rwa [FieldInv, hstate] at hfield

theorem Inv.not_fatalError (hp : p.Inv) : p.state ≠ .fatalError := by
  intro hstate
  have hfield := hp.field
  rwa [FieldInv, hstate] at hfield

theorem getHeaderLen_le (h : BasicHeader) :
    h.getHeaderLen - basicHeaderLength ≤ maxExtendedHeaderLength := by
  have hoffset : h.getMaskingKeyOffset ≤ 8 := by
    unfold BasicHeader.getMaskingKeyOffset
    split
    · decide
    · split <;> decide
  unfold BasicHeader.getHeaderLen basicHeaderLength maxExtendedHeaderLength
  split <;> omega

theorem resetHeaders_inv (p : Processor) : p.resetHeaders.Inv :=
  ⟨rfl, Nat.le_refl 2⟩

/-! #### Taking in bytes -/

theorem absorb_nil (p : Processor) : p.absorb [] = .ok p := by
  unfold absorb
  split
  · rfl
  · simp [copyExtendedHeaderBytes, overwrite_nil]
  · rfl
  · rfl
  · rfl
  · rfl

theorem copyExtendedHeaderBytes_of_le {a : Bytes} (h : a.length ≤ p.bytesNeeded) :
    (p.copyExtendedHeaderBytes a).1 =
      { p with
        extendedHeader := ⟨overwrite p.extendedHeader.bytes p.cursor a⟩
        cursor := p.cursor + a.length
        bytesNeeded := p.bytesNeeded - a.length } := by
  simp only [copyExtendedHeaderBytes, Nat.min_eq_right h, List.take_length]

/-- The data of a piece of the payload, and the key for the next piece. -/
def unmask (p : Processor) (a : Bytes) : Bytes × UInt64 :=
  if p.basicHeader.getMasked then byteMaskCirc a p.currentMsg.preparedKey
  else (a, p.currentMsg.preparedKey)

/-- The message with more of its payload. -/
def extend (p : Processor) (msg : Message) (a : Bytes) : MsgMetadata where
  msg := some { msg with payload := msg.payload ++ (p.unmask a).1 }
  preparedKey := (p.unmask a).2
  validator :=
    if msg.opcode = .text then (p.currentMsg.validator.decode (p.unmask a).1).1
    else p.currentMsg.validator

theorem processPayloadBytes_eq {msg : Message} (hmsg : p.currentMsg.msg = some msg) (a : Bytes) :
    p.processPayloadBytes a =
      if msg.opcode = .text ∧ (p.currentMsg.validator.decode (p.unmask a).1).2 = false then
        .error .invalidUtf8
      else
        .ok { p.setCurrentMsg (p.extend msg a) with bytesNeeded := p.bytesNeeded - a.length } := by
  have hmasked : (if p.basicHeader.getMasked then byteMaskCirc a p.currentMsg.preparedKey
      else (a, p.currentMsg.preparedKey)) = p.unmask a := rfl
  simp only [processPayloadBytes, hmsg, hmasked, extend]
  by_cases htext : msg.opcode = .text
  · rcases hdecode : (p.currentMsg.validator.decode (p.unmask a).1).2 with _ | _
    · rw [if_pos htext, if_neg Bool.false_ne_true, if_pos ⟨htext, rfl⟩]
    · rw [if_pos htext, if_pos rfl, if_pos htext, if_neg fun h => Bool.noConfusion h.2]
  · rw [if_neg htext, if_neg htext, if_neg fun h => htext h.1]

theorem unmask_append (hkey : ∃ key offset, Prepared key offset p.currentMsg.preparedKey)
    {q : Processor} (a b : Bytes) (hbasic : q.basicHeader = p.basicHeader)
    (hnext : q.currentMsg.preparedKey = (p.unmask a).2) :
    p.unmask (a ++ b) = ((p.unmask a).1 ++ (q.unmask b).1, (q.unmask b).2) := by
  obtain ⟨key, offset, hkey⟩ := hkey
  simp only [unmask] at hnext ⊢
  rw [hbasic]
  split
  · next hmasked =>
      rw [if_pos hmasked] at hnext
      rw [byteMaskCirc_append hkey, hnext]
  · next hmasked =>
      rw [if_neg hmasked] at hnext
      rw [hnext]

theorem prepared_unmask (hkey : ∃ key offset, Prepared key offset p.currentMsg.preparedKey)
    (a : Bytes) : ∃ key offset, Prepared key offset (p.unmask a).2 := by
  obtain ⟨key, offset, hkey⟩ := hkey
  simp only [unmask]
  split
  · exact ⟨key, offset + a.length, (byteMaskCirc_eq hkey a).2⟩
  · exact ⟨key, offset, hkey⟩

/-- The payload may be taken in together or in two pieces: the key of the second piece
continues the first one, and so does the validator. -/
theorem processPayloadBytes_append {msg : Message} (hmsg : p.currentMsg.msg = some msg)
    (hkey : ∃ key offset, Prepared key offset p.currentMsg.preparedKey) (a b : Bytes) :
    p.processPayloadBytes (a ++ b) =
      p.processPayloadBytes a >>= fun q => q.processPayloadBytes b := by
  rw [processPayloadBytes_eq hmsg a, processPayloadBytes_eq hmsg (a ++ b)]
  let q : Processor := { p.setCurrentMsg (p.extend msg a) with bytesNeeded := p.bytesNeeded - a.length }
  have hcurrent : q.currentMsg = p.extend msg a := currentMsg_needing _
  have hmask : p.unmask (a ++ b) = ((p.unmask a).1 ++ (q.unmask b).1, (q.unmask b).2) :=
    unmask_append hkey a b basicHeader_setCurrentMsg (by rw [hcurrent, extend])
  have hmsg' : q.currentMsg.msg = some { msg with payload := msg.payload ++ (p.unmask a).1 } := by
    rw [hcurrent, extend]
  have hdecode := Validator.decode_append p.currentMsg.validator (p.unmask a).1 (q.unmask b).1
  by_cases hbad : msg.opcode = .text ∧ (p.currentMsg.validator.decode (p.unmask a).1).2 = false
  · have hbad' : (p.currentMsg.validator.decode (p.unmask (a ++ b)).1).2 = false := by
      rw [hmask, hdecode, if_neg (by rw [hbad.2]; exact Bool.false_ne_true), hbad.2]
    rw [if_pos hbad, if_pos ⟨hbad.1, hbad'⟩]
    rfl
  · have hvalid : msg.opcode = .text →
        p.currentMsg.validator.decode (p.unmask (a ++ b)).1 =
          q.currentMsg.validator.decode (q.unmask b).1 := by
      intro htext
      have hgood : (p.currentMsg.validator.decode (p.unmask a).1).2 = true := by
        simpa [htext] using hbad
      rw [hmask, hdecode, if_pos hgood, hcurrent, extend, if_pos htext]
    have hextend : p.extend msg (a ++ b) =
        q.extend { msg with payload := msg.payload ++ (p.unmask a).1 } b := by
      by_cases htext : msg.opcode = .text
      · rw [extend, if_pos htext, hvalid htext, hmask, extend, if_pos htext, List.append_assoc]
      · rw [extend, if_neg htext, hmask, extend, if_neg htext, hcurrent, extend, if_neg htext,
          List.append_assoc]
    have hresult : { p.setCurrentMsg (p.extend msg (a ++ b)) with
        bytesNeeded := p.bytesNeeded - (a ++ b).length } =
        { q.setCurrentMsg (q.extend { msg with payload := msg.payload ++ (p.unmask a).1 } b) with
          bytesNeeded := q.bytesNeeded - b.length } := by
      rw [setCurrentMsg_needing, hextend, List.length_append, Nat.sub_add_eq]
    rw [if_neg hbad]
    change _ = q.processPayloadBytes b
    rw [processPayloadBytes_eq hmsg' b, hresult]
    by_cases htext : msg.opcode = .text
    · simp only [htext, true_and, hvalid htext]
    · rw [if_neg fun h => htext h.1, if_neg fun h => htext h.1]

theorem copyBasicHeaderBytes_append {a b : Bytes} (hneed : p.bytesNeeded ≤ 2)
    (h : a.length + b.length ≤ p.bytesNeeded) :
    (p.copyBasicHeaderBytes (a ++ b)).1 =
      ((p.copyBasicHeaderBytes a).1.copyBasicHeaderBytes b).1 := by
  rcases a with _ | ⟨x, _ | ⟨y, a⟩⟩
  · rfl
  · rcases b with _ | ⟨y, _ | ⟨z, b⟩⟩
    · rfl
    · have htwo : p.bytesNeeded = 2 := Nat.le_antisymm hneed h
      simp [copyBasicHeaderBytes, htwo]
    · simp only [List.length_cons] at h
      omega
  · simp only [List.length_cons] at h
    obtain rfl : b = [] := List.eq_nil_of_length_eq_zero (by omega)
    rw [List.append_nil]
    rfl

theorem copyBasicHeaderBytes_need {a : Bytes} (hneed : p.bytesNeeded ≤ 2)
    (h : a.length ≤ p.bytesNeeded) :
    (p.copyBasicHeaderBytes a).1.bytesNeeded + a.length = p.bytesNeeded ∧
      (p.copyBasicHeaderBytes a).1.state = p.state ∧
      (p.copyBasicHeaderBytes a).1.extendedHeader = p.extendedHeader := by
  rcases a with _ | ⟨x, _ | ⟨y, a⟩⟩
  · exact ⟨rfl, rfl, rfl⟩
  · have hpos : p.bytesNeeded ≠ 0 := Nat.ne_zero_of_lt h
    by_cases htwo : p.bytesNeeded = 2
    · simp [copyBasicHeaderBytes, htwo]
    · have hone : p.bytesNeeded = 1 := by omega
      simp [copyBasicHeaderBytes, hone]
  · simp only [List.length_cons] at h
    have htwo : p.bytesNeeded = 2 := by omega
    obtain rfl : a = [] := List.eq_nil_of_length_eq_zero (by omega)
    simp [copyBasicHeaderBytes, htwo]

theorem absorb_append (hp : p.Inv) {a b : Bytes} (h : a.length + b.length ≤ p.bytesNeeded) :
    p.absorb (a ++ b) = p.absorb a >>= fun q => q.absorb b := by
  rcases eq_or_ne a [] with rfl | ha
  · rw [absorb_nil, List.nil_append]
    rfl
  rcases eq_or_ne b [] with rfl | hb
  · rw [List.append_nil]
    cases habsorb : p.absorb a with
    | error ec => rfl
    | ok q => exact (absorb_nil q).symm
  cases hstate : p.state with
  | headerBasic =>
      have hcopy := copyBasicHeaderBytes_append (hp.basic hstate) h
      have hstate' := (copyBasicHeaderBytes_need (hp.basic hstate)
        (Nat.le_trans (Nat.le_add_right _ _) h)).2.1
      simp only [absorb, hstate]
      change _ = absorb _ b
      simp only [absorb, hstate', hstate, hcopy]
  | headerExtended =>
      have hstart : p.cursor ≤ p.extendedHeader.bytes.length := by
        rw [hp.extended]
        exact Nat.le_trans (Nat.le_add_right _ _) (hp.header hstate)
      have ha := copyExtendedHeaderBytes_of_le (p := p) (Nat.le_trans (Nat.le_add_right _ _) h)
      have hab := copyExtendedHeaderBytes_of_le (p := p) (a := a ++ b)
        (by rw [List.length_append]; exact h)
      simp only [absorb, hstate]
      change _ = absorb _ b
      simp only [absorb, ha, hstate, hab]
      rw [copyExtendedHeaderBytes_of_le (Nat.le_sub_of_add_le' h)]
      simp only [overwrite_overwrite b hstart, List.length_append, Nat.sub_add_eq, Nat.add_assoc]
  | application =>
      obtain ⟨⟨msg, hmsg⟩, hkey⟩ := hp.payload hstate
      have happend := processPayloadBytes_append hmsg hkey a b
      have hne : a ++ b ≠ [] := fun hnil => ha (List.append_eq_nil_iff.mp hnil).1
      simp only [absorb, hstate, if_neg hne, if_neg ha, happend]
      cases hread : p.processPayloadBytes a with
      | error ec => rfl
      | ok q =>
          have hq : q.state = .application := by
            rw [processPayloadBytes_eq hmsg] at hread
            split at hread
            · cases hread
            · obtain rfl := Except.ok.inj hread
              exact state_setCurrentMsg.trans hstate
          change _ = q.absorb b
          simp only [absorb, hq, if_neg hb]
          rfl
  | extension => exact absurd hstate hp.not_extension
  | ready =>
      rw [hp.ready hstate] at h
      exact absurd (List.eq_nil_of_length_eq_zero (by omega)) ha
  | fatalError => exact absurd hstate hp.not_fatalError

/-- Bytes that are taken in are counted. -/
theorem absorb_ok (hp : p.Inv) {a : Bytes} (h : a.length ≤ p.bytesNeeded)
    (hok : p.absorb a = .ok p') : p'.Inv ∧ p'.bytesNeeded + a.length = p.bytesNeeded := by
  rcases eq_or_ne a [] with rfl | ha
  · rw [absorb_nil] at hok
    obtain rfl := Except.ok.inj hok
    exact ⟨hp, rfl⟩
  cases hstate : p.state with
  | headerBasic =>
      simp only [absorb, hstate] at hok
      obtain rfl := Except.ok.inj hok
      obtain ⟨hcount, hstate', hextended⟩ := copyBasicHeaderBytes_need (hp.basic hstate) h
      refine ⟨⟨hextended ▸ hp.extended, ?_⟩, hcount⟩
      rw [FieldInv, hstate', hstate]
      exact Nat.le_trans (Nat.le.intro hcount) (hp.basic hstate)
  | headerExtended =>
      simp only [absorb, hstate, copyExtendedHeaderBytes_of_le h] at hok
      obtain rfl := Except.ok.inj hok
      have hfit := hp.header hstate
      have hlen : p.cursor + a.length ≤ p.extendedHeader.bytes.length := by
        rw [hp.extended]
        omega
      refine ⟨⟨(length_overwrite hlen).trans hp.extended, ?_⟩, Nat.sub_add_cancel h⟩
      simp only [FieldInv]
      omega
  | application =>
      obtain ⟨⟨msg, hmsg⟩, hkey⟩ := hp.payload hstate
      simp only [absorb, hstate, if_neg ha, processPayloadBytes_eq hmsg] at hok
      split at hok
      · cases hok
      · obtain rfl := Except.ok.inj hok
        refine ⟨⟨?_, ?_⟩, Nat.sub_add_cancel h⟩
        · exact (congrArg (fun e => e.bytes.length) extendedHeader_setCurrentMsg).trans hp.extended
        · have hcurrent := currentMsg_needing (p := p) (m := p.extend msg a) (p.bytesNeeded - a.length)
          have hstate' := (state_setCurrentMsg (m := p.extend msg a)).trans hstate
          rw [FieldInv, hcurrent]
          simp only [hstate']
          exact ⟨⟨_, rfl⟩, prepared_unmask hkey a⟩
  | extension => exact absurd hstate hp.not_extension
  | ready =>
      rw [hp.ready hstate] at h
      exact absurd (List.eq_nil_of_length_eq_zero (Nat.le_zero.mp h)) ha
  | fatalError => exact absurd hstate hp.not_fatalError

/-! #### Acting on a complete field -/

/-- The message a frame belongs to is there, with a key for the frame. -/
theorem beginPayload_inv {cfg : Endpoint}
    (hextended : p.extendedHeader.bytes.length = maxExtendedHeaderLength)
    (hstate : p.state = .application) (h : p.beginPayload cfg = .ok p') : p'.Inv := by
  have hkey : ∀ key : MaskingKey, ∃ key' offset, Prepared key' offset (prepareMaskingKey key) := by
    intro key
    exact ⟨key, 0, prepared_prepareMaskingKey key⟩
  have hstate' := (beginPayload_state h).trans hstate
  simp only [beginPayload] at h
  split at h
  · obtain rfl := Except.ok.inj h
    refine ⟨hextended, ?_⟩
    rw [FieldInv, hstate']
    exact ⟨⟨_, rfl⟩, hkey _⟩
  · split at h
    · split at h
      · cases h
      · obtain rfl := Except.ok.inj h
        refine ⟨hextended, ?_⟩
        rw [FieldInv, hstate']
        exact ⟨⟨_, rfl⟩, hkey _⟩
    · next msg hmsg =>
        split at h
        · cases h
        · obtain rfl := Except.ok.inj h
          refine ⟨hextended, ?_⟩
          rw [FieldInv, hstate']
          exact ⟨⟨msg, hmsg⟩, hkey _⟩

theorem getMessage_resetHeaders (hstate : p.state = .ready) :
    ∃ q : Processor, p.getMessage.2 = q.resetHeaders := by
  simp only [getMessage, if_pos hstate]
  split
  · exact ⟨_, rfl⟩
  · split <;> exact ⟨_, rfl⟩

/-- Acting on a complete field leads to a later field or to the next frame. -/
theorem finish_ok {cfg : Endpoint} (hp : p.Inv) (hneed : p.bytesNeeded = 0)
    (h : (p.finish cfg).2 = .ok p') : p'.Inv ∧ p'.fieldRank < p.fieldRank := by
  cases hstate : p.state with
  | headerBasic =>
      simp only [finish, hstate, Emission.ofExcept] at h
      have hstate' := completeBasicHeader_state h
      obtain ⟨_, -, hp'⟩ := bind_eq_ok.mp h
      obtain rfl := Except.ok.inj hp'
      constructor
      · refine ⟨hp.extended, ?_⟩
        simp only [FieldInv, Nat.zero_add]
        exact getHeaderLen_le p.basicHeader
      · simp only [fieldRank, hstate, if_pos hneed]
        decide
  | headerExtended =>
      simp only [finish, hstate, Emission.ofExcept] at h
      have hstate' := completeExtendedHeader_state h
      obtain ⟨_, -, hp'⟩ := bind_eq_ok.mp h
      constructor
      · refine beginPayload_inv ?_ rfl hp'
        exact hp.extended
      · simp only [fieldRank, hstate, hstate']
        decide
  | application =>
      simp only [finish, hstate, Emission.ofExcept] at h
      constructor
      · simp only [completeFrame, finalizeMessage] at h
        repeat' split at h
        · cases h
        · obtain rfl := Except.ok.inj h
          exact ⟨hp.extended, hneed⟩
        · obtain rfl := Except.ok.inj h
          exact resetHeaders_inv p
      · have hrank := completeFrame_rank h
        simpa only [fieldRank, hstate] using hrank
  | ready =>
      simp only [finish, hstate] at h
      obtain rfl := Except.ok.inj h
      obtain ⟨q, hq⟩ := getMessage_resetHeaders hstate
      rw [hq]
      refine ⟨resetHeaders_inv q, ?_⟩
      simp only [fieldRank, hstate]
      exact Nat.zero_lt_one
  | extension => exact absurd hstate hp.not_extension
  | fatalError => exact absurd hstate hp.not_fatalError

theorem reader_lawful (cfg : Endpoint) : (reader cfg).Lawful Inv where
  absorb_nil := fun _ => absorb_nil _
  absorb_append := fun hp h => absorb_append hp h
  absorb_ok := fun hp h hok => absorb_ok hp h hok
  finish_ok := fun hp hneed h => finish_ok hp hneed h

/-! ### The loops of the source -/

section Loops

variable {cfg : Endpoint} {buf rest : Bytes}

/-- What an iteration of `consume` on `p` and `buf` has to give. -/
def Continues (cfg : Endpoint) (p : Processor) (buf : Bytes) :
    Except ProcessorError (Processor × Bytes) → Prop
  | .error ec => (reader cfg).read p buf = .fail ec
  | .ok (q, rest) => q.Inv ∧ (reader cfg).read p buf = (reader cfg).read q rest

theorem leaveField_continues {complete : Processor → Except ProcessorError Processor}
    (buf : Bytes) {n : Nat}
    (hp : p.Inv) (hcomplete : p.finish cfg = .ofExcept (complete p)) :
    Continues cfg p (buf.drop n) (leaveField complete buf (p, n)) := by
  simp only [leaveField]
  split
  · exact ⟨hp, rfl⟩
  · next hneed =>
      have hzero : (reader cfg).need p = 0 := Nat.eq_zero_of_not_pos hneed
      have hread := FieldReader.read_complete (reader_lawful cfg) hp hzero (buf.drop n)
      change _ = (p.finish cfg).andThen _ at hread
      rw [hcomplete] at hread
      cases hend : complete p with
      | error ec =>
          rw [hend] at hread
          exact hread
      | ok q =>
          rw [hend] at hread
          refine ⟨((reader_lawful cfg).finish_ok hp hzero ?_).1, hread⟩
          change (p.finish cfg).2 = _
          rw [hcomplete, hend]
          rfl

theorem copyBasicHeaderBytes_take (hneed : p.bytesNeeded ≤ 2) (buf : Bytes) :
    p.copyBasicHeaderBytes buf =
      ((p.copyBasicHeaderBytes (buf.take p.bytesNeeded)).1, min p.bytesNeeded buf.length) := by
  rcases buf with _ | ⟨x, _ | ⟨y, buf⟩⟩
  · simp [copyBasicHeaderBytes]
  all_goals
    obtain hzero | hone | htwo : p.bytesNeeded = 0 ∨ p.bytesNeeded = 1 ∨ p.bytesNeeded = 2 := by
      omega
    · simp [copyBasicHeaderBytes, hzero]
    · simp [copyBasicHeaderBytes, hone]
    · simp [copyBasicHeaderBytes, htwo]

theorem copyExtendedHeaderBytes_take (buf : Bytes) :
    p.copyExtendedHeaderBytes buf =
      ((p.copyExtendedHeaderBytes (buf.take p.bytesNeeded)).1, min p.bytesNeeded buf.length) := by
  have hmin : min p.bytesNeeded (min p.bytesNeeded buf.length) = min p.bytesNeeded buf.length :=
    Nat.min_eq_right (Nat.min_le_left _ _)
  have htake : buf.take (min p.bytesNeeded buf.length) = buf.take p.bytesNeeded :=
    List.take_eq_take_iff.mpr (by omega)
  have htake' : (buf.take p.bytesNeeded).take (min p.bytesNeeded buf.length) =
      buf.take p.bytesNeeded := by
    rw [List.take_take, Nat.min_eq_left (Nat.min_le_left _ _), htake]
  simp only [copyExtendedHeaderBytes, List.length_take, hmin, htake, htake']

theorem processPayloadBytes_state {a : Bytes} {q : Processor}
    (h : p.processPayloadBytes a = .ok q) : q.state = p.state := by
  cases hmsg : p.currentMsg.msg with
  | none =>
      simp only [processPayloadBytes, hmsg] at h
      cases h
  | some msg =>
      rw [processPayloadBytes_eq hmsg] at h
      split at h
      · cases h
      · obtain rfl := Except.ok.inj h
        exact state_setCurrentMsg

theorem absorb_state (hp : p.Inv) {a : Bytes} (h : a.length ≤ p.bytesNeeded) {q : Processor}
    (hok : p.absorb a = .ok q) : q.state = p.state := by
  unfold absorb at hok
  split at hok
  · next hstate =>
      obtain rfl := Except.ok.inj hok
      exact (copyBasicHeaderBytes_need (hp.basic hstate) h).2.1
  · obtain rfl := Except.ok.inj hok
    rfl
  · obtain rfl := Except.ok.inj hok
    rfl
  · split at hok
    · obtain rfl := Except.ok.inj hok
      rfl
    · exact processPayloadBytes_state hok
  · obtain rfl := Except.ok.inj hok
    rfl
  · obtain rfl := Except.ok.inj hok
    rfl

/-- An iteration takes in what the field needs, as far as it is there, and then either
goes on reading or acts on the complete field. -/
theorem consumeField_eq (cfg : Endpoint) (hp : p.Inv) (hready : p.state ≠ .ready) (buf : Bytes) :
    ∃ complete : Processor → Except ProcessorError Processor,
      (∀ q : Processor, q.state = p.state → q.finish cfg = .ofExcept (complete q)) ∧
      p.consumeField cfg buf = p.absorb (buf.take p.bytesNeeded) >>= fun q =>
        leaveField complete buf (q, min p.bytesNeeded buf.length) := by
  cases hstate : p.state with
  | headerBasic =>
      refine ⟨completeBasicHeader cfg, fun q hq => ?_, ?_⟩
      · simp only [finish, hq]
      · rw [consumeField, hstate]
        simp only
        rw [copyBasicHeaderBytes_take (hp.basic hstate)]
        simp only [absorb, hstate]
        rfl
  | headerExtended =>
      refine ⟨completeExtendedHeader cfg, fun q hq => ?_, ?_⟩
      · simp only [finish, hq]
      · rw [consumeField, hstate]
        simp only
        rw [copyExtendedHeaderBytes_take]
        simp only [absorb, hstate]
        rfl
  | application =>
      refine ⟨completeFrame, fun q hq => ?_, ?_⟩
      · simp only [finish, hq]
      · have htake : buf.take (min p.bytesNeeded buf.length) = buf.take p.bytesNeeded :=
          List.take_eq_take_iff.mpr (by omega)
        have hempty : buf.take p.bytesNeeded = [] ↔ ¬ min p.bytesNeeded buf.length > 0 := by
          rw [← List.length_eq_zero_iff, List.length_take]
          omega
        simp only [consumeField, absorb, hstate, htake, hempty, ite_not]
        split <;> rfl
  | extension => exact absurd hstate hp.not_extension
  | ready => exact absurd hstate hready
  | fatalError => exact absurd hstate hp.not_fatalError

theorem consumeField_continues (cfg : Endpoint) (hp : p.Inv) (hready : p.state ≠ .ready) (buf : Bytes) :
    Continues cfg p buf (p.consumeField cfg buf) := by
  have hlen : (buf.take p.bytesNeeded).length ≤ (reader cfg).need p := List.length_take_le _ _
  have hread := FieldReader.read_absorb (reader_lawful cfg) hp hlen (buf.drop p.bytesNeeded)
  have hdrop : buf.drop (min p.bytesNeeded buf.length) = buf.drop p.bytesNeeded := by
    rw [List.drop_eq_drop_iff]
    omega
  rw [List.take_append_drop] at hread
  change _ = (Emission.ofExcept (p.absorb (buf.take p.bytesNeeded))).andThen _ at hread
  obtain ⟨complete, hcomplete, hfield⟩ := consumeField_eq cfg hp hready buf
  rw [hfield]
  cases habsorb : p.absorb (buf.take p.bytesNeeded) with
  | error ec =>
      rw [habsorb] at hread
      exact hread
  | ok q =>
      rw [habsorb, Emission.ofExcept_ok, Emission.pure_andThen, ← hdrop] at hread
      have hq := ((reader_lawful cfg).absorb_ok hp hlen habsorb).1
      have hleave := leaveField_continues buf (n := min p.bytesNeeded buf.length) hq
        (hcomplete q (absorb_state hp hlen habsorb))
      change Continues cfg p buf (leaveField complete buf (q, min p.bytesNeeded buf.length))
      cases hend : leaveField complete buf (q, min p.bytesNeeded buf.length) with
      | error ec =>
          rw [hend] at hleave
          exact hread.trans hleave
      | ok next =>
          rw [hend] at hleave
          exact ⟨hleave.1, hread.trans hleave.2⟩

theorem consumeField_rest (hp : p.Inv) (hready : p.state ≠ .ready) {q : Processor}
    (h : p.consumeField cfg buf = .ok (q, rest)) : rest = buf.drop p.bytesNeeded := by
  obtain ⟨complete, -, hfield⟩ := consumeField_eq cfg hp hready buf
  rw [hfield] at h
  obtain ⟨mid, -, hleave⟩ := bind_eq_ok.mp h
  rw [(leaveField_ok hleave).1, List.drop_eq_drop_iff]
  simp only
  omega

/-- Where `consume` returns: a message is ready, or the bytes are used up. -/
theorem stops_of_not_wantsField (hp : p.Inv) (h : ¬ p.wantsField buf = true) :
    p.state = .ready ∨ buf = [] ∧ 0 < p.bytesNeeded := by
  simp only [wantsField, Bool.and_eq_true, Bool.or_eq_true, decide_eq_true_eq, not_and,
    not_or] at h
  by_cases hready : p.state = .ready
  · exact Or.inl hready
  · obtain ⟨hbuf, hneed⟩ := h ⟨hready, hp.not_fatalError⟩
    exact Or.inr ⟨not_not.mp hbuf, Nat.pos_of_ne_zero hneed⟩

theorem consume_continues (cfg : Endpoint) (hp : p.Inv) (buf : Bytes) :
    match p.consume cfg buf with
    | .error ec => (reader cfg).read p buf = .fail ec
    | .ok (q, rest) => q.Inv ∧ (reader cfg).read p buf = (reader cfg).read q rest ∧
        (q.state = .ready ∨ rest = [] ∧ 0 < q.bytesNeeded) := by
  let Inv' : Processor × Bytes → Prop := fun s =>
    s.1.Inv ∧ (reader cfg).read p buf = (reader cfg).read s.1 s.2
  refine Loop.iterate_invariant (consumeBody_decreases cfg) Inv' (fun r =>
    match r with
    | .error ec => (reader cfg).read p buf = .fail ec
    | .ok (q, rest) => q.Inv ∧ (reader cfg).read p buf = (reader cfg).read q rest ∧
        (q.state = .ready ∨ rest = [] ∧ 0 < q.bytesNeeded)) ?_ ?_ ⟨hp, rfl⟩
  · rintro ⟨q, rest⟩ s' ⟨hq, hread⟩ hbody
    simp only [consumeBody] at hbody
    split at hbody
    · next hwants =>
        have hready : q.state ≠ .ready := by
          simp only [wantsField, Bool.and_eq_true, decide_eq_true_eq] at hwants
          exact hwants.1.1
        have hfield := consumeField_continues cfg hq hready rest
        split at hbody
        · next next hnext =>
            obtain rfl := Sum.inl.inj hbody
            rw [hnext] at hfield
            exact ⟨hfield.1, hread.trans hfield.2⟩
        · cases hbody
    · cases hbody
  · rintro ⟨q, rest⟩ r ⟨hq, hread⟩ hbody
    simp only [consumeBody] at hbody
    split at hbody
    · next hwants =>
        have hready : q.state ≠ .ready := by
          simp only [wantsField, Bool.and_eq_true, decide_eq_true_eq] at hwants
          exact hwants.1.1
        have hfield := consumeField_continues cfg hq hready rest
        split at hbody
        · cases hbody
        · next ec hnext =>
            obtain rfl := Sum.inr.inj hbody
            rw [hnext] at hfield
            exact hread.trans hfield
    · next hwants =>
        obtain rfl := Sum.inr.inj hbody
        exact ⟨hq, hread, stops_of_not_wantsField hq hwants⟩

/-- `consume` uses up at least one byte if there are any and the processor waits. -/
theorem consume_length (hp : p.Inv) (hneed : 0 < p.bytesNeeded) (hbuf : buf ≠ [])
    {q : Processor} (h : p.consume cfg buf = .ok (q, rest)) : rest.length < buf.length := by
  have hready : p.state ≠ .ready := fun hready => absurd (hp.ready hready) (Nat.ne_of_gt hneed)
  have hpos : 0 < buf.length := List.length_pos_iff.mpr hbuf
  -- either the loop has not begun, or it has used up a byte
  let Inv' : Processor × Bytes → Prop := fun s =>
    s.1.Inv ∧ (s = (p, buf) ∨ s.2.length < buf.length)
  have hpost := Loop.iterate_invariant (consumeBody_decreases cfg) Inv'
    (fun r => ∀ q rest, r = .ok (q, rest) → rest.length < buf.length) ?_ ?_
    (s := (p, buf)) ⟨hp, Or.inl rfl⟩
  · exact hpost q rest h
  · rintro ⟨mid, left⟩ ⟨next, rest'⟩ ⟨hmid, hshort⟩ hbody
    simp only [consumeBody] at hbody
    split at hbody
    · next hwants =>
        have hready' : mid.state ≠ .ready := by
          simp only [wantsField, Bool.and_eq_true, decide_eq_true_eq] at hwants
          exact hwants.1.1
        have hfield := consumeField_continues cfg hmid hready' left
        split at hbody
        · next next hnext =>
            obtain rfl := Sum.inl.inj hbody
            rw [hnext] at hfield
            refine ⟨hfield.1, Or.inr ?_⟩
            rw [consumeField_rest hmid hready' hnext, List.length_drop]
            rcases hshort with hstart | hshort
            · obtain ⟨rfl, rfl⟩ := Prod.mk.inj hstart
              exact Nat.sub_lt hpos hneed
            · exact Nat.lt_of_le_of_lt (Nat.sub_le _ _) hshort
        · cases hbody
    · cases hbody
  · rintro ⟨mid, left⟩ r ⟨hmid, hshort⟩ hbody q' rest' rfl
    simp only [consumeBody] at hbody
    split at hbody
    · split at hbody
      · cases hbody
      · cases hbody
    · next hwants =>
        obtain ⟨rfl, rfl⟩ := Prod.mk.inj (Except.ok.inj (Sum.inr.inj hbody))
        rcases hshort with hstart | hshort
        · obtain ⟨rfl, rfl⟩ := Prod.mk.inj hstart
          rcases stops_of_not_wantsField hmid hwants with h | h
          · exact absurd h hready
          · exact absurd h.1 hbuf
        · exact hshort

end Loops

end Processor

/-! ### The bytes of one read -/

section ReadLoop

variable {τ : Type} {cfg : Endpoint}

open Processor

/-- The loop of `handle_read_frame` gives away what the reader reads, in order. -/
theorem run_readBody (dispatch : Message → τ → τ) : ∀ {fuel : Nat} {p : Processor} {buf : Bytes}
    {t : τ}, p.Inv → 0 < p.bytesNeeded → buf.length < fuel →
      Loop.run (readBody cfg dispatch) fuel (p, buf, t) =
        some (((reader cfg).read p buf).1.foldl (fun t msg => dispatch msg t) t,
          ((reader cfg).read p buf).2) := by
  intro fuel
  induction fuel with
  | zero => intro p buf t _ _ hfuel; exact absurd hfuel (Nat.not_lt_zero _)
  | succ fuel ih =>
      intro p buf t hp hneed hfuel
      simp only [Loop.run, readBody]
      by_cases hbuf : buf = []
      · have hread : (reader cfg).read p [] = .pure p := FieldReader.settle_waiting hneed
        rw [if_pos hbuf, hbuf, hread]
        rfl
      · have hconsume := consume_continues cfg hp buf
        rw [if_neg hbuf]
        cases hend : p.consume cfg buf with
        | error ec =>
            rw [hend] at hconsume
            rw [hconsume]
            rfl
        | ok next =>
            obtain ⟨q, rest⟩ := next
            rw [hend] at hconsume
            obtain ⟨hq, hread, hstops⟩ := hconsume
            have hless : rest.length < fuel :=
              Nat.lt_of_lt_of_le (consume_length hp hneed hbuf hend) (Nat.lt_succ_iff.mp hfuel)
            by_cases hready : q.state = .ready
            · -- the message is given away, and the rest is read from the next frame on
              obtain ⟨r, hr⟩ := getMessage_resetHeaders hready
              have hfinish := FieldReader.read_complete (reader_lawful cfg) hq (hq.ready hready) rest
              change _ = (q.finish cfg).andThen _ at hfinish
              simp only [finish, hready] at hfinish
              simp only [if_pos hready]
              rw [hread, hfinish]
              rcases hmessage : q.getMessage with ⟨msg, next⟩
              obtain rfl : next = r.resetHeaders := by rw [← hr, hmessage]
              cases msg with
              | none =>
                  simp only [ih (resetHeaders_inv r) Nat.zero_lt_two hless]
                  rfl
              | some msg =>
                  simp only [ih (resetHeaders_inv r) Nat.zero_lt_two hless]
                  rfl
            · obtain ⟨rfl, hneed'⟩ := hstops.resolve_left hready
              simp only [if_neg hready]
              rw [ih hq hneed' hless, hread]

theorem readFrames_eq (dispatch : Message → τ → τ) {p : Processor} (hp : p.Inv)
    (hneed : 0 < p.bytesNeeded) (buf : Bytes) (t : τ) :
    readFrames cfg dispatch p buf t =
      some (((reader cfg).read p buf).1.foldl (fun t msg => dispatch msg t) t,
        ((reader cfg).read p buf).2) :=
  run_readBody dispatch hp hneed (Nat.lt_succ_self _)

theorem handleReads_eq (dispatch : Message → τ → τ) {pieces : List Bytes} :
    ∀ {p : Processor} {t : τ}, p.Inv → 0 < p.bytesNeeded →
      handleReads cfg dispatch p t pieces =
        some (((reader cfg).read p pieces.flatten).1.foldl (fun t msg => dispatch msg t) t,
          ((reader cfg).read p pieces.flatten).2) := by
  induction pieces with
  | nil =>
      intro p t _ hneed
      have hread : (reader cfg).read p [] = .pure p := FieldReader.settle_waiting hneed
      rw [List.flatten_nil, hread]
      rfl
  | cons piece pieces ih =>
      intro p t hp hneed
      have hread := FieldReader.read_append (reader_lawful cfg) (b := pieces.flatten) hp (a := piece)
      rw [handleReads, readFrames_eq dispatch hp hneed, List.flatten_cons, hread, Option.bind_some]
      cases hend : ((reader cfg).read p piece).2 with
      | error ec =>
          simp only [Emission.andThen, hend]
      | ok q =>
          obtain ⟨hq, hneed'⟩ := FieldReader.read_ok (reader_lawful cfg) hp hend
          simp only [Emission.andThen, hend, ih hq hneed', List.foldl_append]

end ReadLoop

end ExchangeClient.Websocketpp
