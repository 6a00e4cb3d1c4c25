import ExchangeClient.Lib.Loop
import ExchangeClient.Lib.Emission
import ExchangeClient.Websocketpp.Masking
import ExchangeClient.Websocketpp.Utf8Validator

/-!
# The frame processor

`processors/hybi13.hpp`, which turns messages into frames and the bytes of a
connection back into messages, without the compression extension, which the
program's configuration leaves out. Reading is a loop over the fields of a frame
that stops in the middle of any of them when the bytes run out.
-/

namespace ExchangeClient.Websocketpp

/-- The processor errors that the client's side of a connection can meet. -/
inductive ProcessorError where
  | general
  | protocolViolation
  | messageTooBig
  | invalidPayload
  | invalidOpcode
  | controlTooBig
  | invalidRsvBit
  | fragmentedControl
  | invalidContinuation
  | maskingRequired
  | maskingForbidden
  | nonMinimalEncoding
  | invalidUtf8
  | invalidHttpStatus
  | missingRequiredHeader
  | reservedCloseCode
  | invalidCloseCode
  | reasonRequiresCode
  | extensionParseError
deriving DecidableEq, Repr

/-- A message buffer. -/
structure Message where
  opcode : Opcode
  header : Bytes
  payload : Bytes
  prepared : Bool
  fin : Bool
  terminal : Bool
deriving DecidableEq, Repr

/-- `get_message`: a buffer with its defaults. -/
def getMessage (op : Opcode) : Message where
  opcode := op
  header := []
  payload := []
  prepared := false
  fin := true
  terminal := false

/-- The settings of a processor: on which side of the connection it is, and
`max_message_size`. -/
structure Endpoint where
  server : Bool
  maxMessageSize : Nat
deriving Repr

/-- The `config::max_message_size` of the client. -/
def Endpoint.client : Endpoint := ⟨false, 32000000⟩

/-! ### Reading: the state of the processor -/

/-- `hybi13::state`. -/
inductive FieldState where
  | headerBasic
  | headerExtended
  | extension
  | application
  | ready
  | fatalError
deriving DecidableEq, Repr

/-- `msg_metadata`. -/
structure MsgMetadata where
  msg : Option Message
  preparedKey : UInt64
  validator : Validator
deriving Repr

def MsgMetadata.empty : MsgMetadata := ⟨none, 0, Validator.fresh⟩

def MsgMetadata.make (msg : Message) (key : MaskingKey) : MsgMetadata :=
  ⟨some msg, prepareMaskingKey key, Validator.fresh⟩

/-- What `m_current_msg` points to. -/
inductive Current where
  | data
  | control
deriving DecidableEq, Repr

/-- The members of `hybi13` that reading changes. -/
structure Processor where
  basicHeader : BasicHeader
  bytesNeeded : Nat
  cursor : Nat
  dataMsg : MsgMetadata
  controlMsg : MsgMetadata
  current : Current
  extendedHeader : ExtendedHeader
  state : FieldState
deriving Repr

namespace Processor

def currentMsg (p : Processor) : MsgMetadata :=
  match p.current with
  | .data => p.dataMsg
  | .control => p.controlMsg

def setCurrentMsg (p : Processor) (m : MsgMetadata) : Processor :=
  match p.current with
  | .data => { p with dataMsg := m }
  | .control => { p with controlMsg := m }

def resetHeaders (p : Processor) : Processor :=
  { p with
    state := .headerBasic
    bytesNeeded := basicHeaderLength
    basicHeader := ⟨0x00, 0x00⟩
    extendedHeader := ExtendedHeader.zero }

/-- The constructor of `hybi13`. `m_current_msg` is set before it is used. -/
def init : Processor :=
  resetHeaders
    { basicHeader := ⟨0x00, 0x00⟩
      bytesNeeded := 0
      cursor := 0
      dataMsg := .empty
      controlMsg := .empty
      current := .data
      extendedHeader := .zero
      state := .headerBasic }

/-- `copy_basic_header_bytes`: the processor after reading, and the number of bytes
read. -/
def copyBasicHeaderBytes (p : Processor) (buf : Bytes) : Processor × Nat :=
  match buf with
  | [] => (p, 0)
  | first :: rest =>
      if p.bytesNeeded = 0 then (p, 0)
      else
        match rest with
        | second :: _ =>
            if p.bytesNeeded = 2 then
              ({ p with basicHeader := ⟨first, second⟩, bytesNeeded := p.bytesNeeded - 2 }, 2)
            else
              ({ p with
                  basicHeader := { p.basicHeader with b1 := first }
                  bytesNeeded := p.bytesNeeded - 1 }, 1)
        | [] =>
            if p.bytesNeeded = 2 then
              ({ p with
                  basicHeader := { p.basicHeader with b0 := first }
                  bytesNeeded := p.bytesNeeded - 1 }, 1)
            else
              ({ p with
                  basicHeader := { p.basicHeader with b1 := first }
                  bytesNeeded := p.bytesNeeded - 1 }, 1)

/-- `copy_extended_header_bytes`. -/
def copyExtendedHeaderBytes (p : Processor) (buf : Bytes) : Processor × Nat :=
  let bytesToRead := min p.bytesNeeded buf.length
  ({ p with
      extendedHeader := ⟨overwrite p.extendedHeader.bytes p.cursor (buf.take bytesToRead)⟩
      cursor := p.cursor + bytesToRead
      bytesNeeded := p.bytesNeeded - bytesToRead },
    bytesToRead)

/-- `validate_incoming_basic_header`. -/
def validateIncomingBasicHeader (h : BasicHeader) (isServer newMsg : Bool) :
    Except ProcessorError Unit :=
  let op := h.getOpcode
  if op.isControl && h.getBasicSize.toUInt64 > payloadSizeBasic then .error .controlTooBig
  else if h.getRsv1 then .error .invalidRsvBit
  else if h.getRsv2 || h.getRsv3 then .error .invalidRsvBit
  else if op.reserved then .error .invalidOpcode
  else if op.invalid then .error .invalidOpcode
  else if op.isControl && !h.getFin then .error .fragmentedControl
  else if newMsg && op = .continuation then .error .invalidContinuation
  else if !newMsg && !op.isControl && op ≠ .continuation then .error .invalidContinuation
  else if isServer && !h.getMasked then .error .maskingRequired
  else if !isServer && h.getMasked then .error .maskingForbidden
  else .ok ()

/-- `validate_incoming_extended_header`. -/
def validateIncomingExtendedHeader (h : BasicHeader) (e : ExtendedHeader) :
    Except ProcessorError Unit :=
  if h.getBasicSize = payloadSizeCode16bit ∧ getPayloadSize h e ≤ payloadSizeBasic then
    .error .nonMinimalEncoding
  else if h.getBasicSize = payloadSizeCode64bit ∧ getPayloadSize h e ≤ payloadSizeExtended then
    .error .nonMinimalEncoding
  else .ok ()

/-- The part of `consume` that sets up the message a frame belongs to, with the header
complete and `bytesNeeded` the size of the payload. -/
def beginPayload (cfg : Endpoint) (p : Processor) : Except ProcessorError Processor :=
  let op := p.basicHeader.getOpcode
  let key := getMaskingKey p.basicHeader p.extendedHeader
  if op.isControl then
    .ok { p with controlMsg := .make (getMessage op) key, current := .control }
  else
    match p.dataMsg.msg with
    | none =>
        if p.bytesNeeded > cfg.maxMessageSize then .error .messageTooBig
        else .ok { p with dataMsg := .make (getMessage op) key, current := .data }
    | some msg =>
        -- the sum is computed in a machine word
        if (msg.payload.length + p.bytesNeeded) % 2 ^ 64 > cfg.maxMessageSize then
          .error .messageTooBig
        else
          .ok { p with
            dataMsg := { p.dataMsg with preparedKey := prepareMaskingKey key }
            current := .data }

/-- `process_payload_bytes`. Without an error all bytes are processed. -/
def processPayloadBytes (p : Processor) (buf : Bytes) : Except ProcessorError Processor :=
  let m := p.currentMsg
  let unmasked :=
    if p.basicHeader.getMasked then byteMaskCirc buf m.preparedKey else (buf, m.preparedKey)
  match m.msg with
  | none => .error .general
  | some msg =>
      let m := { m with
        msg := some { msg with payload := msg.payload ++ unmasked.1 }
        preparedKey := unmasked.2 }
      if msg.opcode = .text then
        let decoded := m.validator.decode unmasked.1
        if decoded.2 then
          .ok { p.setCurrentMsg { m with validator := decoded.1 } with
            bytesNeeded := p.bytesNeeded - buf.length }
        else .error .invalidUtf8
      else .ok { p.setCurrentMsg m with bytesNeeded := p.bytesNeeded - buf.length }

/-- `finalize_message`. -/
def finalizeMessage (p : Processor) : Except ProcessorError Processor :=
  if p.basicHeader.getOpcode = .text ∧ p.currentMsg.validator.complete = false then
    .error .invalidUtf8
  else .ok { p with state := .ready }

/-! ### The loop of `consume`

An error ends the reading for good: nobody looks at the processor again. -/

/-- What `consume` does with a complete basic header. -/
def completeBasicHeader (cfg : Endpoint) (p : Processor) : Except ProcessorError Processor := do
  validateIncomingBasicHeader p.basicHeader cfg.server p.dataMsg.msg.isNone
  return { p with
    state := .headerExtended
    cursor := 0
    bytesNeeded := p.basicHeader.getHeaderLen - basicHeaderLength }

/-- What `consume` does with a complete extended header. -/
def completeExtendedHeader (cfg : Endpoint) (p : Processor) : Except ProcessorError Processor := do
  validateIncomingExtendedHeader p.basicHeader p.extendedHeader
  beginPayload cfg { p with
    state := .application
    bytesNeeded := (getPayloadSize p.basicHeader p.extendedHeader).toNat }

/-- What `consume` does at the end of a frame. -/
def completeFrame (p : Processor) : Except ProcessorError Processor :=
  if p.basicHeader.getFin then p.finalizeMessage else .ok p.resetHeaders

/-- The end of an iteration that has read `n` bytes: the field continues, or it is
complete. -/
def leaveField (complete : Processor → Except ProcessorError Processor) (buf : Bytes) :
    Processor × Nat → Except ProcessorError (Processor × Bytes)
  | (p, n) =>
      if p.bytesNeeded > 0 then .ok (p, buf.drop n)
      else do
        let p ← complete p
        return (p, buf.drop n)

/-- One iteration of the loop on the bytes that are left. -/
def consumeField (cfg : Endpoint) (p : Processor) (buf : Bytes) :
    Except ProcessorError (Processor × Bytes) :=
  match p.state with
  | .headerBasic => leaveField (completeBasicHeader cfg) buf (p.copyBasicHeaderBytes buf)
  | .headerExtended => leaveField (completeExtendedHeader cfg) buf (p.copyExtendedHeaderBytes buf)
  | .extension => .ok ({ p with state := .application }, buf)
  | .application => do
      let bytesToProcess := min p.bytesNeeded buf.length
      let p ← if bytesToProcess > 0 then p.processPayloadBytes (buf.take bytesToProcess) else .ok p
      leaveField completeFrame buf (p, bytesToProcess)
  | .ready => .error .general
  | .fatalError => .error .general

/-- The condition of the loop. -/
def wantsField (p : Processor) (buf : Bytes) : Bool :=
  p.state ≠ .ready && p.state ≠ .fatalError && (buf ≠ [] || p.bytesNeeded = 0)

def consumeBody (cfg : Endpoint) :
    Processor × Bytes → (Processor × Bytes) ⊕ Except ProcessorError (Processor × Bytes)
  | (p, buf) =>
      if p.wantsField buf then
        match p.consumeField cfg buf with
        | .ok next => .inl next
        | .error ec => .inr (.error ec)
      else .inr (.ok (p, buf))

/-- How many fields can still be passed without reading a byte. -/
def fieldRank (p : Processor) : Nat :=
  match p.state with
  | .headerBasic => if p.bytesNeeded = 0 then 5 else 0
  | .headerExtended => 4
  | .extension => 3
  | .application => 2
  | .ready => 1
  | .fatalError => 1

def consumeRank : Processor × Bytes → Nat
  | (p, buf) => buf.length * 6 + p.fieldRank

theorem fieldRank_le (p : Processor) : p.fieldRank ≤ 5 := by
  unfold fieldRank
  split <;> (try split) <;> decide

/-- An iteration that reads a byte may go on to any field. -/
theorem consumeRank_drop (p p' : Processor) {buf : Bytes} {n : Nat} (hn : 0 < n)
    (hbuf : buf ≠ []) : consumeRank (p', buf.drop n) < consumeRank (p, buf) := by
  have hpos : 0 < buf.length := List.length_pos_iff.mpr hbuf
  have hrank := fieldRank_le p'
  simp only [consumeRank, List.length_drop]
  omega

/-- An iteration that reads nothing goes on to a later field. -/
theorem consumeRank_field {p p' : Processor} {buf : Bytes} {n : Nat}
    (h : p'.fieldRank < p.fieldRank) : consumeRank (p', buf.drop n) < consumeRank (p, buf) := by
  simp only [consumeRank, List.length_drop]
  omega

theorem completeBasicHeader_state {cfg : Endpoint} {p p' : Processor}
    (h : p.completeBasicHeader cfg = .ok p') : p'.state = .headerExtended := by
  obtain ⟨_, -, hp'⟩ := bind_eq_ok.mp h
  obtain rfl := Except.ok.inj hp'
  rfl

theorem beginPayload_state {cfg : Endpoint} {p p' : Processor} (h : p.beginPayload cfg = .ok p') :
    p'.state = p.state := by
  simp only [beginPayload] at h
  repeat' split at h
  all_goals cases h
  all_goals rfl

theorem completeExtendedHeader_state {cfg : Endpoint} {p p' : Processor}
    (h : p.completeExtendedHeader cfg = .ok p') : p'.state = .application := by
  obtain ⟨_, -, hp'⟩ := bind_eq_ok.mp h
  exact beginPayload_state hp'

theorem completeFrame_rank {p p' : Processor} (h : p.completeFrame = .ok p') :
    p'.fieldRank < 2 := by
  simp only [completeFrame, finalizeMessage] at h
  repeat' split at h
  all_goals cases h
  · exact Nat.lt_succ_self 1
  · exact Nat.zero_lt_two

theorem copyBasicHeaderBytes_reads (p : Processor) {buf : Bytes} (hbuf : buf ≠ [])
    (hneed : p.bytesNeeded ≠ 0) : 0 < (p.copyBasicHeaderBytes buf).2 := by
  obtain ⟨first, rest, rfl⟩ := List.exists_cons_of_ne_nil hbuf
  simp only [copyBasicHeaderBytes, if_neg hneed]
  split <;> split
  · exact Nat.zero_lt_two
  all_goals exact Nat.zero_lt_one

theorem leaveField_ok {complete : Processor → Except ProcessorError Processor} {buf rest : Bytes}
    {read : Processor × Nat} {p : Processor} (h : leaveField complete buf read = .ok (p, rest)) :
    rest = buf.drop read.2 ∧
      (0 < read.1.bytesNeeded ∧ p = read.1 ∨ read.1.bytesNeeded = 0 ∧ complete read.1 = .ok p) := by
  simp only [leaveField] at h
  split at h
  · next hneed =>
      obtain ⟨rfl, rfl⟩ := Prod.mk.inj (Except.ok.inj h)
      exact ⟨rfl, Or.inl ⟨hneed, rfl⟩⟩
  · next hneed =>
      obtain ⟨q, hcomplete, hq⟩ := bind_eq_ok.mp h
      obtain ⟨rfl, rfl⟩ := Prod.mk.inj (Except.ok.inj hq)
      exact ⟨rfl, Or.inr ⟨Nat.eq_zero_of_not_pos hneed, hcomplete⟩⟩

/-- A field that needs bytes reads some of them, and one that does not is passed. -/
theorem consumeField_decreases {cfg : Endpoint} {p p' : Processor} {buf rest : Bytes}
    (hwants : p.wantsField buf = true) (h : p.consumeField cfg buf = .ok (p', rest)) :
    consumeRank (p', rest) < consumeRank (p, buf) := by
  have hbuf : p.bytesNeeded ≠ 0 → buf ≠ [] := by
    intro hneed
    simp only [wantsField, Bool.and_eq_true, Bool.or_eq_true, decide_eq_true_eq] at hwants
    exact hwants.2.resolve_right hneed
  unfold consumeField at h
  cases hstate : p.state with
  | headerBasic =>
      simp only [hstate] at h
      obtain ⟨rfl, hend⟩ := leaveField_ok h
      by_cases hneed : p.bytesNeeded = 0
      · have hcopy : p.copyBasicHeaderBytes buf = (p, 0) := by
          cases buf with
          | nil => rfl
          | cons b rest => simp only [copyBasicHeaderBytes, if_pos hneed]
        rw [hcopy] at hend ⊢
        rcases hend with ⟨hpos, -⟩ | ⟨-, hcomplete⟩
        · exact absurd hneed (Nat.ne_of_gt hpos)
        · apply consumeRank_field
          simp only [fieldRank, hstate, completeBasicHeader_state hcomplete, if_pos hneed]
          decide
      · exact consumeRank_drop _ _ (copyBasicHeaderBytes_reads p (hbuf hneed) hneed) (hbuf hneed)
  | headerExtended =>
      simp only [hstate] at h
      obtain ⟨rfl, hend⟩ := leaveField_ok h
      rcases Nat.eq_zero_or_pos (p.copyExtendedHeaderBytes buf).2 with hzero | hpos
      · have hneed : p.bytesNeeded = 0 := by
          by_contra hneed
          have hpos : 0 < buf.length := List.length_pos_iff.mpr (hbuf hneed)
          simp only [copyExtendedHeaderBytes] at hzero
          omega
        rcases hend with ⟨hpos, -⟩ | ⟨-, hcomplete⟩
        · simp only [copyExtendedHeaderBytes] at hpos
          omega
        · apply consumeRank_field
          simp only [fieldRank, hstate, completeExtendedHeader_state hcomplete]
          decide
      · apply consumeRank_drop _ _ hpos
        intro hnil
        rw [hnil] at hpos
        simp [copyExtendedHeaderBytes] at hpos
  | extension =>
      simp only [hstate] at h
      obtain ⟨rfl, rfl⟩ := Prod.mk.inj (Except.ok.inj h)
      simp only [consumeRank, fieldRank, hstate]
      omega
  | application =>
      simp only [hstate] at h
      split at h
      · next hpos =>
          obtain ⟨q, -, hleave⟩ := bind_eq_ok.mp h
          obtain ⟨rfl, -⟩ := leaveField_ok hleave
          apply consumeRank_drop _ _ hpos
          intro hnil
          simp [hnil] at hpos
      · next hzero =>
          obtain ⟨q, hq, hleave⟩ := bind_eq_ok.mp h
          obtain rfl := Except.ok.inj hq
          obtain ⟨rfl, hend⟩ := leaveField_ok hleave
          have hneed : p.bytesNeeded = 0 := by
            by_contra hneed
            have hpos : 0 < buf.length := List.length_pos_iff.mpr (hbuf hneed)
            omega
          rcases hend with ⟨hpos, -⟩ | ⟨-, hcomplete⟩
          · exact absurd hneed (Nat.ne_of_gt hpos)
          · apply consumeRank_field
            simp only [fieldRank, hstate]
            exact completeFrame_rank hcomplete
  | ready => simp only [hstate] at h; cases h
  | fatalError => simp only [hstate] at h; cases h

theorem consumeBody_decreases (cfg : Endpoint) :
    Loop.Decreases (consumeBody cfg) consumeRank := by
  intro s s' h
  obtain ⟨p, buf⟩ := s
  simp only [consumeBody] at h
  split at h
  · next hwants =>
      split at h
      · next next hfield =>
          obtain rfl := Sum.inl.inj h
          exact consumeField_decreases hwants hfield
      · cases h
  · cases h

/-- `consume`: the processor and the bytes it leaves. -/
def consume (cfg : Endpoint) (p : Processor) (buf : Bytes) :
    Except ProcessorError (Processor × Bytes) :=
  Loop.iterate (consumeBody cfg) consumeRank (consumeBody_decreases cfg) (p, buf)

/-- `get_message`. -/
def getMessage (p : Processor) : Option Message × Processor :=
  if p.state = .ready then
    match p.currentMsg.msg with
    | none => (none, p.resetHeaders)
    | some ret =>
        let p := p.setCurrentMsg { p.currentMsg with msg := none }
        if ret.opcode.isControl then
          (some ret, resetHeaders { p with controlMsg := { p.controlMsg with msg := none } })
        else (some ret, resetHeaders { p with dataMsg := { p.dataMsg with msg := none } })
  else (none, p)

end Processor

/-! ### The loop over the bytes of one read

`handle_read_frame` calls `consume` until the bytes are used up, and gives each message
away as soon as it is complete. -/

section ReadLoop

variable {τ : Type}

def readBody (cfg : Endpoint) (dispatch : Message → τ → τ) :
    Processor × Bytes × τ → (Processor × Bytes × τ) ⊕ (τ × Except ProcessorError Processor)
  | (p, buf, t) =>
      if buf = [] then .inr (t, .ok p)
      else
        match p.consume cfg buf with
        | .error ec => .inr (t, .error ec)
        | .ok (p, rest) =>
            if p.state = .ready then
              match p.getMessage with
              | (some msg, p) => .inl (p, rest, dispatch msg t)
              | (none, p) => .inl (p, rest, t)
            else .inl (p, rest, t)

/-- The loop, run until it returns; every iteration uses up at least one byte. -/
def readFrames (cfg : Endpoint) (dispatch : Message → τ → τ) (p : Processor) (buf : Bytes) (t : τ) :
    Option (τ × Except ProcessorError Processor) :=
  Loop.run (readBody cfg dispatch) (buf.length + 1) (p, buf, t)

/-- One read after the other. An error ends the reading for good. -/
def handleReads (cfg : Endpoint) (dispatch : Message → τ → τ) (p : Processor) (t : τ) :
    List Bytes → Option (τ × Except ProcessorError Processor)
  | [] => some (t, .ok p)
  | buf :: reads =>
      (readFrames cfg dispatch p buf t).bind fun
        | (t, .ok p) => handleReads cfg dispatch p t reads
        | (t, .error ec) => some (t, .error ec)

end ReadLoop

end ExchangeClient.Websocketpp
