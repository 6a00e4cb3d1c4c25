import ExchangeClient.Websocketpp.Close
import ExchangeClient.Websocketpp.Streams

/-!
# Preparing frames

The functions of the processor that turn a message or a control payload into the header
and the payload of a frame. What is prepared on one side is read on the other side.
-/

namespace ExchangeClient.Websocketpp

open Keystream

/-! ### The functions -/

namespace Processor

/-- `prepare_data_frame`, with the masking key that the generator returns. -/
def prepareDataFrame (cfg : Endpoint) (key : MaskingKey) (msg out : Message) :
    Except ProcessorError Message :=
  let op := msg.opcode
  if op.isControl then .error .invalidOpcode
  else if op = .text ∧ Validator.validate msg.payload = false then .error .invalidPayload
  else
    let i := msg.payload
    let masked := !cfg.server
    let fin := msg.fin
    let o := if masked then byteMask i key 0 else i
    let h := BasicHeader.make op (UInt64.ofNat o.length) fin masked false false false
    let e :=
      if masked then ExtendedHeader.makeMasked (UInt64.ofNat o.length) key
      else ExtendedHeader.make (UInt64.ofNat o.length)
    .ok { out with header := prepareHeader h e, payload := o, prepared := true, opcode := op }

/-- `prepare_control`. -/
def prepareControl (cfg : Endpoint) (key : MaskingKey) (op : Opcode) (payload : Bytes)
    (out : Message) : Except ProcessorError Message :=
  if op.isControl = false then .error .invalidOpcode
  else if payload.length > 125 then .error .controlTooBig
  else
    let masked := !cfg.server
    let h := BasicHeader.make op (UInt64.ofNat payload.length) true masked false false false
    let e :=
      if masked then ExtendedHeader.makeMasked (UInt64.ofNat payload.length) key
      else ExtendedHeader.make (UInt64.ofNat payload.length)
    let o := if masked then byteMask payload key 0 else payload
    .ok { out with header := prepareHeader h e, payload := o, opcode := op, prepared := true }

def preparePing (cfg : Endpoint) (key : MaskingKey) (payload : Bytes) (out : Message) :
    Except ProcessorError Message :=
  prepareControl cfg key .ping payload out

def preparePong (cfg : Endpoint) (key : MaskingKey) (payload : Bytes) (out : Message) :
    Except ProcessorError Message :=
  prepareControl cfg key .pong payload out

/-- The payload of a close frame. -/
def closePayload (code : Close.Status) (reason : Bytes) : Bytes :=
  if code ≠ Close.noStatus then LittleEndian.bytes 2 (ntohs code).toNat ++ reason else []

/-- `prepare_close`. -/
def prepareClose (cfg : Endpoint) (key : MaskingKey) (code : Close.Status) (reason : Bytes)
    (out : Message) : Except ProcessorError Message :=
  if Close.reserved code then .error .reservedCloseCode
  else if Close.invalid code ∧ code ≠ Close.noStatus then .error .invalidCloseCode
  else if code = Close.noStatus ∧ reason.length > 0 then .error .reasonRequiresCode
  else if reason.length > 125 - 2 then .error .controlTooBig
  else prepareControl cfg key .close (closePayload code reason) out

end Processor

/-! ### Prepared messages are frames -/

/-- The bytes of a prepared message. -/
def Message.wire (msg : Message) : Bytes := msg.header ++ msg.payload

/-- The frame that an endpoint makes. -/
def Endpoint.frame (cfg : Endpoint) (key : MaskingKey) (fin : Bool) (op : Opcode) (payload : Bytes)
    (h : payload.length < 2 ^ 64) : Frame :=
  ⟨fin, op, if cfg.server then none else some key, payload, h⟩

namespace Processor

variable {cfg : Endpoint} {key : MaskingKey} {fin : Bool} {op : Opcode} {payload : Bytes}
  {msg out out' : Message}

/-- The header and the payload that both functions make are those of the frame. -/
theorem prepared_frame (cfg : Endpoint) (key : MaskingKey) (fin : Bool) (op : Opcode)
    (h : payload.length < 2 ^ 64) :
    let size := UInt64.ofNat payload.length
    prepareHeader (BasicHeader.make op size fin (!cfg.server) false false false)
        (if !cfg.server then ExtendedHeader.makeMasked size key else ExtendedHeader.make size) =
      (cfg.frame key fin op payload h).header ∧
    (if !cfg.server then byteMask payload key 0 else payload) =
      (cfg.frame key fin op payload h).masked := by
  cases hserver : cfg.server with
  | true =>
      simp only [Bool.not_true, Bool.false_eq_true, if_false, prepareHeader_make]
      simp [Frame.header, Frame.basicHeader, Frame.size, Frame.keyField, Frame.masked,
        Endpoint.frame, hserver]
  | false =>
      simp only [Bool.not_false, if_true, prepareHeader_makeMasked, byteMask_eq]
      simp [Frame.header, Frame.basicHeader, Frame.size, Frame.keyField, Frame.masked,
        Endpoint.frame, hserver]

theorem prepareDataFrame_ok (h : prepareDataFrame cfg key msg out = .ok out')
    (hlen : msg.payload.length < 2 ^ 64) :
    msg.opcode.isControl = false ∧ (msg.opcode = .text → Utf8.Valid msg.payload) ∧
      out'.wire = (cfg.frame key msg.fin msg.opcode msg.payload hlen).wire := by
  have hmask : ∀ data : Bytes, (byteMask data key 0).length = data.length := by
    intro data
    rw [byteMask_eq, length_mask]
  simp only [prepareDataFrame] at h
  split at h
  · cases h
  · next hcontrol =>
      split at h
      · cases h
      · next htext =>
          obtain rfl := Except.ok.inj h
          refine ⟨Bool.eq_false_of_not_eq_true hcontrol, ?_, ?_⟩
          · intro hop
            rw [← Validator.validate_iff]
            simpa [hop] using htext
          · have hsize : (if (!cfg.server) = true then byteMask msg.payload key 0
                else msg.payload).length = msg.payload.length := by
              split
              · exact hmask msg.payload
              · rfl
            obtain ⟨hheader, hpayload⟩ := prepared_frame cfg key msg.fin msg.opcode hlen
            rw [Message.wire, hsize, Frame.wire, ← hheader, ← hpayload]

theorem prepareControl_ok (h : prepareControl cfg key op payload out = .ok out') :
    op.isControl = true ∧ ∃ hlen : payload.length ≤ 125, out'.wire =
      (cfg.frame key true op payload (Nat.lt_of_le_of_lt hlen (by decide))).wire := by
  simp only [prepareControl] at h
  split at h
  · cases h
  · next hcontrol =>
      split at h
      · cases h
      · next hshort =>
          obtain rfl := Except.ok.inj h
          have hlen : payload.length ≤ 125 := Nat.not_lt.mp hshort
          refine ⟨by simpa using hcontrol, hlen, ?_⟩
          obtain ⟨hheader, hpayload⟩ := prepared_frame cfg key true op
            (Nat.lt_of_le_of_lt hlen (by decide : 125 < 2 ^ 64))
          rw [Message.wire, Frame.wire, ← hheader, ← hpayload]

theorem prepareControl_isOk (cfg : Endpoint) (key : MaskingKey) (hcontrol : op.isControl = true)
    (hshort : payload.length ≤ 125) (out : Message) :
    ∃ out', prepareControl cfg key op payload out = .ok out' := by
  rw [prepareControl, if_neg (by rw [hcontrol]; exact Bool.noConfusion),
    if_neg (Nat.not_lt.mpr hshort)]
  exact ⟨_, rfl⟩

/-! ### Close frames -/

/-- What `prepare_close` takes. -/
def Closable (code : Close.Status) (reason : Bytes) : Prop :=
  if code = Close.noStatus then reason = []
  else Close.reserved code = false ∧ Close.invalid code = false ∧ reason.length ≤ 123

instance (code : Close.Status) (reason : Bytes) : Decidable (Closable code reason) :=
  inferInstanceAs (Decidable (if code = Close.noStatus then reason = [] else _ ∧ _ ∧ _))

theorem length_closePayload {code : Close.Status} {reason : Bytes} (h : Closable code reason) :
    (closePayload code reason).length ≤ 125 := by
  rw [closePayload]
  by_cases hcode : code = Close.noStatus
  · rw [if_neg (not_not.mpr hcode)]
    exact Nat.zero_le _
  · rw [Closable, if_neg hcode] at h
    rw [if_pos hcode, List.length_append, LittleEndian.length_bytes]
    omega

theorem prepareClose_isOk_iff (code : Close.Status) (reason : Bytes) :
    (∃ out', prepareClose cfg key code reason out = .ok out') ↔ Closable code reason := by
  have hnoStatus : Close.reserved Close.noStatus = false := by decide
  rw [prepareClose, Closable]
  by_cases hcode : code = Close.noStatus
  · subst hcode
    rw [if_neg (by rw [hnoStatus]; exact Bool.false_ne_true), if_neg fun h => h.2 rfl, if_pos rfl]
    by_cases hreason : reason = []
    · subst hreason
      rw [if_neg fun h => absurd h.2 (Nat.lt_irrefl 0), if_neg (by decide)]
      simp only [iff_true]
      exact prepareControl_isOk cfg key rfl (by decide) out
    · rw [if_pos ⟨rfl, List.length_pos_iff.mpr hreason⟩]
      simp only [hreason, iff_false]
      rintro ⟨out', h⟩
      cases h
  · rw [if_neg hcode]
    by_cases hreserved : Close.reserved code = true
    · rw [if_pos hreserved]
      simp only [hreserved, Bool.true_eq_false, false_and, iff_false]
      rintro ⟨out', h⟩
      cases h
    · have hreserved' : Close.reserved code = false := Bool.eq_false_of_not_eq_true hreserved
      rw [if_neg hreserved, hreserved']
      by_cases hinvalid : Close.invalid code = true
      · rw [if_pos ⟨hinvalid, hcode⟩]
        simp only [hinvalid, Bool.true_eq_false, false_and, and_false, iff_false]
        rintro ⟨out', h⟩
        cases h
      · rw [if_neg fun h => hinvalid h.1, Bool.eq_false_of_not_eq_true hinvalid,
          if_neg fun h => hcode h.1]
        simp only [true_and]
        by_cases hlong : reason.length > 125 - 2
        · rw [if_pos hlong]
          simp only [Nat.not_le.mpr hlong, iff_false]
          rintro ⟨out', h⟩
          cases h
        · have hshort : reason.length ≤ 123 := Nat.not_lt.mp hlong
          have hclosable : Closable code reason := by
            rw [Closable, if_neg hcode]
            exact ⟨hreserved', Bool.eq_false_of_not_eq_true hinvalid, hshort⟩
          rw [if_neg hlong]
          simp only [hshort, iff_true]
          exact prepareControl_isOk cfg key rfl (length_closePayload hclosable) out

theorem prepareControl_of_prepareClose {code : Close.Status} {reason : Bytes}
    (h : prepareClose cfg key code reason out = .ok out') :
    prepareControl cfg key .close (closePayload code reason) out = .ok out' := by
  rw [prepareClose] at h
  split at h
  · cases h
  · split at h
    · cases h
    · split at h
      · cases h
      · split at h
        · cases h
        · exact h

/-- The code in network byte order. -/
theorem exists_code_bytes (code : Close.Status) : ∃ c0 c1,
    LittleEndian.bytes 2 (ntohs code).toNat = [c0, c1] ∧
      ntohs (UInt16.ofNat (LittleEndian.value [c0, c1])) = code := by
  obtain ⟨c0, c1, hbytes⟩ : ∃ c0 c1, LittleEndian.bytes 2 code.toNat = [c1, c0] := ⟨_, _, rfl⟩
  refine ⟨c0, c1, ?_, ?_⟩
  · rw [ntohs, bytes_uint16_value (by simp), hbytes]
    rfl
  · rw [← UInt16.toNat_inj, toNat_ntohs_value rfl]
    change LittleEndian.value [c1, c0] = _
    rw [← hbytes, LittleEndian.value_bytes code.toNat_lt]

theorem extractCode_closePayload {code : Close.Status} {reason : Bytes} (h : Closable code reason) :
    Close.extractCode (closePayload code reason) = (code, none) ∧
      (Close.extractReason (closePayload code reason)).1 = reason := by
  by_cases hcode : code = Close.noStatus
  · rw [Closable, if_pos hcode] at h
    rw [closePayload, if_neg (not_not.mpr hcode), h, hcode]
    exact ⟨rfl, rfl⟩
  · rw [Closable, if_neg hcode] at h
    obtain ⟨hreserved, hinvalid, -⟩ := h
    obtain ⟨c0, c1, hbytes, hvalue⟩ := exists_code_bytes code
    rw [closePayload, if_pos hcode, hbytes]
    constructor
    · simp only [List.cons_append, List.nil_append, Close.extractCode, hvalue, hreserved, hinvalid,
        Bool.false_eq_true, if_false]
    · cases reason with
      | nil => rfl
      | cons b reason => simp [Close.extractReason]

/-- A payload in which a code is found is the payload of that code and its reason. -/
theorem closePayload_extract {payload : Bytes} (hshort : payload.length ≤ 125)
    (hcode : (Close.extractCode payload).2 = none) :
    Closable (Close.extractCode payload).1 (Close.extractReason payload).1 ∧
      closePayload (Close.extractCode payload).1 (Close.extractReason payload).1 = payload := by
  match payload with
  | [] => exact ⟨by decide, rfl⟩
  | [_] => cases hcode
  | c0 :: c1 :: reason =>
      obtain ⟨hreserved, hinvalid⟩ :=
        Close.valid_of_extractCode (by rw [hcode]; exact Bool.false_ne_true)
      have hstatus : (Close.extractCode (c0 :: c1 :: reason)).1 ≠ Close.noStatus := by
        intro heq
        rw [heq] at hinvalid
        exact absurd hinvalid (by decide)
      have hreason : (Close.extractReason (c0 :: c1 :: reason)).1 = reason := by
        cases reason with
        | nil => rfl
        | cons b reason => simp [Close.extractReason]
      rw [hreason]
      constructor
      · rw [Closable, if_neg hstatus]
        refine ⟨hreserved, hinvalid, ?_⟩
        simp only [List.length_cons] at hshort
        omega
      · obtain ⟨d0, d1, hbytes, hvalue⟩ :=
          exists_code_bytes (Close.extractCode (c0 :: c1 :: reason)).1
        have hnumber : LittleEndian.value [d1, d0] = LittleEndian.value [c1, c0] := by
          have hcodes := congrArg UInt16.toNat hvalue
          rw [Close.extractCode, toNat_ntohs_value rfl, toNat_ntohs_value rfl] at hcodes
          exact hcodes
        have hsame : [d1, d0] = [c1, c0] :=
          calc [d1, d0] = LittleEndian.bytes 2 (LittleEndian.value [d1, d0]) :=
                (LittleEndian.bytes_value [d1, d0]).symm
            _ = LittleEndian.bytes 2 (LittleEndian.value [c1, c0]) := by rw [hnumber]
            _ = [c1, c0] := LittleEndian.bytes_value [c1, c0]
        obtain ⟨rfl, hlast⟩ := List.cons.inj hsame
        obtain ⟨rfl, -⟩ := List.cons.inj hlast
        rw [closePayload, if_pos hstatus, hbytes]
        rfl

end Processor

/-! ### What one side prepares the other side reads -/

namespace Receiver

variable {cfg : Endpoint} {f : Frame}

theorem accept_control {r : Receiver} (hcontrol : f.opcode.isControl = true)
    (hreserved : f.opcode.reserved = false) (hkey : f.key.isSome = cfg.server) (hfin : f.fin = true)
    (hlen : f.payload.length ≤ 125) :
    r.accept cfg f = ([message f.opcode f.payload], .ok r) := by
  have hcontinuation : f.opcode ≠ .continuation := by
    intro hop
    rw [hop] at hcontrol
    cases hcontrol
  have hadmits : r.admits cfg f = .ok () := by
    have hshort : ¬ 125 < f.payload.length := Nat.not_lt.mpr hlen
    cases hf : f.key <;> rw [hf] at hkey <;>
      simp [admits, hcontrol, hreserved, hfin, hshort, hcontinuation, hf, ← hkey]
  rw [accept, hadmits]
  simp only [dif_pos hcontrol]

/-- A data message in one frame. -/
theorem accept_whole (hdata : f.opcode.isControl = false) (hreserved : f.opcode.reserved = false)
    (hcontinuation : f.opcode ≠ .continuation) (hkey : f.key.isSome = cfg.server)
    (hfin : f.fin = true) (hlimit : f.payload.length ≤ cfg.maxMessageSize)
    (htext : f.opcode = .text → Utf8.Valid f.payload) :
    accept cfg none f = ([message f.opcode f.payload], .ok none) := by
  have hfits : tooBig cfg none f = false := decide_eq_false (Nat.not_lt.mpr hlimit)
  have hadmits : admits cfg none f = .ok () := by
    cases hf : f.key <;> rw [hf] at hkey <;>
      simp [admits, hdata, hreserved, hcontinuation, hf, ← hkey]
  have hbegins : f.opcode = .text → Begins f.payload := fun hop => begins_of_valid (htext hop)
  have hvalid : ¬ (f.opcode = .text ∧ ¬ Utf8.Valid f.payload) := fun h => h.2 (htext h.1)
  rw [accept, hadmits]
  simp only [hdata, Bool.false_eq_true, dite_false, acceptData, hfits, beginning, Option.getD_none,
    List.nil_append, hfin, if_true, if_false]
  rw [dif_pos hbegins]
  exact if_neg hvalid

end Receiver

/-- What an application asks an endpoint to send. -/
inductive Outgoing where
  | data (msg : Message)
  | ping (payload : Bytes)
  | pong (payload : Bytes)
  | close (code : Close.Status) (reason : Bytes)
deriving DecidableEq

namespace Outgoing

/-- The prepared message, in a fresh buffer. -/
def prepare (cfg : Endpoint) (key : MaskingKey) : Outgoing → Except ProcessorError Message
  | data msg => Processor.prepareDataFrame cfg key msg (getMessage .text)
  | ping payload => Processor.preparePing cfg key payload (getMessage .text)
  | pong payload => Processor.preparePong cfg key payload (getMessage .text)
  | close code reason => Processor.prepareClose cfg key code reason (getMessage .text)

def opcode : Outgoing → Opcode
  | data msg => msg.opcode
  | ping _ => .ping
  | pong _ => .pong
  | close _ _ => .close

def payload : Outgoing → Bytes
  | data msg => msg.payload
  | ping payload => payload
  | pong payload => payload
  | close code reason => Processor.closePayload code reason

/-- A message that is sent in one frame, and no longer than the other side takes. -/
def Whole (peer : Endpoint) : Outgoing → Prop
  | data msg => msg.fin = true ∧ msg.opcode.reserved = false ∧ msg.opcode ≠ .continuation ∧
      msg.payload.length ≤ peer.maxMessageSize
  | _ => True

variable {cfg peer : Endpoint} {key : MaskingKey} {o : Outgoing} {out : Message}

/-- A prepared message is a frame that the other side takes at once. -/
theorem prepare_ok (hside : peer.server = !cfg.server) (hsize : peer.maxMessageSize < 2 ^ 64)
    (hwhole : o.Whole peer) (h : o.prepare cfg key = .ok out) :
    ∃ f : Frame, out.wire = f.wire ∧
      Receiver.accept peer none f = ([Receiver.message o.opcode o.payload], .ok none) := by
  have hkey : ∀ (fin : Bool) (op : Opcode) (payload : Bytes) (hlen : payload.length < 2 ^ 64),
      (cfg.frame key fin op payload hlen).key.isSome = peer.server := by
    intro fin op payload hlen
    rw [hside, Endpoint.frame]
    cases cfg.server <;> rfl
  have hcontrol : ∀ (op : Opcode) (payload : Bytes), op.reserved = false →
      Processor.prepareControl cfg key op payload (getMessage .text) = .ok out →
      ∃ f : Frame, out.wire = f.wire ∧
        Receiver.accept peer none f = ([Receiver.message op payload], .ok none) := by
    intro op payload hreserved h
    obtain ⟨hop, hlen, hwire⟩ := Processor.prepareControl_ok h
    exact ⟨_, hwire, Receiver.accept_control hop hreserved (hkey ..) rfl hlen⟩
  cases o with
  | data msg =>
      obtain ⟨hfin, hreserved, hcontinuation, hlimit⟩ := hwhole
      have hlen : msg.payload.length < 2 ^ 64 := Nat.lt_of_le_of_lt hlimit hsize
      obtain ⟨hdata, htext, hwire⟩ := Processor.prepareDataFrame_ok h hlen
      exact ⟨_, hwire,
        Receiver.accept_whole hdata hreserved hcontinuation (hkey ..) hfin hlimit htext⟩
  | ping payload => exact hcontrol .ping payload rfl h
  | pong payload => exact hcontrol .pong payload rfl h
  | close code reason =>
      exact hcontrol .close (Processor.closePayload code reason) rfl
        (Processor.prepareControl_of_prepareClose h)

/-- The messages prepared one after the other, each with the masking key of its own. -/
def prepareAll (cfg : Endpoint) : List (MaskingKey × Outgoing) → Except ProcessorError (List Message)
  | [] => .ok []
  | (key, o) :: sent => do
      let out ← o.prepare cfg key
      let outs ← prepareAll cfg sent
      return out :: outs

variable {sent : List (MaskingKey × Outgoing)} {outs : List Message}

theorem prepareAll_concat (hall : prepareAll cfg sent = .ok outs) (hout : o.prepare cfg key = .ok out) :
    prepareAll cfg (sent ++ [(key, o)]) = .ok (outs ++ [out]) := by
  induction sent generalizing outs with
  | nil =>
      obtain rfl := Except.ok.inj hall
      rw [List.nil_append, prepareAll, hout]
      rfl
  | cons s sent ih =>
      obtain ⟨first, hfirst, hmore⟩ := bind_eq_ok.mp hall
      obtain ⟨rest, hrest, hsame⟩ := bind_eq_ok.mp hmore
      obtain rfl := Except.ok.inj hsame
      rw [List.cons_append, prepareAll, hfirst]
      exact bind_eq_ok.mpr ⟨first, rfl, bind_eq_ok.mpr ⟨_, ih hrest, rfl⟩⟩

theorem length_prepareAll (h : prepareAll cfg sent = .ok outs) : outs.length = sent.length := by
  induction sent generalizing outs with
  | nil =>
      obtain rfl := Except.ok.inj h
      rfl
  | cons s sent ih =>
      obtain ⟨out, -, hmore⟩ := bind_eq_ok.mp h
      obtain ⟨outs', houts, hsame⟩ := bind_eq_ok.mp hmore
      obtain rfl := Except.ok.inj hsame
      rw [List.length_cons, List.length_cons, ih houts]

theorem prepareAll_ok (hside : peer.server = !cfg.server) (hsize : peer.maxMessageSize < 2 ^ 64)
    (hwhole : ∀ s ∈ sent, s.2.Whole peer) (h : prepareAll cfg sent = .ok outs) :
    ∃ frames : List Frame, outs.flatMap Message.wire = frames.flatMap Frame.wire ∧
      Receiver.acceptAll peer none frames =
        (sent.map fun s => Receiver.message s.2.opcode s.2.payload, .ok none) := by
  induction sent generalizing outs with
  | nil =>
      obtain rfl := Except.ok.inj h
      exact ⟨[], rfl, rfl⟩
  | cons s sent ih =>
      obtain ⟨out, hout, h⟩ := bind_eq_ok.mp h
      obtain ⟨outs', houts, h⟩ := bind_eq_ok.mp h
      obtain rfl := Except.ok.inj h
      obtain ⟨f, hwire, haccept⟩ :=
        prepare_ok hside hsize (hwhole s List.mem_cons_self) hout
      obtain ⟨frames, hwires, haccepts⟩ :=
        ih (fun s hs => hwhole s (List.mem_cons_of_mem _ hs)) houts
      refine ⟨f :: frames, ?_, ?_⟩
      · rw [List.flatMap_cons, List.flatMap_cons, hwire, hwires]
      · rw [Receiver.acceptAll, haccept, Emission.andThen]
        simp only [haccepts, List.map_cons, List.singleton_append]

end Outgoing

/-- What one side prepares the other side reads, message by message and however the bytes
are cut into reads. -/
theorem handleReads_prepared {τ : Type} {cfg peer : Endpoint}
    {sent : List (MaskingKey × Outgoing)} {outs : List Message} {reads : List Bytes}
    (hside : peer.server = !cfg.server) (hsize : peer.maxMessageSize < 2 ^ 64)
    (hwhole : ∀ s ∈ sent, s.2.Whole peer) (hprepare : Outgoing.prepareAll cfg sent = .ok outs)
    (hreads : reads.flatten = outs.flatMap Message.wire) (dispatch : Message → τ → τ) (t : τ) :
    ∃ p, handleReads peer dispatch .init t reads =
      some ((sent.map fun s => Receiver.message s.2.opcode s.2.payload).foldl
        (fun t msg => dispatch msg t) t, .ok p) ∧ p.BetweenFrames := by
  obtain ⟨frames, hwires, haccept⟩ := Outgoing.prepareAll_ok hside hsize hwhole hprepare
  obtain ⟨p, hp, hread⟩ := handleReads_taken (hreads.trans hwires) haccept dispatch t
  exact ⟨p, hread, hp.betweenFrames⟩

/-- A text and a ping, from the client to a server, byte by byte. -/
theorem handleReads_prepared_example :
    let sent : List (MaskingKey × Outgoing) :=
      [(⟨0x78563412⟩, .data (Receiver.message .text (ascii "hi"))), (⟨7⟩, .ping (ascii "a"))]
    ∃ outs p, Outgoing.prepareAll .client sent = .ok outs ∧
      handleReads ⟨true, 1000⟩ (fun msg log => log ++ [msg]) .init []
          ((outs.flatMap Message.wire).map fun b => [b]) =
        some ([Receiver.message .text (ascii "hi"), Receiver.message .ping (ascii "a")], .ok p) ∧
      p.BetweenFrames := by
  intro sent
  obtain ⟨outs, hprepare⟩ : ∃ outs, Outgoing.prepareAll .client sent = .ok outs := ⟨_, rfl⟩
  have hwhole : ∀ s ∈ sent, s.2.Whole ⟨true, 1000⟩ := by
    simp only [sent, List.forall_mem_cons, Outgoing.Whole]
    exact ⟨by decide, trivial, by simp⟩
  have hreads : ((outs.flatMap Message.wire).map fun b => [b]).flatten =
      outs.flatMap Message.wire := by
    rw [← List.flatMap_def, List.flatMap_singleton']
  have hside : (⟨true, 1000⟩ : Endpoint).server = !Endpoint.client.server := rfl
  obtain ⟨p, hread⟩ := handleReads_prepared hside (by decide) hwhole hprepare hreads
    (fun msg log => log ++ [msg]) []
  exact ⟨outs, p, hprepare, hread⟩

end ExchangeClient.Websocketpp
