import ExchangeClient.Websocketpp.Streams

/-!
# What a peer can make the processor hold

Whatever bytes arrive: what is given away and what is kept between two reads. A text
begins a sequence of characters, a control message is short, and a data message stays
within the limit of the endpoint as long as the lengths of its frames do not add up to
more than a machine word can count.
-/

namespace ExchangeClient.Websocketpp

open Processor

variable {cfg : Endpoint} {p p' : Processor} {n : Nat}

/-- A size within the limit, or one that the sum in a machine word has missed. -/
def Allowed (cfg : Endpoint) (n : Nat) : Prop := n ≤ cfg.maxMessageSize ∨ 2 ^ 64 ≤ n

theorem allowed_of_mod (h : ¬ n % 2 ^ 64 > cfg.maxMessageSize) : Allowed cfg n := by
  rcases Nat.lt_or_ge n (2 ^ 64) with hlt | hge
  · rw [Nat.mod_eq_of_lt hlt] at h
    exact Or.inl (Nat.not_lt.mp h)
  · exact Or.inr hge

/-! ### Messages in progress -/

/-- A data message of which `n` bytes are still to come in the present frame. -/
def DataKept (cfg : Endpoint) (m : MsgMetadata) (n : Nat) : Prop :=
  ∀ msg, m.msg = some msg → msg.opcode.isControl = false ∧ Allowed cfg (msg.payload.length + n) ∧
    (msg.opcode = .text → m.validator = (Validator.fresh.decode msg.payload).1 ∧
      (Validator.fresh.decode msg.payload).2 = true)

/-- A control message of which `n` bytes are still to come. -/
def ControlKept (m : MsgMetadata) (n : Nat) : Prop :=
  ∀ msg, m.msg = some msg → msg.opcode.isControl = true ∧ msg.payload.length + n ≤ 125

/-- The messages that a processor keeps. -/
def Kept (cfg : Endpoint) (p : Processor) : Prop :=
  match p.state with
  | .headerBasic => DataKept cfg p.dataMsg 0
  | .headerExtended =>
      DataKept cfg p.dataMsg 0 ∧
        (p.basicHeader.getOpcode.isControl = true → p.basicHeader.getBasicSize.toNat ≤ 125)
  | _ =>
      match p.current with
      | .data => DataKept cfg p.dataMsg p.bytesNeeded
      | .control => DataKept cfg p.dataMsg 0 ∧ ControlKept p.controlMsg p.bytesNeeded

/-- What is given away. -/
def Delivered (cfg : Endpoint) (msg : Message) : Prop :=
  if msg.opcode.isControl then msg.payload.length ≤ 125
  else Allowed cfg msg.payload.length ∧ (msg.opcode = .text → Begins msg.payload)

theorem length_unmask (p : Processor) (a : Bytes) : (p.unmask a).1.length = a.length := by
  unfold unmask
  split
  · exact List.length_mapIdx
  · rfl

theorem DataKept.extend {msg : Message} {a : Bytes} (h : DataKept cfg p.currentMsg n)
    (hmsg : p.currentMsg.msg = some msg) (hlen : a.length ≤ n)
    (hvalid : ¬ (msg.opcode = .text ∧ (p.currentMsg.validator.decode (p.unmask a).1).2 = false)) :
    DataKept cfg (p.extend msg a) (n - a.length) := by
  obtain ⟨hdata, hallowed, htext⟩ := h msg hmsg
  intro msg' hmsg'
  obtain rfl := Option.some.inj hmsg'
  refine ⟨hdata, ?_, ?_⟩
  · rw [List.length_append, length_unmask, Nat.add_assoc, Nat.add_sub_cancel' hlen]
    exact hallowed
  · intro hop
    have hop : msg.opcode = .text := hop
    obtain ⟨hvalidator, hgood⟩ := htext hop
    have hgood' : (p.currentMsg.validator.decode (p.unmask a).1).2 = true := by
      simpa [hop] using hvalid
    rw [Processor.extend, if_pos hop, Validator.decode_append, if_pos hgood, ← hvalidator]
    exact ⟨rfl, hgood'⟩

theorem ControlKept.extend {msg : Message} {a : Bytes} (h : ControlKept p.currentMsg n)
    (hmsg : p.currentMsg.msg = some msg) (hlen : a.length ≤ n) :
    ControlKept (p.extend msg a) (n - a.length) := by
  obtain ⟨hcontrol, hshort⟩ := h msg hmsg
  intro msg' hmsg'
  obtain rfl := Option.some.inj hmsg'
  refine ⟨hcontrol, ?_⟩
  rw [List.length_append, length_unmask, Nat.add_assoc, Nat.add_sub_cancel' hlen]
  exact hshort

theorem dataKept_none {m : MsgMetadata} (h : m.msg = none) : DataKept cfg m n := by
  intro msg hmsg
  rw [h] at hmsg
  cases hmsg

/-! ### Every step keeps them -/

theorem kept_processPayloadBytes {msg : Message} {a : Bytes} (hstate : p.state = .application)
    (hkept : Kept cfg p) (hmsg : p.currentMsg.msg = some msg) (hlen : a.length ≤ p.bytesNeeded)
    (h : p.processPayloadBytes a = .ok p') : Kept cfg p' := by
  rw [processPayloadBytes_eq hmsg] at h
  split at h
  · cases h
  · next hvalid =>
      obtain rfl := Except.ok.inj h
      have hside : ∀ side, p.current = side → Kept cfg
          { p.setCurrentMsg (p.extend msg a) with bytesNeeded := p.bytesNeeded - a.length } := by
        intro side hside
        simp only [Kept, hstate] at hkept
        cases side with
        | data =>
            have hcurrent : p.currentMsg = p.dataMsg := by rw [currentMsg, hside]
            simp only [hside] at hkept
            simp only [Kept, setCurrentMsg, hside, hstate]
            rw [← hcurrent] at hkept
            exact hkept.extend hmsg hlen hvalid
        | control =>
            have hcurrent : p.currentMsg = p.controlMsg := by rw [currentMsg, hside]
            simp only [hside] at hkept
            simp only [Kept, setCurrentMsg, hside, hstate]
            rw [← hcurrent] at hkept
            exact ⟨hkept.1, hkept.2.extend hmsg hlen⟩
      exact hside p.current rfl

theorem dataMsg_copyBasicHeaderBytes (p : Processor) (a : Bytes) :
    (p.copyBasicHeaderBytes a).1.dataMsg = p.dataMsg := by
  unfold copyBasicHeaderBytes
  repeat' split
  all_goals rfl

theorem kept_absorb {a : Bytes} (hp : p.Inv) (hkept : Kept cfg p) (hlen : a.length ≤ p.bytesNeeded)
    (h : p.absorb a = .ok p') : Kept cfg p' := by
  cases hstate : p.state with
  | headerBasic =>
      simp only [absorb, hstate] at h
      obtain rfl := Except.ok.inj h
      have hstate' := (copyBasicHeaderBytes_need (hp.basic hstate) hlen).2.1
      simp only [Kept, hstate] at hkept
      simp only [Kept, hstate', hstate, dataMsg_copyBasicHeaderBytes]
      exact hkept
  | headerExtended =>
      simp only [absorb, hstate] at h
      obtain rfl := Except.ok.inj h
      simp only [Kept, hstate] at hkept
      simp only [Kept, copyExtendedHeaderBytes, hstate]
      exact hkept
  | application =>
      obtain ⟨⟨msg, hmsg⟩, -⟩ := hp.payload hstate
      simp only [absorb, hstate] at h
      split at h
      · obtain rfl := Except.ok.inj h
        exact hkept
      · exact kept_processPayloadBytes hstate hkept hmsg hlen h
  | extension => exact absurd hstate hp.not_extension
  | ready =>
      simp only [absorb, hstate] at h
      obtain rfl := Except.ok.inj h
      exact hkept
  | fatalError => exact absurd hstate hp.not_fatalError

theorem kept_beginPayload
    (hdata : DataKept cfg p.dataMsg 0) (hstate : p.state = .application)
    (hcontrol : p.basicHeader.getOpcode.isControl = true → p.bytesNeeded ≤ 125)
    (h : p.beginPayload cfg = .ok p') : Kept cfg p' := by
  simp only [beginPayload] at h
  split at h
  · next hop =>
      obtain rfl := Except.ok.inj h
      simp only [Kept, hstate]
      refine ⟨hdata, ?_⟩
      intro msg hmsg
      obtain rfl := Option.some.inj hmsg
      refine ⟨hop, ?_⟩
      simpa [Websocketpp.getMessage] using hcontrol hop
  · next hop =>
      split at h
      · split at h
        · cases h
        · next hfits =>
            obtain rfl := Except.ok.inj h
            simp only [Kept, hstate]
            intro msg hmsg
            obtain rfl := Option.some.inj hmsg
            refine ⟨Bool.eq_false_of_not_eq_true hop, ?_, fun _ => ⟨rfl, rfl⟩⟩
            left
            simpa [Websocketpp.getMessage] using hfits
      · next msg hmsg =>
          split at h
          · cases h
          · next hfits =>
              obtain rfl := Except.ok.inj h
              obtain ⟨hnot, -, htext⟩ := hdata msg hmsg
              simp only [Kept, hstate]
              intro msg' hmsg'
              obtain rfl : msg = msg' := Option.some.inj (hmsg.symm.trans hmsg')
              exact ⟨hnot, allowed_of_mod hfits, htext⟩

theorem basicSize_of_valid {h : BasicHeader} {server new : Bool}
    (hvalid : validateIncomingBasicHeader h server new = .ok ())
    (hcontrol : h.getOpcode.isControl = true) : h.getBasicSize.toNat ≤ 125 := by
  simp only [validateIncomingBasicHeader, hcontrol, Bool.true_and, decide_eq_true_eq] at hvalid
  split at hvalid
  · cases hvalid
  · next hsmall =>
      have hle := UInt64.le_iff_toNat_le.mp (UInt64.not_lt.mp hsmall)
      rwa [UInt8.toNat_toUInt64] at hle

theorem kept_resetHeaders (h : DataKept cfg p.dataMsg 0) : Kept cfg p.resetHeaders := h

theorem getMessage_ready {msg : Message} (hready : p.state = .ready)
    (hmsg : p.currentMsg.msg = some msg) (hside : p.current = .data ↔ msg.opcode.isControl = false) :
    p.getMessage.1 = some msg ∧ p.getMessage.2.state = .headerBasic ∧
      p.getMessage.2.dataMsg =
        match p.current with
        | .data => { p.dataMsg with msg := none }
        | .control => p.dataMsg := by
  simp only [Processor.getMessage, if_pos hready, hmsg]
  cases hcurrent : p.current with
  | data =>
      rw [hside.mp hcurrent]
      simp [setCurrentMsg, currentMsg, hcurrent, resetHeaders]
  | control =>
      have hcontrol : msg.opcode.isControl = true := by
        by_contra hdata
        rw [hside.mpr (Bool.eq_false_of_not_eq_true hdata)] at hcurrent
        cases hcurrent
      rw [hcontrol]
      simp [setCurrentMsg, currentMsg, hcurrent, resetHeaders]

theorem kept_getMessage (hready : p.state = .ready) (hneed : p.bytesNeeded = 0)
    (hkept : Kept cfg p) : (p.finish cfg).All (Delivered cfg) (Kept cfg) := by
  have hnext : ∀ q : Processor, q.state = .headerBasic → DataKept cfg q.dataMsg 0 → Kept cfg q := by
    intro q hq hdata
    simpa only [Kept, hq] using hdata
  simp only [Processor.finish, hready]
  simp only [Kept, hready, hneed] at hkept
  cases hside : p.current with
  | data =>
      have hcurrent : p.currentMsg = p.dataMsg := by rw [currentMsg, hside]
      simp only [hside] at hkept
      cases hmsg : p.dataMsg.msg with
      | none =>
          have hget : p.getMessage = (none, p.resetHeaders) := by
            simp only [Processor.getMessage, if_pos hready, hcurrent, hmsg]
          rw [hget]
          exact .pure (kept_resetHeaders hkept)
      | some msg =>
          obtain ⟨hdata, hallowed, htext⟩ := hkept msg hmsg
          obtain ⟨hfirst, hstate, hnone⟩ := getMessage_ready hready (hcurrent ▸ hmsg)
            ⟨fun _ => hdata, fun _ => hside⟩
          rw [hside] at hnone
          rw [hfirst]
          refine ⟨fun msg' hmem => ?_, fun q hq => ?_⟩
          · obtain rfl := List.mem_singleton.mp hmem
            rw [Delivered, if_neg (by rw [hdata]; exact Bool.false_ne_true)]
            exact ⟨hallowed, fun hop => (decode_begins _).mp (htext hop).2⟩
          · obtain rfl := Except.ok.inj hq
            exact hnext _ hstate (dataKept_none (by rw [hnone]))
  | control =>
      have hcurrent : p.currentMsg = p.controlMsg := by rw [currentMsg, hside]
      simp only [hside] at hkept
      cases hmsg : p.controlMsg.msg with
      | none =>
          have hget : p.getMessage = (none, p.resetHeaders) := by
            simp only [Processor.getMessage, if_pos hready, hcurrent, hmsg]
          rw [hget]
          exact .pure (kept_resetHeaders hkept.1)
      | some msg =>
          obtain ⟨hcontrol, hshort⟩ := hkept.2 msg hmsg
          have hnot : p.current = .data ↔ msg.opcode.isControl = false := by
            rw [hside, hcontrol]
            decide
          obtain ⟨hfirst, hstate, hsame⟩ := getMessage_ready hready (hcurrent ▸ hmsg) hnot
          rw [hside] at hsame
          rw [hfirst]
          refine ⟨fun msg' hmem => ?_, fun q hq => ?_⟩
          · obtain rfl := List.mem_singleton.mp hmem
            rw [Delivered, if_pos hcontrol]
            exact hshort
          · obtain rfl := Except.ok.inj hq
            exact hnext _ hstate (hsame ▸ hkept.1)

theorem kept_finish (hp : p.Inv) (hkept : Kept cfg p) (hneed : p.bytesNeeded = 0) :
    (p.finish cfg).All (Delivered cfg) (Kept cfg) := by
  cases hstate : p.state with
  | headerBasic =>
      simp only [Processor.finish, hstate]
      refine .ofExcept fun p' h => ?_
      obtain ⟨_, hvalid, hp'⟩ := bind_eq_ok.mp h
      obtain rfl := Except.ok.inj hp'
      simp only [Kept, hstate] at hkept
      exact ⟨hkept, basicSize_of_valid hvalid⟩
  | headerExtended =>
      simp only [Processor.finish, hstate]
      refine .ofExcept fun p' h => ?_
      obtain ⟨_, -, hbegin⟩ := bind_eq_ok.mp h
      simp only [Kept, hstate] at hkept
      refine kept_beginPayload ?_ ?_ ?_ hbegin
      · exact hkept.1
      · rfl
      · intro hcontrol
        have hsmall := hkept.2 hcontrol
        exact (getPayloadSize_small hsmall).trans_le hsmall
  | application =>
      simp only [Processor.finish, hstate]
      refine .ofExcept fun p' h => ?_
      simp only [completeFrame, finalizeMessage] at h
      simp only [Kept, hstate] at hkept
      split at h
      · split at h
        · cases h
        · obtain rfl := Except.ok.inj h
          exact hkept
      · obtain rfl := Except.ok.inj h
        apply kept_resetHeaders
        cases hside : p.current with
        | data =>
            simp only [hside, hneed] at hkept
            exact hkept
        | control =>
            simp only [hside] at hkept
            exact hkept.1
  | extension => exact absurd hstate hp.not_extension
  | ready => exact kept_getMessage hstate hneed hkept
  | fatalError => exact absurd hstate hp.not_fatalError

theorem reader_keeps (cfg : Endpoint) : (reader cfg).Keeps Inv (Kept cfg) (Delivered cfg) where
  absorb := fun hp hkept hlen h => kept_absorb hp hkept hlen h
  finish := fun hp hkept hneed => kept_finish hp hkept hneed

/-! ### Over all reads -/

theorem kept_init (cfg : Endpoint) : Kept cfg .init := dataKept_none rfl

/-- The bytes of the data message that the processor keeps, and those that the present
frame of it still has to bring. -/
def promised (p : Processor) : Nat :=
  match p.dataMsg.msg with
  | none => 0
  | some msg =>
      msg.payload.length + if p.state = .application ∧ p.current = .data then p.bytesNeeded else 0

theorem Kept.promised (hp : p.Inv) (hkept : Kept cfg p) (hneed : 0 < p.bytesNeeded) :
    Allowed cfg (promised p) := by
  unfold Websocketpp.promised
  cases hmsg : p.dataMsg.msg with
  | none => exact Or.inl (Nat.zero_le _)
  | some msg =>
      have hdata : ∀ n, DataKept cfg p.dataMsg n → Allowed cfg (msg.payload.length + n) :=
        fun n h => (h msg hmsg).2.1
      cases hstate : p.state with
      | headerBasic =>
          simp only [Kept, hstate] at hkept
          rw [if_neg fun h => FieldState.noConfusion h.1]
          exact hdata 0 hkept
      | headerExtended =>
          simp only [Kept, hstate] at hkept
          rw [if_neg fun h => FieldState.noConfusion h.1]
          exact hdata 0 hkept.1
      | application =>
          simp only [Kept, hstate] at hkept
          cases hside : p.current with
          | data =>
              simp only [hside] at hkept
              rw [if_pos ⟨rfl, rfl⟩]
              exact hdata _ hkept
          | control =>
              simp only [hside] at hkept
              rw [if_neg fun h => Current.noConfusion h.2]
              exact hdata 0 hkept.1
      | extension => exact absurd hstate hp.not_extension
      | ready => exact absurd (hp.ready hstate) (Nat.ne_of_gt hneed)
      | fatalError => exact absurd hstate hp.not_fatalError

section Reads

theorem read_init_keeps (cfg : Endpoint) (bytes : Bytes) :
    ((reader cfg).read .init bytes).All (Delivered cfg) (Kept cfg) :=
  (reader_keeps cfg).read (reader_lawful cfg) represents_init.inv (kept_init cfg)

variable {τ : Type}

/-- Whatever arrives, in any number of reads: every message that is given away is
short, if it is a control message, or keeps the limit, and a text begins a sequence of
characters; and so does the data that the processor keeps for the next read. -/
theorem handleReads_limits (dispatch : Message → τ → τ) (reads : List Bytes) (t : τ) :
    ∃ (out : List Message) (result : Except ProcessorError Processor), handleReads cfg dispatch .init t reads =
        some (out.foldl (fun t msg => dispatch msg t) t, result) ∧
      (∀ msg ∈ out, Delivered cfg msg) ∧ ∀ p, result = .ok p → Allowed cfg (promised p) := by
  have hinit := represents_init.inv
  have hall := read_init_keeps cfg reads.flatten
  refine ⟨_, _, handleReads_eq dispatch hinit (by decide), hall.1, fun p hp => ?_⟩
  obtain ⟨hinv, hneed⟩ := FieldReader.read_ok (reader_lawful cfg) hinit hp
  exact Kept.promised hinv (hall.2 p hp) hneed

/-! ### Past the limit

A continuation frame whose length makes the sum wrap is taken for a short one. -/

def firstFrame : Frame := ⟨false, .binary, none, [0x00], by decide⟩

def longFrame (k : Nat) (hk : k < 2 ^ 64) : Frame :=
  ⟨true, .continuation, none, List.replicate k 0x00, by rwa [List.length_replicate]⟩

theorem accept_firstFrame (hclient : cfg.server = false) (hmax : 0 < cfg.maxMessageSize) :
    Receiver.acceptAll cfg none [firstFrame] =
      .pure (some ⟨.binary, [0x00], rfl, fun h => by cases h⟩) := by
  have hfits : Receiver.tooBig cfg none firstFrame = false := by
    simpa [Receiver.tooBig, firstFrame] using Nat.ne_of_gt hmax
  have hadmits : Receiver.admits cfg none firstFrame = .ok () := by
    simp [Receiver.admits, firstFrame, Opcode.isControl, Opcode.reserved, Opcode.value, hclient]
  rw [Receiver.acceptAll, Receiver.accept, hadmits]
  simp only [Receiver.acceptData, hfits]
  rfl

section LongFrame

variable {k : Nat} {hk : k < 2 ^ 64} {m : Partial}

theorem admits_longFrame (hclient : cfg.server = false) :
    Receiver.admits cfg (some m) (longFrame k hk) = .ok () := by
  simp [Receiver.admits, longFrame, Opcode.isControl, Opcode.reserved, Opcode.value, hclient]

/-- The processor in the payload of a frame that makes the sum wrap. -/
theorem exists_longFrame (hclient : cfg.server = false) (hp : p.Represents (some m))
    (hwrap : (m.payload.length + k) % 2 ^ 64 ≤ cfg.maxMessageSize) :
    ∃ q : Processor, q.BeforePayload (longFrame k hk) (Receiver.message m.opcode m.payload) ∧
      ∀ rest, (reader cfg).read p ((longFrame k hk).header ++ rest) = (reader cfg).read q rest := by
  have hadmits : Receiver.admits cfg (some m) (longFrame k hk) = .ok () := admits_longFrame hclient
  have hfits : Receiver.tooBig cfg (some m) (longFrame k hk) = false := by
    simpa [Receiver.tooBig, longFrame] using hwrap
  obtain ⟨q, hbegin, hq⟩ := (hp.beginPayload_data rfl hadmits).2 hfits
  refine ⟨q, hq, fun rest => ?_⟩
  rw [hp.read_header, hadmits, Emission.ofExcept_ok, Emission.pure_andThen, hbegin]
  rfl

theorem length_header_longFrame (hlong : 0xFFFF < k) : (longFrame k hk).header.length = 10 := by
  have hsize : (longFrame k hk).size.toNat = k :=
    (longFrame k hk).toNat_size.trans List.length_replicate
  have hoffset : ExtendedHeader.payloadOffset (longFrame k hk).size = 0 := by
    rw [ExtendedHeader.payloadOffset, if_neg, if_neg]
    · rw [UInt64.le_iff_toNat_le, hsize]
      exact Nat.not_le.mpr hlong
    · rw [UInt64.le_iff_toNat_le, hsize]
      exact Nat.not_le.mpr (Nat.lt_of_le_of_lt (by decide) hlong)
  have hkey : (longFrame k hk).keyField = [] := rfl
  rw [Frame.header, hkey, List.append_nil, List.length_cons, List.length_cons, length_sizeField, hoffset]

end LongFrame

/-- A part of the payload of a data frame is kept. -/
theorem Processor.BeforePayload.absorb_part {q : Processor} {f : Frame} {msg : Message}
    (h : q.BeforePayload f msg) (hdata : msg.opcode.isControl = false) (htext : msg.opcode ≠ .text)
    (a : Bytes) : ∃ p msg', q.absorb a = .ok p ∧ p.dataMsg.msg = some msg' ∧
      msg'.payload.length = msg.payload.length + a.length := by
  have hside : q.current = .data := by
    rw [h.side, if_neg (by rw [hdata]; exact Bool.false_ne_true)]
  have hcurrent : q.currentMsg = q.dataMsg := by rw [currentMsg, hside]
  by_cases ha : a = []
  · refine ⟨q, msg, ?_, hcurrent ▸ h.message, ?_⟩
    · rw [ha, absorb_nil]
    · rw [ha]
      rfl
  · refine ⟨{ q.setCurrentMsg (q.extend msg a) with bytesNeeded := q.bytesNeeded - a.length },
      { msg with payload := msg.payload ++ (q.unmask a).1 }, ?_, ?_, ?_⟩
    · simp only [absorb, h.state, if_neg ha]
      rw [processPayloadBytes_eq h.message, if_neg fun hbad => htext hbad.1]
    · simp only [setCurrentMsg, hside]
      rfl
    · rw [List.length_append, length_unmask]

/-- A few bytes make the processor keep any number of bytes that follow. -/
theorem handleReads_past_limit (hclient : cfg.server = false) (hmax : 0 < cfg.maxMessageSize)
    (hn : n < 2 ^ 64 - 1) (dispatch : Message → τ → τ) (t : τ) :
    ∃ reads p msg, handleReads cfg dispatch .init t reads = some (t, .ok p) ∧
      reads.flatten.length = n + 13 ∧ p.dataMsg.msg = some msg ∧ msg.payload.length = n + 1 := by
  obtain ⟨k, hk⟩ : ∃ k, k = 2 ^ 64 - 1 := ⟨_, rfl⟩
  have hbound : k < 2 ^ 64 := by omega
  have hinit := represents_init
  obtain ⟨e, hrel, hread⟩ := hinit.read_frames cfg
    ((longFrame k hbound).header ++ List.replicate n 0x00) [firstFrame]
  rw [accept_firstFrame hclient hmax] at hrel
  cases hrel with
  | @ok _ p₁ _ hp₁ =>
      have hwrap : ([0x00].length + k) % 2 ^ 64 ≤ cfg.maxMessageSize := by
        have hzero : ([0x00].length + k) % 2 ^ 64 = 0 := by rw [hk]; rfl
        rw [hzero]
        exact Nat.zero_le _
      obtain ⟨q, hq, hheader⟩ : ∃ q : Processor,
          q.BeforePayload (longFrame k hbound) (Receiver.message .binary [0x00]) ∧
            ∀ rest, (reader cfg).read p₁ ((longFrame k hbound).header ++ rest) =
              (reader cfg).read q rest :=
        exists_longFrame hclient hp₁ hwrap
      have hlen : (List.replicate n (0x00 : UInt8)).length < q.bytesNeeded := by
        have hneed : q.bytesNeeded = k := hq.need.trans List.length_replicate
        rw [hneed, hk, List.length_replicate]
        exact hn
      obtain ⟨p, msg, habsorb, hmsg, hcount⟩ := hq.absorb_part rfl (by decide) (List.replicate n 0x00)
      have hpart : (reader cfg).read q (List.replicate n 0x00) = .ofExcept (q.absorb _) :=
        FieldReader.read_part (reader_lawful cfg) hq.inv hlen
      refine ⟨[firstFrame.wire, (longFrame k hbound).header ++ List.replicate n 0x00], p, msg, ?_, ?_,
        hmsg, ?_⟩
      · have hbytes : [firstFrame.wire, (longFrame k hbound).header ++ List.replicate n 0x00].flatten =
            [firstFrame].flatMap Frame.wire ++
              ((longFrame k hbound).header ++ List.replicate n 0x00) := by
          simp
        rw [handleReads_eq dispatch hinit.inv (by decide), hbytes, hread]
        simp only [Emission.andThen, hheader, hpart, habsorb]
        rfl
      · rw [List.flatten_cons, List.flatten_cons, List.flatten_nil, List.append_nil,
          List.length_append, List.length_append, List.length_replicate,
          length_header_longFrame (by omega)]
        change 3 + (10 + n) = _
        omega
      · rw [hcount, List.length_replicate]
        exact Nat.add_comm 1 n

theorem handleReads_past_limit_client : ∃ reads p msg,
    handleReads .client (fun msg out => out ++ [msg]) .init [] reads = some ([], .ok p) ∧
      reads.flatten.length = 40000013 ∧ p.dataMsg.msg = some msg ∧ msg.payload.length = 40000001 :=
  handleReads_past_limit rfl (by decide) (by decide) _ _

end Reads

/-! ### Texts in one frame and in several -/

/-- Frames that carry one message, from a frame with the opcode `op` on. -/
def Carries (cfg : Endpoint) (op : Opcode) : List Frame → Prop
  | [] => False
  | [f] => f.opcode = op ∧ f.key.isSome = cfg.server ∧ f.fin = true
  | f :: g :: frames => f.opcode = op ∧ f.key.isSome = cfg.server ∧ f.fin = false ∧
      Carries cfg .continuation (g :: frames)

namespace Receiver

variable {f : Frame} {m : Partial}

theorem admits_continuation (hop : f.opcode = .continuation) (hkey : f.key.isSome = cfg.server) :
    admits cfg (some m) f = .ok () := by
  cases hf : f.key <;> rw [hf] at hkey <;>
    simp [admits, hop, hf, Opcode.isControl, Opcode.reserved, Opcode.value, ← hkey]

theorem accept_continuation (hop : f.opcode = .continuation) (hkey : f.key.isSome = cfg.server)
    (hlimit : m.payload.length + f.payload.length ≤ cfg.maxMessageSize)
    (hword : cfg.maxMessageSize < 2 ^ 64) :
    accept cfg (some m) f =
      if hbegins : m.opcode = .text → Begins (m.payload ++ f.payload) then
        if f.fin then ([message m.opcode (m.payload ++ f.payload)], .ok none)
        else Emission.pure (some ⟨m.opcode, m.payload ++ f.payload, m.data, hbegins⟩)
      else Emission.fail .invalidUtf8 := by
  have hfits : tooBig cfg (some m) f = false := by
    rw [tooBig, Nat.mod_eq_of_lt (Nat.lt_of_le_of_lt hlimit hword)]
    exact decide_eq_false (Nat.not_lt.mpr hlimit)
  have hcontrol : ¬ f.opcode.isControl = true := by rw [hop]; decide
  have htext : f.opcode ≠ .text := by rw [hop]; decide
  rw [accept, admits_continuation hop hkey]
  simp only [dif_neg hcontrol, acceptData, hfits, beginning, Option.getD_some, htext, false_and,
    if_false, Bool.false_eq_true]

/-- The rest of a text: what has arrived has to begin a sequence of characters, and no
more than that is asked at its end. -/
theorem acceptAll_rest (hword : cfg.maxMessageSize < 2 ^ 64) {frames : List Frame} :
    ∀ {m : Partial}, m.opcode = .text → Carries cfg .continuation frames →
      (m.payload ++ frames.flatMap Frame.payload).length ≤ cfg.maxMessageSize →
      acceptAll cfg (some m) frames =
        if Begins (m.payload ++ frames.flatMap Frame.payload) then
          ([message .text (m.payload ++ frames.flatMap Frame.payload)], .ok none)
        else Emission.fail .invalidUtf8 := by
  induction frames with
  | nil => intro m _ h; exact h.elim
  | cons f frames ih =>
      intro m hm h hlimit
      rw [List.flatMap_cons, ← List.append_assoc] at hlimit ⊢
      have hfirst : m.payload.length + f.payload.length ≤ cfg.maxMessageSize := by
        rw [List.length_append, List.length_append] at hlimit
        omega
      rw [acceptAll]
      cases frames with
      | nil =>
          obtain ⟨hop, hkey, hfin⟩ := h
          rw [accept_continuation hop hkey hfirst hword, List.flatMap_nil, List.append_nil]
          simp only [hm, hfin, true_imp_iff]
          split
          · rfl
          · rfl
      | cons g frames =>
          obtain ⟨hop, hkey, hfin, hrest⟩ := h
          rw [accept_continuation hop hkey hfirst hword]
          simp only [hm, hfin, true_imp_iff]
          by_cases hbegins : Begins (m.payload ++ f.payload)
          · rw [dif_pos hbegins]
            exact ih (m := ⟨.text, m.payload ++ f.payload, rfl, fun _ => hbegins⟩) rfl hrest hlimit
          · rw [dif_neg hbegins, if_neg fun hall => hbegins (begins_of_append hall)]
            rfl

theorem accept_text (hop : f.opcode = .text) (hkey : f.key.isSome = cfg.server)
    (hlimit : f.payload.length ≤ cfg.maxMessageSize) :
    accept cfg none f =
      if hbegins : Begins f.payload then
        if f.fin then
          if Utf8.Valid f.payload then ([message .text f.payload], .ok none)
          else Emission.fail .invalidUtf8
        else Emission.pure (some ⟨.text, f.payload, rfl, fun _ => hbegins⟩)
      else Emission.fail .invalidUtf8 := by
  have hfits : tooBig cfg none f = false := decide_eq_false (Nat.not_lt.mpr hlimit)
  have hcontrol : ¬ f.opcode.isControl = true := by rw [hop]; decide
  have hadmits : admits cfg none f = .ok () := by
    cases hf : f.key <;> rw [hf] at hkey <;>
      simp [admits, hop, hf, Opcode.isControl, Opcode.reserved, Opcode.value, ← hkey]
  rw [accept, hadmits]
  simp only [dif_neg hcontrol, acceptData, hfits, beginning, Option.getD_none, hop, true_and,
    Bool.false_eq_true, if_false, true_imp_iff, List.nil_append]
  split
  · split
    · by_cases hvalid : Utf8.Valid f.payload
      · simp only [hvalid, not_true, if_false, if_true]
      · simp only [hvalid, not_false_eq_true, if_false, if_true]
    · rfl
  · rfl

/-- What a text has to be: UTF-8, when it comes in one frame, and the beginning of a
sequence of characters, when it comes in more than one. -/
def TextAccepted (frames : List Frame) : Prop :=
  if frames.length = 1 then Utf8.Valid (frames.flatMap Frame.payload)
  else Begins (frames.flatMap Frame.payload)

instance (frames : List Frame) : Decidable (TextAccepted frames) :=
  inferInstanceAs (Decidable (if frames.length = 1 then Utf8.Valid (frames.flatMap Frame.payload)
    else Begins (frames.flatMap Frame.payload)))

theorem acceptAll_text (hword : cfg.maxMessageSize < 2 ^ 64) {frames : List Frame}
    (h : Carries cfg .text frames)
    (hlimit : (frames.flatMap Frame.payload).length ≤ cfg.maxMessageSize) :
    acceptAll cfg none frames =
      if TextAccepted frames then ([message .text (frames.flatMap Frame.payload)], .ok none)
      else Emission.fail .invalidUtf8 := by
  rcases frames with _ | ⟨f, _ | ⟨g, frames⟩⟩
  · exact h.elim
  · obtain ⟨hop, hkey, hfin⟩ := h
    rw [List.flatMap_cons, List.flatMap_nil, List.append_nil] at hlimit ⊢
    have haccepted : TextAccepted [f] ↔ Utf8.Valid f.payload := by simp [TextAccepted]
    rw [acceptAll, accept_text hop hkey hlimit]
    simp only [hfin, if_true, haccepted]
    by_cases hvalid : Utf8.Valid f.payload
    · rw [dif_pos (begins_of_valid hvalid), if_pos hvalid]
      rfl
    · rw [if_neg hvalid]
      split <;> rfl
  · obtain ⟨hop, hkey, hfin, hrest⟩ := h
    have haccepted : TextAccepted (f :: g :: frames) ↔
        Begins ((f :: g :: frames).flatMap Frame.payload) := by
      simp [TextAccepted]
    rw [List.flatMap_cons] at hlimit haccepted ⊢
    have hfirst : f.payload.length ≤ cfg.maxMessageSize := by
      rw [List.length_append] at hlimit
      omega
    rw [acceptAll, accept_text hop hkey hfirst]
    simp only [hfin, haccepted, Bool.false_eq_true, if_false]
    by_cases hbegins : Begins f.payload
    · rw [dif_pos hbegins]
      exact acceptAll_rest (m := ⟨.text, f.payload, rfl, fun _ => hbegins⟩) hword rfl hrest hlimit
    · rw [dif_neg hbegins, if_neg fun hall => hbegins (begins_of_append hall)]
      rfl

end Receiver

/-- In any number of reads and of frames: a text that is accepted is given away whole,
and any other ends the reading. -/
theorem handleReads_text {τ : Type} (hword : cfg.maxMessageSize < 2 ^ 64) {frames : List Frame}
    (h : Carries cfg .text frames)
    (hlimit : (frames.flatMap Frame.payload).length ≤ cfg.maxMessageSize) {reads : List Bytes}
    (hreads : reads.flatten = frames.flatMap Frame.wire) (dispatch : Message → τ → τ) (t : τ) :
    if Receiver.TextAccepted frames then
      ∃ p, handleReads cfg dispatch .init t reads =
        some (dispatch (Receiver.message .text (frames.flatMap Frame.payload)) t, .ok p) ∧
        p.BetweenFrames
    else handleReads cfg dispatch .init t reads = some (t, .error .invalidUtf8) := by
  have haccept := Receiver.acceptAll_text hword h hlimit
  split
  · next htext =>
      rw [if_pos htext] at haccept
      obtain ⟨p, hp, hread⟩ := handleReads_taken hreads haccept dispatch t
      exact ⟨p, hread, hp.betweenFrames⟩
  · next htext =>
      rw [if_neg htext] at haccept
      obtain ⟨e, hrel, hread⟩ :=
        handleReads_frames cfg (hreads.trans (List.append_nil _).symm) dispatch t
      rw [haccept] at hrel
      cases hrel
      exact hread

/-- A text whose last character is not complete, in two frames: it is given away. -/
theorem handleReads_text_example :
    let first : Frame := ⟨false, .text, none, ascii "hi", by decide⟩
    let last : Frame := ⟨true, .continuation, none, [0xC3], by decide⟩
    ∃ p, handleReads .client (fun msg log => log ++ [msg]) .init [] [first.wire, last.wire] =
        some ([Receiver.message .text (ascii "hi" ++ [0xC3])], .ok p) ∧ p.BetweenFrames := by
  intro first last
  have hcarries : Carries .client .text [first, last] := ⟨rfl, rfl, rfl, rfl, rfl, rfl⟩
  have hreads : [first.wire, last.wire].flatten = [first, last].flatMap Frame.wire := rfl
  have htext := handleReads_text (by decide) hcarries (by decide) hreads
    (fun msg log => log ++ [msg]) []
  have haccepted : Receiver.TextAccepted [first, last] := by decide
  rw [if_pos haccepted] at htext
  exact htext

end ExchangeClient.Websocketpp
