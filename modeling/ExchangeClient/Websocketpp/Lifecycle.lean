import ExchangeClient.Websocketpp.Connection
import Mathlib.Logic.Relation

/-!
# What the handlers of a connection do

A handler is a sequence of changes of a few kinds, and every invariant of the connection is
an invariant of these. The changes leave the reads and the writes of the transport alone.
-/

namespace ExchangeClient.Websocketpp.Connection

open Relation

variable {ρ : Type} {S : Setting ρ} {c c' d : Connection ρ}

/-! ### Changes -/

/-- A message that is a frame for the application, in the notes of the connection. -/
def receive (c : Connection ρ) (msg : Message) : Connection ρ :=
  { c with
    inbox := c.inbox ++ [msg]
    events := if msg.opcode.isControl = false ∧ c.state = .opened then
        c.events ++ [.message msg] else c.events }

/-- A close frame is on its way. -/
def startClosing (c : Connection ρ) (ack : Bool) : Connection ρ :=
  { c with
    state := .closing
    closeInfo := { c.closeInfo with wasClean := ack || c.closeInfo.wasClean } }.setHandshakeTimer
      .closeHandshakeTimeout

/-- A close frame has been received. -/
def GotClose (c : Connection ρ) : Prop := ∃ msg ∈ c.inbox, msg.opcode = .close

/-- What a handler does, one thing at a time. -/
inductive Change (S : Setting ρ) : Connection ρ → Connection ρ → Prop where
  | note (c : Connection ρ) (info : CloseInfo) (h : info.wasClean = c.closeInfo.wasClean) :
      Change S c { c with closeInfo := info }
  | push (c : Connection ρ) (o : Outgoing) (out : Message) (hopen : c.state = .opened)
      (ho : o.opcode ≠ .close) (hout : c.prepare S o = .ok out) :
      Change S c (c.enqueue (S.rng c.drawn) o out)
  | close (c : Connection ρ) (code : Close.Status) (reason : Bytes) (out : Message)
      (ack terminal : Bool) (hstate : c.state = .opened ∨ c.state = .closing)
      (hack : ack = true → c.GotClose) (hout : c.prepare S (.close code reason) = .ok out) :
      Change S c ((c.startClosing ack).enqueue (S.rng c.drawn) (.close code reason)
        (if terminal then { out with terminal := true } else out))
  | clean (c : Connection ρ) (hstate : c.state = .closing) (hclose : c.GotClose) :
      Change S c { c with closeInfo := { c.closeInfo with wasClean := true } }
  | terminate (c : Connection ρ) (ec : Option ErrorCode) : Change S c (c.terminate ec)

abbrev Changes (S : Setting ρ) : Connection ρ → Connection ρ → Prop := ReflTransGen (Change S)

/-- What every change preserves every handler preserves. -/
theorem Changes.invariant {P : Connection ρ → Prop} (h : Changes S c d) (hc : P c)
    (hstep : ∀ c c', Change S c c' → P c → P c') : P d := by
  induction h with
  | refl => exact hc
  | tail _ hchange ih => exact hstep _ _ hchange ih

/-! ### Handlers are made of changes -/

theorem opcode_ne_close_of_prepare {o : Outgoing} {out : Message}
    (ho : ∀ code reason, o ≠ .close code reason) (hout : c.prepare S o = .ok out) :
    o.opcode ≠ .close := by
  cases o with
  | data msg =>
      intro hop
      change msg.opcode = .close at hop
      simp [prepare, Outgoing.prepare, Processor.prepareDataFrame, hop, Opcode.isControl,
        Opcode.value] at hout
  | ping payload => exact Opcode.noConfusion
  | pong payload => exact Opcode.noConfusion
  | close code reason => exact absurd rfl (ho code reason)

theorem push_changes (c : Connection ρ) {o : Outgoing} (ho : ∀ code reason, o ≠ .close code reason) :
    Changes S c (c.push S o).2 := by
  rw [push]
  split
  · exact .refl
  · next hopen =>
      cases hout : c.prepare S o with
      | error ec => exact .refl
      | ok out =>
          exact .single (.push c o out (not_not.mp hopen) (opcode_ne_close_of_prepare ho hout) hout)

theorem sendCloseFrame_changes (c : Connection ρ) (code : Close.Status) (reason : Bytes)
    {ack : Bool} (terminal : Bool) (hstate : c.state = .opened ∨ c.state = .closing)
    (hack : ack = true → c.GotClose) :
    Changes S c (c.sendCloseFrame S code reason ack terminal).2 := by
  rcases hwith : closeWith c.closeInfo code reason ack with ⟨code', reason'⟩
  have hnote : Change S c { c with
      closeInfo := { c.closeInfo with localCode := code', localReason := reason' } } :=
    .note c _ rfl
  simp only [sendCloseFrame, hwith]
  cases hout : { c with closeInfo := { c.closeInfo with
      localCode := code', localReason := reason' } }.prepare S (.close code' reason') with
  | error ec => exact .single hnote
  | ok out => exact .tail (.single hnote) (.close _ code' reason' out ack terminal hstate hack hout)

theorem sendCloseAck_changes (c : Connection ρ) (code : Close.Status) (reason : Bytes)
    (hstate : c.state = .opened ∨ c.state = .closing) (hclose : c.GotClose) :
    Changes S c (c.sendCloseAck S code reason).2 :=
  sendCloseFrame_changes c code reason false hstate fun _ => hclose

theorem close_changes (c : Connection ρ) (code : Close.Status) (reason : Bytes) :
    Changes S c (c.close S code reason).2 := by
  rw [close]
  split
  · exact .refl
  · next hopen =>
      exact sendCloseFrame_changes c code _ _ (.inl (not_not.mp hopen)) Bool.noConfusion

theorem perform_changes (c : Connection ρ) (call : Call) :
    Changes S c (c.perform S call).2 := by
  cases call with
  | send op payload => exact push_changes c (by intro code reason h; cases h)
  | ping payload => exact push_changes c (by intro code reason h; cases h)
  | pong payload => exact push_changes c (by intro code reason h; cases h)
  | close code reason => exact close_changes c code reason

theorem performs_changes (calls : List Call) (c : Connection ρ) :
    Changes S c (calls.foldl (fun c call => (c.perform S call).2) c) := by
  induction calls generalizing c with
  | nil => exact .refl
  | cons call calls ih => exact (perform_changes c call).trans (ih _)

theorem notify_changes (c : Connection ρ) (e : Event) :
    Changes S { c with events := c.events ++ [e] } (c.notify S e) :=
  performs_changes _ _

theorem processClose_changes (payload : Bytes) (hopen : c.state ≠ .closed)
    (hstarted : c.state ≠ .connecting) (hclose : c.GotClose) :
    Changes S c (c.processClose S payload) := by
  have hstate : c.state = .opened ∨ c.state = .closing := by
    cases hc : c.state with
    | connecting => exact absurd hc hstarted
    | opened => exact .inl rfl
    | closing => exact .inr rfl
    | closed => exact absurd hc hopen
  rcases hcode : Close.extractCode payload with ⟨code, badCode⟩
  have hnoteCode : Change S c { c with
      closeInfo := { c.closeInfo with remoteCode := code } } := .note c _ rfl
  simp only [processClose, hcode]
  split
  · refine .head hnoteCode ?_
    exact sendCloseAck_changes _ _ _ hstate hclose
  · rcases hreason : Close.extractReason payload with ⟨reason, badReason⟩
    refine .head hnoteCode ?_
    have hnoteReason : Change S
        { c with closeInfo := { c.closeInfo with remoteCode := code } }
        { c with closeInfo := { c.closeInfo with remoteCode := code, remoteReason := reason } } :=
      .note _ _ rfl
    refine .head hnoteReason ?_
    simp only
    split
    · exact sendCloseAck_changes _ _ _ hstate hclose
    · split
      · exact sendCloseAck_changes _ _ _ hstate hclose
      · split
        · next hclosing => exact .single (.clean _ hclosing.1 hclose)
        · exact .refl

/-- A message is received, and what the application or the connection does about it are
changes. -/
theorem dispatch_changes (msg : Message) (hstarted : c.state ≠ .connecting) :
    Changes S (c.receive msg) (dispatch S msg c) := by
  rw [dispatch]
  by_cases hcontrol : msg.opcode.isControl = false
  · rw [if_pos hcontrol]
    by_cases hopen : c.state = .opened
    · rw [if_neg (not_not.mpr hopen), receive, if_pos ⟨hcontrol, hopen⟩]
      exact notify_changes { c with inbox := c.inbox ++ [msg] } (.message msg)
    · rw [if_pos hopen, receive, if_neg fun h => hopen h.2]
  · rw [if_neg hcontrol, receive, if_neg fun h => hcontrol h.1, processControlFrame]
    split
    · exact .refl
    · next hclosed =>
        split
        · exact .refl
        · split
          · exact push_changes _ (by intro code reason h; cases h)
          · split
            · next hclose =>
                exact processClose_changes _ hclosed hstarted
                  ⟨msg, List.mem_append_right _ (List.mem_singleton_self _), hclose⟩
            · exact .refl

/-! ### What a change does to a connection -/

/-- A pushed message is in the queue, and `write_frame` is going to look at it unless a
write is outstanding. -/
theorem enqueue_eq (c : Connection ρ) (key : MaskingKey) (o : Outgoing) (msg : Message) :
    c.enqueue key o msg = { c with
      sendBufferSize := c.sendBufferSize + msg.payload.length
      sendQueue := c.sendQueue ++ [msg]
      pushed := c.pushed ++ [msg]
      drawn := c.drawn + 1
      accepted := c.accepted ++ [(key, o)]
      writeTasks := if c.writeFlag then c.writeTasks else c.writeTasks + 1 } := by
  simp only [enqueue, writePush, dispatchWriteFrame]
  by_cases hflag : c.writeFlag = true
  · simp [hflag]
  · simp [hflag]

def cancelledTimers (c : Connection ρ) : List Timer :=
  match c.handshakeTimer with
  | some i => c.timers.modify i Timer.cancel
  | none => c.timers

theorem cancelHandshakeTimer_eq (c : Connection ρ) :
    c.cancelHandshakeTimer = { c with handshakeTimer := none, timers := c.cancelledTimers } := by
  rw [cancelHandshakeTimer, cancelledTimers]
  cases htimer : c.handshakeTimer with
  | some i => rfl
  | none => exact congrArg (fun timer => { c with handshakeTimer := timer }) htimer

/-- The shutdown that `terminate` starts. -/
def shutdownOf : SessionState → List TerminateStatus
  | .connecting => [.failed]
  | .opened => [.closed]
  | .closing => [.closed]
  | .closed => []

theorem terminate_eq (c : Connection ρ) (ec : Option ErrorCode) :
    c.terminate ec = { c with
      state := .closed
      ec := ec <|> c.ec
      closeInfo := (c.noteError ec).closeInfo
      handshakeTimer := none
      timers := c.cancelledTimers
      shutdowns := c.shutdowns ++ shutdownOf c.state } := by
  cases hstate : c.state <;> cases ec <;>
    simp [terminate, noteError, cancelHandshakeTimer_eq, asyncShutdown, hstate, shutdownOf]

@[simp] theorem state_terminate (c : Connection ρ) (ec : Option ErrorCode) :
    (c.terminate ec).state = .closed := by
  rw [terminate_eq]

/-- The part of a connection that only the operations of the transport change. -/
structure Unmoved (c c' : Connection ρ) : Prop where
  internalState : c'.internalState = c.internalState
  response : c'.response = c.response
  processor : c'.processor = c.processor
  currentMsgs : c'.currentMsgs = c.currentMsgs
  writeFlag : c'.writeFlag = c.writeFlag
  connects : c'.connects = c.connects
  inits : c'.inits = c.inits
  requestWrites : c'.requestWrites = c.requestWrites
  responseReads : c'.responseReads = c.responseReads
  frameReads : c'.frameReads = c.frameReads
  frameWrites : c'.frameWrites = c.frameWrites
  received : c'.received = c.received
  inbox : c'.inbox = c.inbox
  events : c'.events = c.events
  written : c'.written = c.written
  sent : c'.sent = c.sent

theorem Unmoved.refl (c : Connection ρ) : Unmoved c c := by
  constructor <;> rfl

theorem Unmoved.trans (h : Unmoved c c') (h' : Unmoved c' d) : Unmoved c d := by
  constructor
  · exact h'.internalState.trans h.internalState
  · exact h'.response.trans h.response
  · exact h'.processor.trans h.processor
  · exact h'.currentMsgs.trans h.currentMsgs
  · exact h'.writeFlag.trans h.writeFlag
  · exact h'.connects.trans h.connects
  · exact h'.inits.trans h.inits
  · exact h'.requestWrites.trans h.requestWrites
  · exact h'.responseReads.trans h.responseReads
  · exact h'.frameReads.trans h.frameReads
  · exact h'.frameWrites.trans h.frameWrites
  · exact h'.received.trans h.received
  · exact h'.inbox.trans h.inbox
  · exact h'.events.trans h.events
  · exact h'.written.trans h.written
  · exact h'.sent.trans h.sent

theorem Change.unmoved (h : Change S c c') : Unmoved c c' := by
  cases h with
  | note => constructor <;> rfl
  | push o out =>
      rw [enqueue_eq]
      constructor <;> rfl
  | close code reason out ack terminal =>
      rw [enqueue_eq]
      constructor <;> rfl
  | clean => constructor <;> rfl
  | terminate ec =>
      rw [terminate_eq]
      constructor <;> rfl

theorem Changes.unmoved (h : Changes S c d) : Unmoved c d :=
  h.invariant (.refl c) fun _ _ hchange hc => hc.trans hchange.unmoved

/-- No change makes a connection connect again, or opens it. -/
theorem Change.state (h : Change S c c') :
    c'.state = c.state ∨ c'.state = .closing ∨ c'.state = .closed := by
  cases h with
  | note => exact .inl rfl
  | push o out =>
      rw [enqueue_eq]
      exact .inl rfl
  | close code reason out ack terminal =>
      rw [enqueue_eq]
      exact .inr (.inl rfl)
  | clean => exact .inl rfl
  | terminate ec =>
      rw [terminate_eq]
      exact .inr (.inr rfl)

theorem Changes.started (h : Changes S c d) (hstarted : c.state ≠ .connecting) :
    d.state ≠ .connecting := by
  refine h.invariant (P := fun c => c.state ≠ .connecting) hstarted ?_
  intro c c' hchange hc
  rcases hchange.state with hsame | hclosing | hclosed
  · rwa [hsame]
  · rw [hclosing]
    exact SessionState.noConfusion
  · rw [hclosed]
    exact SessionState.noConfusion

/-- A connection that is open or closing after some changes was so before. -/
theorem Changes.talking (h : Changes S c d) (hd : d.state = .opened ∨ d.state = .closing) :
    c.state = .opened ∨ c.state = .closing := by
  refine Changes.invariant (P := fun d => d.state = .opened ∨ d.state = .closing →
    c.state = .opened ∨ c.state = .closing) h id ?_ hd
  intro e e' hchange he hstate
  cases hchange with
  | note => exact he hstate
  | push o out hopen => exact he (.inl hopen)
  | close code reason out ack terminal hopen => exact he hopen
  | clean hclosing => exact he (.inr hclosing)
  | terminate ec =>
      rw [state_terminate] at hstate
      rcases hstate with hstate | hstate <;> cases hstate

/-- What has been accepted stays accepted. -/
theorem Changes.accepted (h : Changes S c d) : ∀ s ∈ c.accepted, s ∈ d.accepted := by
  refine Changes.invariant (P := fun d => ∀ s ∈ c.accepted, s ∈ d.accepted) h (fun _ hs => hs) ?_
  intro e e' hchange he s hs
  cases hchange with
  | note => exact he s hs
  | push o out =>
      rw [enqueue_eq]
      exact List.mem_append_left _ (he s hs)
  | close code reason out ack terminal =>
      rw [enqueue_eq]
      exact List.mem_append_left _ (he s hs)
  | clean => exact he s hs
  | terminate ec =>
      rw [terminate_eq]
      exact he s hs

/-- A close frame that can be sent ends the time in which the connection is open. -/
theorem state_of_close {code : Close.Status} {reason : Bytes}
    (h : (c.close S code reason).1 = none) : (c.close S code reason).2.state = .closing := by
  rw [close] at h ⊢
  split at h
  · cases h
  · next hopen =>
      rw [if_neg hopen]
      simp only [sendCloseFrame] at h ⊢
      split at h
      · cases h
      · next hout =>
          rw [enqueue_eq]
          rfl

/-! ### Replies -/

/-- The code and the reason of the frame that answers a close frame. -/
def acknowledgement (payload : Bytes) : Close.Status × Bytes :=
  if (Close.extractCode payload).2.isSome then
    (Close.protocolError, ascii "Invalid close code")
  else if (Close.extractReason payload).2.isSome then
    (Close.protocolError, ascii "Invalid close reason")
  else if (Close.extractCode payload).1 = Close.noStatus then (Close.normal, [])
  else ((Close.extractCode payload).1, (Close.extractReason payload).1)

/-- A close frame can always be answered. -/
theorem closable_acknowledgement {payload : Bytes} (hshort : payload.length ≤ 125) :
    Processor.Closable (acknowledgement payload).1 (acknowledgement payload).2 := by
  rw [acknowledgement]
  split
  · exact by decide
  · next hcode =>
      split
      · exact by decide
      · split
        · exact by decide
        · next hstatus =>
            rw [Processor.Closable, if_neg hstatus]
            rcases payload with _ | ⟨c0, _ | ⟨c1, reason⟩⟩
            · exact absurd rfl hstatus
            · exact absurd rfl hcode
            · obtain ⟨hreserved, hinvalid⟩ := Close.valid_of_extractCode hcode
              refine ⟨hreserved, hinvalid, ?_⟩
              have hreason : (Close.extractReason (c0 :: c1 :: reason)).1.length ≤ reason.length := by
                simp only [Close.extractReason]
                split
                · exact Nat.le_refl _
                · exact Nat.zero_le _
              have hlen : reason.length + 2 ≤ 125 := hshort
              exact hreason.trans (Nat.le_of_add_le_add_right hlen)

/-- A close frame that can be made is sent. -/
theorem sendCloseFrame_eq {code code' : Close.Status} {reason reason' : Bytes} {ack : Bool}
    (hwith : closeWith c.closeInfo code reason ack = (code', reason'))
    (hclosable : Processor.Closable code' reason') (terminal : Bool) :
    (c.sendCloseFrame S code reason ack terminal).2.state = .closing ∧
      (c.sendCloseFrame S code reason ack terminal).2.closeInfo.wasClean =
        (ack || c.closeInfo.wasClean) ∧
      (c.sendCloseFrame S code reason ack terminal).2.accepted =
        c.accepted ++ [(S.rng c.drawn, .close code' reason')] := by
  have hok : ∃ out, Processor.prepareClose .client (S.rng c.drawn) code' reason'
      (getMessage .text) = .ok out :=
    (Processor.prepareClose_isOk_iff code' reason').mpr hclosable
  obtain ⟨out, hout⟩ := hok
  have hprepare : { c with closeInfo := { c.closeInfo with
      localCode := code', localReason := reason' } }.prepare S (.close code' reason') = .ok out :=
    hout
  simp only [sendCloseFrame, hwith, hprepare, enqueue_eq]
  exact ⟨rfl, rfl, rfl⟩

/-- A close frame that is received ends the time in which the connection is open, and it is
answered if no close frame has been sent. -/
theorem processClose_eq {payload : Bytes} (hshort : payload.length ≤ 125)
    (hstate : c.state = .opened ∨ c.state = .closing) :
    (c.processClose S payload).state = .closing ∧
      (c.processClose S payload).closeInfo.wasClean = true ∧
      (c.state = .opened → (c.processClose S payload).accepted = c.accepted ++
        [(S.rng c.drawn, .close (acknowledgement payload).1 (acknowledgement payload).2)]) := by
  have hclosable := closable_acknowledgement hshort
  rw [acknowledgement] at hclosable
  simp only [processClose, acknowledgement]
  by_cases hcode : (Close.extractCode payload).2.isSome = true
  · simp only [if_pos hcode] at hclosable ⊢
    have hwith : closeWith { c.closeInfo with remoteCode := (Close.extractCode payload).1 }
        Close.protocolError (ascii "Invalid close code") true =
          (Close.protocolError, ascii "Invalid close code") := rfl
    obtain ⟨hclosing, hclean, haccepted⟩ := sendCloseFrame_eq (S := S)
      (c := { c with closeInfo := { c.closeInfo with remoteCode := (Close.extractCode payload).1 } })
      hwith hclosable false
    exact ⟨hclosing, hclean, fun _ => haccepted⟩
  · simp only [if_neg hcode] at hclosable ⊢
    by_cases hreason : (Close.extractReason payload).2.isSome = true
    · simp only [if_pos hreason] at hclosable ⊢
      have hwith : closeWith { c.closeInfo with
            remoteCode := (Close.extractCode payload).1
            remoteReason := (Close.extractReason payload).1 }
          Close.protocolError (ascii "Invalid close reason") true =
            (Close.protocolError, ascii "Invalid close reason") := rfl
      obtain ⟨hclosing, hclean, haccepted⟩ := sendCloseFrame_eq (S := S)
        (c := { c with closeInfo := { c.closeInfo with
          remoteCode := (Close.extractCode payload).1
          remoteReason := (Close.extractReason payload).1 } })
        hwith hclosable false
      exact ⟨hclosing, hclean, fun _ => haccepted⟩
    · simp only [if_neg hreason] at hclosable ⊢
      by_cases hopen : c.state = .opened
      · simp only [if_pos hopen]
        have hecho : closeWith { c.closeInfo with
              remoteCode := (Close.extractCode payload).1
              remoteReason := (Close.extractReason payload).1 } Close.blank [] true =
            if (Close.extractCode payload).1 = Close.noStatus then (Close.normal, [])
            else ((Close.extractCode payload).1, (Close.extractReason payload).1) := rfl
        obtain ⟨hclosing, hclean, haccepted⟩ := sendCloseFrame_eq (S := S)
          (c := { c with closeInfo := { c.closeInfo with
            remoteCode := (Close.extractCode payload).1
            remoteReason := (Close.extractReason payload).1 } })
          hecho hclosable false
        exact ⟨hclosing, hclean, fun _ => haccepted⟩
      · have hclosing : c.state = .closing := hstate.resolve_left hopen
        simp only [hclosing, reduceCtorEq, if_false, true_and, false_implies, and_true]
        refine ⟨?_, ?_⟩
        · split <;> rfl
        · split
          · rfl
          · next hclean => exact Bool.eq_true_of_not_eq_false hclean

/-! ### Moves -/

/-- What a connection sends back at once. -/
structure Replied (S : Setting ρ) (c : Connection ρ) (msg : Message) (d : Connection ρ) : Prop where
  ping : c.state = .opened → msg.opcode = .ping →
    ∃ out, d = (c.receive msg).enqueue (S.rng c.drawn) (.pong msg.payload) out
  close : c.state = .opened ∨ c.state = .closing → msg.opcode = .close →
    d.state = .closing ∧ d.closeInfo.wasClean = true
  acknowledge : c.state = .opened → msg.opcode = .close →
    ∃ key, d.accepted = c.accepted ++
      [(key, .close (acknowledgement msg.payload).1 (acknowledgement msg.payload).2)]

theorem dispatch_close {msg : Message} (hclose : msg.opcode = .close)
    (hstate : c.state = .opened ∨ c.state = .closing) :
    dispatch S msg c = { c with inbox := c.inbox ++ [msg] }.processClose S msg.payload := by
  have hcontrol : msg.opcode.isControl ≠ false := by
    rw [hclose]
    exact Bool.noConfusion
  have hopen : c.state ≠ .closed := by
    rintro hclosed
    rcases hstate with hopened | hclosing
    · cases hclosed.symm.trans hopened
    · cases hclosed.symm.trans hclosing
  rw [dispatch, if_neg hcontrol, processControlFrame, if_neg hopen, if_neg fun h => h.1 hclose,
    if_neg (by rw [hclose]; exact Opcode.noConfusion), if_pos hclose]

theorem dispatch_ping {msg : Message} (hping : msg.opcode = .ping) (hopen : c.state = .opened) :
    dispatch S msg c =
      ({ c with inbox := c.inbox ++ [msg] }.push S (.pong msg.payload)).2 := by
  have hcontrol : msg.opcode.isControl ≠ false := by
    rw [hping]
    exact Bool.noConfusion
  rw [dispatch, if_neg hcontrol, processControlFrame,
    if_neg (by rw [hopen]; exact SessionState.noConfusion), if_neg fun h => h.2 hopen, if_pos hping]
  rfl

theorem push_eq {o : Outgoing} {out : Message} (hopen : c.state = .opened)
    (hout : c.prepare S o = .ok out) :
    (c.push S o).2 = c.enqueue (S.rng c.drawn) o out := by
  rw [push, if_neg (not_not.mpr hopen), hout]

theorem dispatch_replied {msg : Message}
    (hshort : msg.opcode.isControl = true → msg.payload.length ≤ 125) :
    Replied S c msg (dispatch S msg c) := by
  constructor
  · intro hopen hping
    have hcontrol : msg.opcode.isControl = true := by rw [hping]; rfl
    have hreceive : c.receive msg = { c with inbox := c.inbox ++ [msg] } := by
      rw [receive, if_neg]
      intro hdata
      cases hcontrol.symm.trans hdata.1
    have hpong : Opcode.pong.isControl = true := rfl
    obtain ⟨out, hout⟩ := Processor.prepareControl_isOk .client (S.rng c.drawn) hpong
      (hshort hcontrol) (getMessage .text)
    refine ⟨out, ?_⟩
    rw [dispatch_ping hping hopen, hreceive]
    exact push_eq (c := { c with inbox := c.inbox ++ [msg] }) hopen hout
  · intro hstate hclose
    rw [dispatch_close hclose hstate]
    obtain ⟨hclosing, hclean, -⟩ := processClose_eq (S := S)
      (c := { c with inbox := c.inbox ++ [msg] }) (hshort (by rw [hclose]; rfl)) hstate
    exact ⟨hclosing, hclean⟩
  · intro hopen hclose
    rw [dispatch_close hclose (.inl hopen)]
    obtain ⟨-, -, haccepted⟩ := processClose_eq (S := S)
      (c := { c with inbox := c.inbox ++ [msg] }) (hshort (by rw [hclose]; rfl)) (.inl hopen)
    exact ⟨_, haccepted hopen⟩

/-- The event of a shutdown that has completed. -/
def TerminateStatus.event : TerminateStatus → Event
  | .failed => .failed
  | .closed => .closed

/-- What can happen to a connection that has been opened: a handler changes it, or an
operation of the transport completes or is started. -/
inductive Move (S : Setting ρ) : Connection ρ → Connection ρ → Prop where
  | change {c c' : Connection ρ} (h : Change S c c') : Move S c c'
  | receive {c d : Connection ρ} (msg : Message) (h : Changes S (c.receive msg) d)
      (hreply : Replied S c msg d) : Move S c d
  | timer (c : Connection ρ) (i : Nat) (t : Timer) (phase : TimerPhase)
      (ht : c.timers[i]? = some t)
      (hphase : t.phase = .waiting ∧ phase = .expired ∨ t.phase = .cancelled ∧ phase = .done) :
      Move S c { c with timers := c.timers.set i { t with phase := phase } }
  | timeout (c : Connection ρ) (i : Nat) (t : Timer) (ht : c.timers[i]? = some t)
      (hphase : t.phase = .expired) (ec : LibraryError) :
      Move S c ({ c with timers := c.timers.set i { t with phase := .done } }.terminate
        (some (.library ec)))
  | shutdown (c : Connection ρ) (tstat : TerminateStatus) (h : tstat ∈ c.shutdowns) :
      Move S c { c with
        shutdowns := c.shutdowns.erase tstat
        events := c.events ++ [TerminateStatus.event tstat] }
  | beginRead (c : Connection ρ) : Move S c { c with frameReads := c.frameReads - 1 }
  | bytes (c : Connection ρ) (buf : Bytes) : Move S c { c with received := c.received ++ [buf] }
  | endRead (c : Connection ρ) (p : Processor) : Move S c { c with processor := p }.readFrame
  | write (c : Connection ρ) (h : 0 < c.writeTasks) :
      Move S c { c with writeTasks := c.writeTasks - 1 }.writeFrame
  | wrote {c c' : Connection ρ} (ec : Option ErrorCode) (h : 0 < c.frameWrites)
      (hdone : { c with frameWrites := c.frameWrites - 1 }.handleWriteFrame ec = some c') :
      Move S c c'

abbrev Moves (S : Setting ρ) : Connection ρ → Connection ρ → Prop := ReflTransGen (Move S)

theorem Moves.invariant {P : Connection ρ → Prop} (h : Moves S c d) (hc : P c)
    (hstep : ∀ c c', Move S c c' → P c → P c') : P d := by
  induction h with
  | refl => exact hc
  | tail _ hmove ih => exact hstep _ _ hmove ih

theorem Changes.moves (h : Changes S c d) : Moves S c d :=
  h.invariant .refl fun _ _ hchange hmoves => hmoves.tail (.change hchange)

end ExchangeClient.Websocketpp.Connection
