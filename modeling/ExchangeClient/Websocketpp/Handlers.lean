import ExchangeClient.Websocketpp.Sending

/-!
# What the application is told

The handlers of the application: which are called, how often, in what order, and with which
messages. A connection that is not closed always waits for something that is going to
happen.
-/

namespace ExchangeClient.Websocketpp.Connection

variable {ρ : Type} {S : Setting ρ} {c c' d : Connection ρ}

/-! ### Calls of the handlers -/

def isData (msg : Message) : Bool := !msg.opcode.isControl

/-- The message of an event of the message handler. -/
def messageOf : Event → Option Message
  | .message msg => some msg
  | _ => none

/-- The messages that the message handler was given. -/
def delivered (c : Connection ρ) : List Message := c.events.filterMap messageOf

/-- The handlers that an opened connection has called. The handler of a failure can be
called besides the others, when the negotiation of the extensions failed. -/
structure Told (S : Setting ρ) (c : Connection ρ) : Prop where
  settled : c.Settled
  order : c.events.filter (· ≠ .failed) =
    .opened :: c.delivered.map .message ++ List.replicate (c.events.count .closed) .closed
  closed : c.events.count .closed + c.shutdowns.count .closed = if c.state = .closed then 1 else 0
  failed : c.events.count .failed + c.shutdowns.count .failed =
    if (S.reader.negotiateExtensions c.response).isSome then 1 else 0
  messages : ∃ rest, c.inbox.filter isData = c.delivered ++ rest ∧ (c.state = .opened → rest = [])

theorem Opened.told (h : Opened S c) : Told S c where
  settled := h.settled
  order := by
    rw [delivered, h.events]
    rfl
  closed := by
    rw [h.events, h.shutdowns, h.state]
    split <;> rfl
  failed := by
    rw [h.events, h.shutdowns]
    split <;> rfl
  messages := by
    refine ⟨[], ?_, fun _ => rfl⟩
    rw [delivered, h.events, h.blank.inbox]
    rfl

theorem Told.terminate (h : Told S c) (ec : Option ErrorCode) : Told S (c.terminate ec) := by
  have hsettled := h.settled.terminate ec
  have hclosed := h.closed
  have hfailed := h.failed
  obtain ⟨rest, hrest, -⟩ := h.messages
  rw [terminate_eq] at hsettled ⊢
  refine { h with
    settled := hsettled
    closed := ?_
    failed := ?_
    messages := ⟨rest, hrest, SessionState.noConfusion⟩ }
  · rw [if_pos rfl, List.count_append, ← Nat.add_assoc, hclosed]
    cases hstate : c.state with
    | connecting => exact absurd hstate h.settled.state
    | opened => rfl
    | closing => rfl
    | closed => rfl
  · rw [List.count_append, ← Nat.add_assoc, hfailed]
    cases hstate : c.state with
    | connecting => exact absurd hstate h.settled.state
    | opened => rfl
    | closing => rfl
    | closed => rfl

theorem Told.change (h : Told S c) (hchange : Change S c c') : Told S c' := by
  have hsettled := Move.settled (.change hchange) h.settled
  cases hchange with
  | note => exact { h with settled := hsettled }
  | push o out =>
      rw [enqueue_eq] at hsettled ⊢
      exact { h with settled := hsettled }
  | close code reason out ack terminal hstate =>
      obtain ⟨rest, hrest, -⟩ := h.messages
      rw [enqueue_eq] at hsettled ⊢
      have hnot : c.state ≠ .closed := by
        rcases hstate with hopen | hclosing
        · rw [hopen]
          exact SessionState.noConfusion
        · rw [hclosing]
          exact SessionState.noConfusion
      exact { h with
        settled := hsettled
        closed := h.closed.trans (if_neg hnot)
        messages := ⟨rest, hrest, SessionState.noConfusion⟩ }
  | clean => exact { h with settled := hsettled }
  | terminate ec => exact h.terminate ec

theorem Told.receive (h : Told S c) (msg : Message) : Told S (c.receive msg) := by
  obtain ⟨rest, hrest, hopen⟩ := h.messages
  have hinbox : (c.receive msg).inbox.filter isData =
      c.delivered ++ rest ++ [msg].filter isData := by
    rw [← hrest]
    exact List.filter_append _ _
  by_cases hdata : msg.opcode.isControl = false ∧ c.state = .opened
  · -- the message handler is called, the connection being open
    obtain ⟨hcontrol, hstate⟩ := hdata
    have hevents : (c.receive msg).events = c.events ++ [.message msg] :=
      if_pos ⟨hcontrol, hstate⟩
    have hnone : c.events.count .closed = 0 := by
      have hcount := h.closed
      rw [hstate, if_neg (by decide)] at hcount
      exact Nat.eq_zero_of_add_eq_zero_right hcount
    have hdelivered : (c.receive msg).delivered = c.delivered ++ [msg] := by
      rw [delivered, hevents, List.filterMap_append]
      rfl
    have hdataMsg : isData msg = true := by rw [isData, hcontrol]; rfl
    constructor
    · exact { h.settled with }
    · rw [hevents, List.filter_append, h.order, hdelivered, List.count_append, hnone,
        List.map_append]
      simp
    · rw [hevents, List.count_append]
      exact h.closed
    · rw [hevents, List.count_append]
      exact h.failed
    · refine ⟨[], ?_, fun _ => rfl⟩
      rw [hinbox, hopen hstate, hdelivered, List.append_nil, List.append_nil]
      simp [hdataMsg]
  · have hevents : (c.receive msg).events = c.events := if_neg hdata
    have hdelivered : (c.receive msg).delivered = c.delivered := by
      rw [delivered, hevents]
      rfl
    constructor
    · exact { h.settled with }
    · rw [hevents, hdelivered]
      exact h.order
    · rw [hevents]
      exact h.closed
    · rw [hevents]
      exact h.failed
    · refine ⟨rest ++ [msg].filter isData, ?_, ?_⟩
      · rw [hinbox, hdelivered, List.append_assoc]
      · intro hstate
        have hcontrol : isData msg = false := by
          rw [isData, Bool.not_eq_false', ← Bool.not_eq_false]
          exact fun hcontrol => hdata ⟨hcontrol, hstate⟩
        rw [hopen hstate]
        simp [hcontrol]

theorem Told.shutdown (h : Told S c) {tstat : TerminateStatus} (hmem : tstat ∈ c.shutdowns) :
    Told S { c with
      shutdowns := c.shutdowns.erase tstat
      events := c.events ++ [TerminateStatus.event tstat] } := by
  have hpos : 0 < c.shutdowns.count tstat := List.count_pos_iff.mpr hmem
  have hdelivered : (c.events ++ [TerminateStatus.event tstat]).filterMap messageOf =
      c.delivered := by
    rw [List.filterMap_append, delivered]
    cases tstat <;> exact List.append_nil _
  have hclosed := h.closed
  have hfailed := h.failed
  constructor
  · exact { h.settled with }
  · change (c.events ++ [TerminateStatus.event tstat]).filter _ =
      .opened :: List.map _ (List.filterMap messageOf _) ++ List.replicate (List.count _ _) _
    rw [hdelivered, List.filter_append, h.order, List.count_append]
    cases tstat with
    | failed => simp [TerminateStatus.event]
    | closed => simp [TerminateStatus.event, List.replicate_add]
  · change (c.events ++ _).count _ + (c.shutdowns.erase tstat).count _ = if c.state = _ then 1 else 0
    rw [← hclosed, List.count_append, List.count_erase]
    cases tstat with
    | failed => simp [TerminateStatus.event]
    | closed =>
        simp only [TerminateStatus.event, List.count_singleton_self, beq_self_eq_true, if_true]
        omega
  · change (c.events ++ _).count _ + (c.shutdowns.erase tstat).count _ = if _ then 1 else 0
    rw [← hfailed, List.count_append, List.count_erase]
    cases tstat with
    | failed =>
        simp only [TerminateStatus.event, List.count_singleton_self, beq_self_eq_true, if_true]
        omega
    | closed => simp [TerminateStatus.event]
  · change ∃ rest, c.inbox.filter isData = (c.events ++ _).filterMap messageOf ++ rest ∧ _
    rw [hdelivered]
    exact h.messages

theorem Told.move (h : Told S c) (hmove : Move S c c') : Told S c' := by
  have hsettled := hmove.settled h.settled
  cases hmove with
  | change hchange => exact h.change hchange
  | receive msg hchanges =>
      exact hchanges.invariant (h.receive msg) fun _ _ hchange htold => htold.change hchange
  | timer i t phase => exact { h with settled := hsettled }
  | timeout i t =>
      have hset : Told S { c with timers := c.timers.set i { t with phase := .done } } :=
        { h with settled := { h.settled with } }
      exact hset.terminate _
  | shutdown tstat hmem => exact h.shutdown hmem
  | beginRead => exact { h with settled := hsettled }
  | bytes buf => exact { h with settled := hsettled }
  | endRead p => exact { h with settled := hsettled }
  | write =>
      rw [writeFrame_eq] at hsettled ⊢
      split at hsettled
      · next hflag =>
          rw [if_pos hflag]
          exact { h with settled := hsettled }
      · next hflag =>
          rw [if_neg hflag]
          exact { h with settled := hsettled }
  | wrote ec hpos hdone =>
      obtain ⟨last, -, ⟨-, rfl⟩ | ⟨-, -, rfl⟩⟩ := handleWriteFrame_cases hdone
      · have hset : Told S { c with frameWrites := c.frameWrites - 1, currentMsgs := [] } :=
          { h with settled := { h.settled with } }
        exact hset.terminate _
      · exact { h with settled := hsettled }

theorem Told.closed_le (h : Told S c) : c.events.count .closed ≤ 1 := by
  have hclosed := h.closed
  split at hclosed <;> omega

theorem told_of_run {response : ρ} {actions : List Action}
    (h : run S (init response) actions = some c) (hc : c.internalState = .processConnection) :
    Told S c :=
  opened_invariant (P := Told S) (fun _ hopened => hopened.told)
    (fun _ _ hmove htold => htold.move hmove) h hc

/-- In every run in which the negotiation of the extensions does not fail: the application
is told of a failure, or that the connection is open, of messages, and that the connection
is closed, in this order and once each. -/
theorem handlers_called {response : ρ} {actions : List Action}
    (h : run S (init response) actions = some c)
    (hneg : c.internalState = .processConnection →
      S.reader.negotiateExtensions c.response = none) :
    c.events = [] ∨ c.events = [.failed] ∨ ∃ msgs : List Message,
      c.events = .opened :: msgs.map .message ∨
        c.events = .opened :: msgs.map .message ++ [.closed] := by
  by_cases hc : c.internalState = .processConnection
  · have htold := told_of_run h hc
    have hfailed := htold.failed
    rw [hneg hc] at hfailed
    have hnone : c.events.count .failed = 0 := Nat.eq_zero_of_add_eq_zero_right hfailed
    have hall : c.events.filter (· ≠ .failed) = c.events := by
      rw [List.filter_eq_self]
      intro e he
      rw [decide_eq_true_eq]
      rintro rfl
      exact absurd he (List.count_eq_zero.mp hnone)
    have horder := htold.order
    rw [hall] at horder
    refine .inr (.inr ⟨c.delivered, ?_⟩)
    rcases Nat.le_one_iff_eq_zero_or_eq_one.mp htold.closed_le with hzero | hone
    · left
      rwa [hzero, List.replicate_zero, List.append_nil] at horder
    · right
      rwa [hone, List.replicate_one] at horder
  · rcases run_proceeds h with ⟨hearly, -⟩ | ⟨d, hopened, hmoves, -⟩
    · rcases hearly.failing with ⟨-, -, hevents⟩ | ⟨-, ⟨-, hevents⟩ | ⟨-, hevents⟩⟩
      · exact .inl hevents
      · exact .inl hevents
      · exact .inr (.inl hevents)
    · exact absurd (hmoves.settled hopened.settled).internalState hc

theorem handlers_called_example :
    sampleRun.events = [] ∨ sampleRun.events = [.failed] ∨ ∃ msgs : List Message,
      sampleRun.events = .opened :: msgs.map .message ∨
        sampleRun.events = .opened :: msgs.map .message ++ [.closed] :=
  handlers_called run_sampleActions fun _ => rfl

/-- The negotiation fails, and the connection is opened all the same: the application is
told that it is open and that it has failed. Otherwise it is not told of a failure after
the connection has been opened. -/
theorem failed_although_opened {response : ρ} {actions : List Action}
    (h : run S (init response) actions = some c) (hc : c.internalState = .processConnection) :
    .opened ∈ c.events ∧
      (.failed ∈ c.events ∨ .failed ∈ c.shutdowns ↔
        (S.reader.negotiateExtensions c.response).isSome = true) := by
  have htold := told_of_run h hc
  have hfailed := htold.failed
  constructor
  · have hmem : Event.opened ∈ c.events.filter (· ≠ .failed) := by
      rw [htold.order]
      exact List.mem_cons_self
    exact List.mem_of_mem_filter hmem
  · rw [← List.count_pos_iff, ← List.count_pos_iff, ← Nat.add_pos_iff_pos_or_pos, hfailed]
    split
    · next hneg => simp [hneg]
    · next hneg => simp [hneg]

theorem failed_although_opened_example :
    .opened ∈ sampleRun.events ∧
      (.failed ∈ sampleRun.events ∨ .failed ∈ sampleRun.shutdowns ↔
        (Setting.sample.reader.negotiateExtensions sampleRun.response).isSome = true) :=
  failed_although_opened run_sampleActions (by decide +kernel)

/-! ### Something is always going to happen -/

/-- While it is closing, a connection is guarded by a timer. -/
def Guarded (c : Connection ρ) : Prop := c.state = .closing → c.Alive .closeHandshakeTimeout

theorem guarded_of_closed (h : c.state = .closed) : c.Guarded := by
  intro hclosing
  cases h.symm.trans hclosing

theorem guarded_change (h : c.Guarded) (hchange : Change S c c') : c'.Guarded := by
  cases hchange with
  | note => exact h
  | push o out hopen =>
      rw [enqueue_eq]
      intro hclosing
      cases hopen.symm.trans hclosing
  | close code reason out ack terminal =>
      rw [enqueue_eq]
      intro _
      exact ⟨c.timers.length, ⟨.closeHandshakeTimeout, .waiting⟩, rfl,
        List.getElem?_concat_length, rfl, .inl rfl⟩
  | clean => exact h
  | terminate ec => exact guarded_of_closed (state_terminate c ec)

theorem guarded_move (h : c.Guarded) (hmove : Move S c c') : c'.Guarded := by
  cases hmove with
  | change hchange => exact guarded_change h hchange
  | receive msg hchanges =>
      exact hchanges.invariant (P := Guarded) h fun _ _ hchange hguarded =>
        guarded_change hguarded hchange
  | timer i t phase ht hphase => exact fun hclosing => Alive.elapse (h hclosing) ht hphase
  | timeout i t => exact guarded_of_closed (state_terminate _ _)
  | shutdown tstat => exact h
  | beginRead => exact h
  | bytes buf => exact h
  | endRead p => exact h
  | write =>
      rw [writeFrame_eq]
      split <;> exact h
  | wrote ec hpos hdone =>
      obtain ⟨last, -, ⟨-, rfl⟩ | ⟨-, -, rfl⟩⟩ := handleWriteFrame_cases hdone
      · exact guarded_of_closed (state_terminate _ _)
      · exact h

/-- In every run, whatever the state of the connection, something outstanding leads on: an
operation of the opening handshake, a read, a timer that limits the closing handshake, or
the shutdown of the transport, unless the application has been told of the end. -/
theorem always_waiting {response : ρ} {actions : List Action}
    (h : run S (init response) actions = some c) :
    match c.state with
    | .connecting => c.connects + c.inits + c.requestWrites + c.responseReads = 1
    | .opened => c.frameReads = 1
    | .closing => c.Alive .closeHandshakeTimeout
    | .closed => c.shutdowns ≠ [] ∨ .failed ∈ c.events ∨ .closed ∈ c.events := by
  rcases run_proceeds h with ⟨hearly, hpending⟩ | ⟨d, hopened, hmoves, hreading⟩
  · rcases hearly.failing with ⟨hstate, -⟩ | ⟨hstate, ⟨hshutdowns, -⟩ | ⟨-, hevents⟩⟩
    · rw [hstate]
      exact hpending.operation hstate
    · rw [hstate, hshutdowns]
      exact .inl (List.cons_ne_nil _ _)
    · rw [hstate, hevents]
      exact .inr (.inl (List.mem_singleton_self _))
  · have htold : Told S c :=
      hmoves.invariant (P := Told S) hopened.told fun _ _ hmove htold => htold.move hmove
    have hguarded : c.Guarded := by
      refine hmoves.invariant (P := Guarded) ?_ fun _ _ hmove hguarded => guarded_move hguarded hmove
      intro hclosing
      cases hopened.state.symm.trans hclosing
    cases hstate : c.state with
    | connecting => exact absurd hstate htold.settled.state
    | opened => exact hreading.opened hstate
    | closing => exact hguarded hstate
    | closed =>
        have hclosed := htold.closed
        rw [if_pos hstate] at hclosed
        by_cases hevent : Event.closed ∈ c.events
        · exact .inr (.inr hevent)
        · left
          rw [List.count_eq_zero.mpr hevent, Nat.zero_add] at hclosed
          exact List.ne_nil_of_mem (List.count_pos_iff.mp (hclosed ▸ Nat.one_pos))

theorem always_waiting_example :
    match sampleRun.state with
    | .connecting => sampleRun.connects + sampleRun.inits + sampleRun.requestWrites +
        sampleRun.responseReads = 1
    | .opened => sampleRun.frameReads = 1
    | .closing => sampleRun.Alive .closeHandshakeTimeout
    | .closed => sampleRun.shutdowns ≠ [] ∨ .failed ∈ sampleRun.events ∨
        .closed ∈ sampleRun.events :=
  always_waiting run_sampleActions

/-- In every run, every operation that is outstanding can complete, with any result: the
loops of the handlers end, and a handler of a write always finds the messages that were
written. -/
theorem always_completes {response : ρ} {actions : List Action}
    (h : run S (init response) actions = some c) :
    (0 < c.frameWrites → ∀ ec, (step S c (.wroteFrames ec)).isSome = true) ∧
      (0 < c.frameReads → ∀ result, Transferable result →
        (step S c (.readFrame result)).isSome = true) ∧
      (0 < c.responseReads → ∀ result, Transferable result →
        (step S c (.readResponse result)).isSome = true) := by
  refine ⟨?_, ?_, ?_⟩
  · intro hpos ec
    have hqueue := queue_of_run h
    have hcurrent : c.currentMsgs ≠ [] := by
      by_cases hflag : c.writeFlag = true
      · rcases hqueue.busy hflag with ⟨-, hcurrent⟩ | ⟨hzero, -⟩
        · exact hcurrent
        · exact absurd hpos (Nat.not_lt.mpr (Nat.le_of_eq hzero))
      · have hzero := (hqueue.idle (Bool.eq_false_of_not_eq_true hflag)).2
        exact absurd hpos (Nat.not_lt.mpr (Nat.le_of_eq hzero))
    simp only [step, if_pos hpos, handleWriteFrame, Option.isSome_map]
    rwa [List.getLast?_isSome]
  · intro hpos result hresult
    rcases run_proceeds h with ⟨hearly, -⟩ | ⟨d, hopened, hmoves, hreading⟩
    · rw [hearly.blank.frameReads] at hpos
      exact absurd hpos (Nat.lt_irrefl 0)
    · obtain ⟨d, hd, -⟩ := handleReadFrame_spec (S := S) (hmoves.settled hopened.settled)
        hreading hpos (result.mapError .transport)
      rw [step, if_pos ⟨hpos, hresult⟩, hd]
      rfl
  · intro hpos result hresult
    rcases run_proceeds h with ⟨hearly, hpending⟩ | ⟨d, hopened, hmoves, hreading⟩
    · obtain ⟨d, hd, -⟩ := hearly.readResponse hpending hpos (result.mapError .transport)
      rw [step, if_pos ⟨hpos, hresult⟩, hd]
      rfl
    · rw [(hmoves.settled hopened.settled).responseReads] at hpos
      exact absurd hpos (Nat.lt_irrefl 0)

theorem always_completes_example :
    (0 < sampleRun.frameWrites → ∀ ec, (step .sample sampleRun (.wroteFrames ec)).isSome = true) ∧
      (0 < sampleRun.frameReads → ∀ result, Transferable result →
        (step .sample sampleRun (.readFrame result)).isSome = true) ∧
      (0 < sampleRun.responseReads → ∀ result, Transferable result →
        (step .sample sampleRun (.readResponse result)).isSome = true) :=
  always_completes run_sampleActions

/-! ### From the peer to the application -/

theorem foldl_log (msgs log : List Message) :
    msgs.foldl (fun log msg => log ++ [msg]) log = log ++ msgs := by
  induction msgs generalizing log with
  | nil => exact (List.append_nil log).symm
  | cons msg msgs ih =>
      rw [List.foldl_cons, ih, List.append_assoc]
      rfl

theorem inbox_of_run {response : ρ} {actions : List Action}
    (h : run S (init response) actions = some c) (hc : c.internalState = .processConnection) :
    ∃ result, handleReads .client (fun msg log => log ++ [msg]) .init [] c.received =
      some (c.inbox, result) := by
  rcases run_proceeds h with ⟨hearly, -⟩ | ⟨d, -, -, hreading⟩
  · exact absurd hc hearly.unfinished
  · refine ⟨((Processor.reader .client).read .init c.received.flatten).2, ?_⟩
    rw [handleReads_eq _ Processor.represents_init.inv (by decide), hreading.inbox, foldl_log]
    rfl

end ExchangeClient.Websocketpp.Connection
