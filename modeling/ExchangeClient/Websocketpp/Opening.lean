import ExchangeClient.Websocketpp.Lifecycle
import ExchangeClient.Websocketpp.Limits

/-!
# Before a connection is opened, and after

Every run of a connection consists of its opening handshake, in which nothing can be sent
or delivered, and of the moves of an opened connection.
-/

namespace ExchangeClient.Websocketpp.Connection

open Relation Processor

variable {ρ : Type} {S : Setting ρ} {c c' d : Connection ρ}

/-! ### The two parts of a run -/

/-- Nothing has been sent or received. -/
structure Blank (c : Connection ρ) : Prop where
  processor : c.processor = .init
  sendQueue : c.sendQueue = []
  sendBufferSize : c.sendBufferSize = 0
  currentMsgs : c.currentMsgs = []
  writeFlag : c.writeFlag = false
  wasClean : c.closeInfo.wasClean = false
  drawn : c.drawn = 0
  frameReads : c.frameReads = 0
  frameWrites : c.frameWrites = 0
  writeTasks : c.writeTasks = 0
  received : c.received = []
  inbox : c.inbox = []
  accepted : c.accepted = []
  pushed : c.pushed = []
  written : c.written = []

/-- A timer that has not been cancelled and has not called its handler. -/
def Alive (c : Connection ρ) (handler : TimerHandler) : Prop :=
  ∃ i t, c.handshakeTimer = some i ∧ c.timers[i]? = some t ∧ t.handler = handler ∧
    (t.phase = .waiting ∨ t.phase = .expired)

/-- How the opening handshake can have ended so far. -/
def Failing (c : Connection ρ) : Prop :=
  c.state = .connecting ∧ c.shutdowns = [] ∧ c.events = [] ∨
    c.state = .closed ∧
      (c.shutdowns = [.failed] ∧ c.events = [] ∨ c.shutdowns = [] ∧ c.events = [.failed])

/-- A connection in its opening handshake: one operation leads to the next. -/
structure Early (S : Setting ρ) (c : Connection ρ) : Prop where
  blank : c.Blank
  failing : c.Failing
  connects : c.connects ≤ if c.internalState = .userInit then 1 else 0
  inits : c.inits ≤ if c.internalState = .transportInit then 1 else 0
  requestWrites : c.requestWrites ≤ if c.internalState = .writeHttpRequest then 1 else 0
  responseReads : c.responseReads ≤ if c.internalState = .readHttpResponse then 1 else 0
  unfinished : c.internalState ≠ .processConnection
  sent : c.sent = if c.internalState = .userInit ∨ c.internalState = .transportInit then []
    else S.request

/-- An operation of the opening handshake is outstanding, and as soon as the request is
being written a timer limits the time it takes. -/
structure Pending (c : Connection ρ) : Prop where
  operation : c.state = .connecting →
    c.connects + c.inits + c.requestWrites + c.responseReads = 1
  timer : c.state = .connecting →
    c.internalState = .writeHttpRequest ∨ c.internalState = .readHttpResponse →
      c.Alive .openHandshakeTimeout

/-- A connection whose open handler is about to run. -/
structure Opened (S : Setting ρ) (c : Connection ρ) : Prop where
  blank : c.Blank
  state : c.state = .opened
  internalState : c.internalState = .processConnection
  connects : c.connects = 0
  inits : c.inits = 0
  requestWrites : c.requestWrites = 0
  responseReads : c.responseReads = 0
  sent : c.sent = S.request
  events : c.events = [.opened]
  shutdowns : c.shutdowns =
    if (S.reader.negotiateExtensions c.response).isSome then [.failed] else []

/-- An error of the processor has been reported to the server. -/
def Reported (c : Connection ρ) (ec : ProcessorError) : Prop :=
  ∃ key, (key, .close ec.toWs ec.message) ∈ c.accepted

/-- What the processor has made of the bytes that were read, and whether it will be given
more. -/
structure Reading (c : Connection ρ) : Prop where
  count : c.frameReads ≤ 1
  opened : c.state = .opened → c.frameReads = 1
  inbox : ((reader .client).read .init c.received.flatten).1 = c.inbox
  processor : c.frameReads = 1 →
    ((reader .client).read .init c.received.flatten).2 = .ok c.processor
  refused : c.state = .closing → ∀ ec,
    ((reader .client).read .init c.received.flatten).2 = .error ec → c.Reported ec

/-! ### Reading -/

theorem dispatch_spec {msg : Message} (hstarted : c.state ≠ .connecting)
    (hshort : msg.opcode.isControl = true → msg.payload.length ≤ 125) :
    Moves S c (dispatch S msg c) ∧ Unmoved (c.receive msg) (dispatch S msg c) ∧
      (dispatch S msg c).state ≠ .connecting := by
  have hchanges := dispatch_changes (S := S) msg hstarted
  exact ⟨.single (.receive msg hchanges (dispatch_replied hshort)), hchanges.unmoved,
    hchanges.started hstarted⟩

/-- The messages that are read are received one after the other. -/
theorem dispatchAll_spec {out : List Message} (hstarted : c.state ≠ .connecting)
    (hshort : ∀ msg ∈ out, msg.opcode.isControl = true → msg.payload.length ≤ 125) :
    let d := out.foldl (fun c msg => dispatch S msg c) c
    Moves S c d ∧ d.inbox = c.inbox ++ out ∧ d.received = c.received ∧
      d.frameReads = c.frameReads ∧ d.state ≠ .connecting := by
  induction out generalizing c with
  | nil => exact ⟨.refl, (List.append_nil _).symm, rfl, rfl, hstarted⟩
  | cons msg out ih =>
      obtain ⟨hmoves, hsame, hnext⟩ :=
        dispatch_spec (S := S) hstarted (hshort msg List.mem_cons_self)
      obtain ⟨hrest, hinbox, hreceived, hreads, hend⟩ :=
        ih hnext fun msg hmem => hshort msg (List.mem_cons_of_mem _ hmem)
      refine ⟨hmoves.trans hrest, ?_, hreceived.trans hsame.received,
        hreads.trans hsame.frameReads, hend⟩
      rw [List.foldl_cons, hinbox, hsame.inbox, receive, List.append_assoc]
      rfl

/-- An error of the processor can be reported. -/
theorem closable_toWs (ec : ProcessorError) : Processor.Closable ec.toWs ec.message := by
  obtain ⟨hreserved, hinvalid, -, hshort, -⟩ := ec.toWs_spec
  rw [Processor.Closable, if_neg]
  · exact ⟨hreserved, hinvalid, hshort⟩
  · intro hnone
    rw [hnone] at hinvalid
    exact absurd hinvalid (by decide)

theorem close_toWs (hopen : c.state = .opened) (ec : ProcessorError) :
    (c.close S ec.toWs ec.message).2.Reported ec := by
  obtain ⟨-, hinvalid, -, hshort, -⟩ := ec.toWs_spec
  have hcode : ec.toWs ≠ Close.blank := by
    intro hblank
    rw [hblank] at hinvalid
    exact absurd hinvalid (by decide)
  have hwith : closeWith c.closeInfo ec.toWs (ec.message.take 123) false =
      (ec.toWs, ec.message) := by
    rw [closeWith, if_pos hcode, List.take_of_length_le hshort]
  obtain ⟨-, -, haccepted⟩ :=
    sendCloseFrame_eq (S := S) hwith (closable_toWs ec) (Close.terminal ec.toWs)
  rw [close, if_neg (not_not.mpr hopen), Reported, haccepted]
  exact ⟨_, List.mem_append_right _ (List.mem_singleton_self _)⟩

/-- After an error of the processor the connection is not open, and unless it is closed the
error has been reported. -/
theorem afterFrames_error (c : Connection ρ) (ec : ProcessorError) :
    Changes S c (c.afterFrames S (.error ec)) ∧
      (c.afterFrames S (.error ec)).state ≠ .opened ∧
      ((c.afterFrames S (.error ec)).state = .closing →
        (c.afterFrames S (.error ec)).Reported ec) := by
  have hclose := close_changes (S := S) c ec.toWs ec.message
  have hstate : (c.close S ec.toWs ec.message).1 = none →
      (c.close S ec.toWs ec.message).2.state = .closing := state_of_close
  have hreport : (c.close S ec.toWs ec.message).1 = none →
      (c.close S ec.toWs ec.message).2.Reported ec := by
    intro hnone
    refine close_toWs ?_ ec
    by_contra hopen
    rw [close, if_pos hopen] at hnone
    cases hnone
  simp only [afterFrames]
  rcases hresult : c.close S ec.toWs ec.message with ⟨closeEc | closeEc, d⟩
  · rw [hresult] at hclose hstate hreport
    refine ⟨hclose, ?_, fun _ => hreport rfl⟩
    rw [hstate rfl]
    exact SessionState.noConfusion
  · rw [hresult] at hclose
    have hclosed : (d.terminate (some closeEc)).state = .closed := state_terminate d _
    refine ⟨hclose.tail (.terminate d _), ?_, ?_⟩
    · change (d.terminate _).state ≠ .opened
      rw [hclosed]
      exact SessionState.noConfusion
    · intro hclosing
      cases hclosed.symm.trans hclosing

/-- The control messages that are read are short. -/
theorem short_of_read {bytes : Bytes} {msg : Message}
    (hmem : msg ∈ ((reader .client).read .init bytes).1) (hcontrol : msg.opcode.isControl = true) :
    msg.payload.length ≤ 125 := by
  have hkeeps := (read_init_keeps .client bytes).1 msg hmem
  rwa [Delivered, if_pos hcontrol] at hkeeps

/-- What is read of all the bytes, when some more have come. -/
theorem read_received
    (hread : (reader .client).read .init c.received.flatten = (c.inbox, .ok c.processor))
    (buf : Bytes) :
    (reader .client).read .init (c.received ++ [buf]).flatten =
      (c.inbox ++ ((reader .client).read c.processor buf).1,
        ((reader .client).read c.processor buf).2) := by
  rw [List.flatten_append, List.flatten_singleton,
    FieldReader.read_append (reader_lawful .client) represents_init.inv, hread]
  rfl

/-- The messages in the bytes are received, and the processor is left or its error told. -/
theorem handleFrames_eq
    (hread : (reader .client).read .init c.received.flatten = (c.inbox, .ok c.processor))
    (buf : Bytes) :
    c.handleFrames S buf =
      some ((((reader .client).read c.processor buf).1.foldl (fun c msg => dispatch S msg c)
        { c with received := c.received ++ [buf] }).afterFrames S
          ((reader .client).read c.processor buf).2) := by
  obtain ⟨hinv, hneed⟩ := FieldReader.read_ok (reader_lawful .client) represents_init.inv
    (congrArg Prod.snd hread)
  rw [handleFrames, readFrames_eq _ hinv hneed]
  rfl

/-- Bytes are processed: after an error nothing more is read, and the connection is not
open any longer. -/
theorem handleFrames_spec (hstarted : c.state ≠ .connecting) (hreads : c.frameReads = 0)
    (hread : (reader .client).read .init c.received.flatten = (c.inbox, .ok c.processor))
    (buf : Bytes) :
    ∃ c', c.handleFrames S buf = some c' ∧ Moves S c c' ∧ c'.Reading := by
  have hall := read_received hread buf
  have hrun := handleFrames_eq (S := S) hread buf
  rcases hbuf : (reader .client).read c.processor buf with ⟨out, result⟩
  rw [hbuf] at hall hrun
  have hshort : ∀ msg ∈ out, msg.opcode.isControl = true → msg.payload.length ≤ 125 := by
    intro msg hmem
    have hread' : msg ∈ ((reader .client).read .init (c.received ++ [buf]).flatten).1 := by
      rw [hall]
      exact List.mem_append_right _ hmem
    exact short_of_read hread'
  let c₁ : Connection ρ := { c with received := c.received ++ [buf] }
  obtain ⟨hmoves, hinbox, hreceived, hcount, hend⟩ :=
    dispatchAll_spec (S := S) (c := c₁) hstarted hshort
  refine ⟨_, hrun, ?_⟩
  have hbytes : Moves S c (out.foldl (fun c msg => dispatch S msg c) c₁) :=
    hmoves.head (.bytes c buf)
  cases result with
  | ok p =>
      refine ⟨hbytes.tail (.endRead _ p), ?_⟩
      constructor
      · exact Nat.succ_le_succ (Nat.le_of_eq (hcount.trans hreads))
      · exact fun _ => congrArg Nat.succ (hcount.trans hreads)
      · change ((reader .client).read .init (out.foldl _ c₁).received.flatten).1 =
          (out.foldl _ c₁).inbox
        rw [hreceived, hinbox]
        exact congrArg Prod.fst hall
      · intro _
        change ((reader .client).read .init (out.foldl _ c₁).received.flatten).2 = .ok p
        rw [hreceived]
        exact congrArg Prod.snd hall
      · intro _ ec hec
        change ((reader .client).read .init (out.foldl _ c₁).received.flatten).2 = .error ec at hec
        rw [hreceived] at hec
        cases (congrArg Prod.snd hall).symm.trans hec
  | error ec =>
      obtain ⟨hchanges, hclosed, hreport⟩ := afterFrames_error (S := S)
        (out.foldl (fun c msg => dispatch S msg c) c₁) ec
      have hsame := hchanges.unmoved
      have hzero := hsame.frameReads.trans (hcount.trans hreads)
      refine ⟨hbytes.trans hchanges.moves, ?_⟩
      constructor
      · exact Nat.le_of_eq hzero |>.trans (Nat.zero_le 1)
      · exact fun hopen => absurd hopen hclosed
      · rw [hsame.received, hsame.inbox, hreceived, hinbox]
        exact congrArg Prod.fst hall
      · intro hone
        exact absurd (hzero.symm.trans hone) Nat.zero_ne_one
      · intro hclosing ec' hec
        rw [hsame.received, hreceived] at hec
        obtain rfl := Except.error.inj ((congrArg Prod.snd hall).symm.trans hec)
        exact hreport hclosing

/-! ### The opening handshake -/

theorem perform_of_not_opened (hopen : c.state ≠ .opened) (call : Call) :
    (c.perform S call).2 = c := by
  cases call <;> simp only [perform, send, ping, pong, push, close, if_pos hopen]

theorem notify_of_not_opened (hopen : c.state ≠ .opened) (e : Event) :
    c.notify S e = { c with events := c.events ++ [e] } := by
  have hcalls : ∀ (calls : List Call) (c : Connection ρ), c.state ≠ .opened →
      calls.foldl (fun c call => (c.perform S call).2) c = c := by
    intro calls
    induction calls with
    | nil => exact fun _ _ => rfl
    | cons call calls ih =>
        intro c hc
        rw [List.foldl_cons, perform_of_not_opened hc]
        exact ih c hc
  exact hcalls _ _ hopen

theorem Failing.not_opened (h : c.Failing) : c.state ≠ .opened := by
  rcases h with ⟨hstate, -⟩ | ⟨hstate, -⟩ <;>
  · rw [hstate]
    exact SessionState.noConfusion

theorem pending_of_closed (hclosed : c.state = .closed) : c.Pending := by
  constructor <;>
  · intro hstate
    cases hclosed.symm.trans hstate

theorem wasClean_noteError (c : Connection ρ) (ec : Option ErrorCode) :
    (c.noteError ec).closeInfo.wasClean = c.closeInfo.wasClean := by
  cases ec <;> rfl

theorem Blank.terminate (h : c.Blank) (ec : Option ErrorCode) : (c.terminate ec).Blank := by
  rw [terminate_eq]
  exact { h with wasClean := (wasClean_noteError c ec).trans h.wasClean }

theorem Failing.terminate (h : c.Failing) (ec : Option ErrorCode) : (c.terminate ec).Failing := by
  rw [terminate_eq]
  right
  rcases h with ⟨hstate, hshutdowns, hevents⟩ | ⟨hstate, hends⟩
  · refine ⟨rfl, .inl ⟨?_, hevents⟩⟩
    simp only [hstate, hshutdowns, shutdownOf, List.nil_append]
  · refine ⟨rfl, ?_⟩
    simpa only [hstate, shutdownOf, List.append_nil] using hends

theorem Early.terminate (h : Early S c) (ec : Option ErrorCode) :
    Early S (c.terminate ec) ∧ (c.terminate ec).Pending := by
  have hblank := h.blank.terminate ec
  have hfailing := h.failing.terminate ec
  refine ⟨?_, pending_of_closed (state_terminate c ec)⟩
  rw [terminate_eq] at hblank hfailing ⊢
  exact { h with blank := hblank, failing := hfailing }

theorem terminate_cancelHandshakeTimer (c : Connection ρ) (ec : Option ErrorCode) :
    c.cancelHandshakeTimer.terminate ec = c.terminate ec := by
  have htwice : c.cancelHandshakeTimer.cancelHandshakeTimer = c.cancelHandshakeTimer := by
    simp only [cancelHandshakeTimer_eq]
    rfl
  rw [Connection.terminate, htwice]
  rfl

theorem Early.handleConnect (h : Early S c) (hconnects : c.connects = 0)
    (huser : c.internalState = .userInit) (ec : Option TransportError) :
    Early S (c.handleConnect ec) ∧ (c.handleConnect ec).Pending := by
  have hinits : c.inits = 0 := by simpa [huser] using h.inits
  have hwrites : c.requestWrites = 0 := by simpa [huser] using h.requestWrites
  have hreads : c.responseReads = 0 := by simpa [huser] using h.responseReads
  cases ec with
  | some ec => exact h.terminate _
  | none =>
      rw [Connection.handleConnect, if_neg (not_not.mpr huser)]
      constructor
      · exact { h with
          blank := { h.blank with }
          connects := by simp [hconnects]
          inits := by simp [hinits]
          requestWrites := by simp [hwrites]
          responseReads := by simp [hreads]
          unfinished := InternalState.noConfusion
          sent := by simpa [huser] using h.sent }
      · constructor
        · intro _
          simp [hconnects, hinits, hwrites, hreads]
        · rintro _ (hstate | hstate) <;> cases hstate

theorem Early.handleTransportInit (h : Early S c) (hinits : c.inits = 0)
    (hinternal : c.internalState = .transportInit) (ec : Option TransportError) :
    Early S (c.handleTransportInit S ec) ∧ (c.handleTransportInit S ec).Pending := by
  have hconnects : c.connects = 0 := by simpa [hinternal] using h.connects
  have hwrites : c.requestWrites = 0 := by simpa [hinternal] using h.requestWrites
  have hreads : c.responseReads = 0 := by simpa [hinternal] using h.responseReads
  have hsent : c.sent = [] := by simpa [hinternal] using h.sent
  unfold Connection.handleTransportInit
  rw [if_neg (not_not.mpr hinternal)]
  cases ec with
  | some ec => exact h.terminate _
  | none =>
      constructor
      · exact {
          blank := { h.blank with processor := rfl }
          failing := h.failing
          connects := Nat.le_of_eq hconnects
          inits := Nat.le_of_eq hinits
          requestWrites := Nat.le_of_eq (congrArg Nat.succ hwrites)
          responseReads := Nat.le_of_eq hreads
          unfinished := InternalState.noConfusion
          sent := congrArg (· ++ S.request) hsent }
      · constructor
        · intro _
          change c.connects + c.inits + (c.requestWrites + 1) + c.responseReads = 1
          rw [hconnects, hinits, hwrites, hreads]
        · intro _ _
          exact ⟨c.timers.length, ⟨.openHandshakeTimeout, .waiting⟩, rfl,
            List.getElem?_concat_length, rfl, .inl rfl⟩

theorem check_ignore {expected : InternalState} {ec : Option ErrorCode}
    (h : c.check expected ec = .ignore) : c.state = .closed := by
  cases ec with
  | some ec =>
      simp only [check] at h
      split at h
      · next heof => exact heof.2
      · cases h
  | none =>
      cases hstate : c.state <;> simp only [check, hstate] at h
      · split at h <;> cases h
      · cases h
      · cases h
      · rfl

theorem check_proceed {expected : InternalState} {ec : Option ErrorCode}
    (h : c.check expected ec = .proceed) :
    ec = none ∧ c.state = .connecting ∧ c.internalState = expected := by
  cases ec with
  | some ec =>
      simp only [check] at h
      split at h <;> cases h
  | none =>
      cases hstate : c.state <;> simp only [check, hstate] at h
      · split at h
        · cases h
        · next hsame => exact ⟨rfl, rfl, not_not.mp hsame⟩
      · cases h
      · cases h
      · cases h

theorem Early.handleSendHttpRequest (h : Early S c) (hwrites : c.requestWrites = 0)
    (htimer : c.Alive .openHandshakeTimeout ∨ c.state ≠ .connecting) (ec : Option ErrorCode) :
    Early S (c.handleSendHttpRequest ec) ∧ (c.handleSendHttpRequest ec).Pending := by
  rw [Connection.handleSendHttpRequest]
  cases hcheck : c.check .writeHttpRequest ec with
  | ignore => exact ⟨h, pending_of_closed (check_ignore hcheck)⟩
  | refuse ec => exact h.terminate _
  | proceed =>
      obtain ⟨-, hstate, hinternal⟩ := check_proceed hcheck
      have hconnects : c.connects = 0 := by simpa [hinternal] using h.connects
      have hinits : c.inits = 0 := by simpa [hinternal] using h.inits
      have hreads : c.responseReads = 0 := by simpa [hinternal] using h.responseReads
      have hsent : c.sent = S.request := by simpa [hinternal] using h.sent
      constructor
      · exact {
          blank := { h.blank with }
          failing := h.failing
          connects := Nat.le_of_eq hconnects
          inits := Nat.le_of_eq hinits
          requestWrites := Nat.le_of_eq hwrites
          responseReads := Nat.le_of_eq (congrArg Nat.succ hreads)
          unfinished := InternalState.noConfusion
          sent := hsent }
      · constructor
        · intro _
          change c.connects + c.inits + c.requestWrites + (c.responseReads + 1) = 1
          rw [hconnects, hinits, hwrites, hreads]
        · intro _ _
          exact htimer.resolve_right (not_not.mpr hstate)

/-- The connection whose open handler is about to run, as `c` leaves it. -/
def opening (S : Setting ρ) (c : Connection ρ) : Connection ρ :=
  { (if (S.reader.negotiateExtensions c.response).isSome then
        c.terminate (some (.library .extensionNegFailed))
      else c) with
    internalState := .processConnection
    state := .opened
    events := c.events ++ [.opened] }

theorem Early.opened (h : Early S c) (hstate : c.state = .connecting)
    (hinternal : c.internalState = .readHttpResponse) (hreads : c.responseReads = 0) :
    Opened S (c.opening S) := by
  have hconnects : c.connects = 0 := by simpa [hinternal] using h.connects
  have hinits : c.inits = 0 := by simpa [hinternal] using h.inits
  have hwrites : c.requestWrites = 0 := by simpa [hinternal] using h.requestWrites
  have hsent : c.sent = S.request := by simpa [hinternal] using h.sent
  obtain ⟨hshutdowns, hevents⟩ : c.shutdowns = [] ∧ c.events = [] := by
    rcases h.failing with ⟨-, hfailing⟩ | ⟨hclosed, -⟩
    · exact hfailing
    · cases hstate.symm.trans hclosed
  have hblank := h.blank.terminate (some (.library .extensionNegFailed))
  rw [opening]
  by_cases hneg : (S.reader.negotiateExtensions c.response).isSome = true
  · rw [if_pos hneg]
    rw [terminate_eq] at hblank ⊢
    exact {
      blank := { hblank with }
      state := rfl
      internalState := rfl
      connects := hconnects
      inits := hinits
      requestWrites := hwrites
      responseReads := hreads
      sent := hsent
      events := congrArg (· ++ [Event.opened]) hevents
      shutdowns := by
        simp only [hneg, if_true, hshutdowns, hstate, shutdownOf, List.nil_append] }
  · rw [if_neg hneg]
    exact {
      blank := { h.blank with }
      state := rfl
      internalState := rfl
      connects := hconnects
      inits := hinits
      requestWrites := hwrites
      responseReads := hreads
      sent := hsent
      events := congrArg (· ++ [Event.opened]) hevents
      shutdowns := by simp only [hneg, Bool.false_eq_true, if_false, hshutdowns] }

/-- The open handler runs, and the bytes after the answer of the server are processed. -/
theorem openConnection_spec (hopened : Opened S (c.opening S)) (rest : Bytes) :
    ∃ c', c.openConnection S rest = some c' ∧ Moves S (c.opening S) c' ∧ c'.Reading := by
  obtain ⟨d, hd⟩ : ∃ d, d = { (if (S.reader.negotiateExtensions c.response).isSome then
        c.terminate (some (.library .extensionNegFailed)) else c) with
      internalState := InternalState.processConnection, state := SessionState.opened } := ⟨_, rfl⟩
  have hstart : c.opening S = { d with events := d.events ++ [.opened] } := by
    rw [hd, opening]
    split
    · rw [terminate_eq]
    · rfl
  have hrun : c.openConnection S rest = (d.notify S .opened).handleReadFrame S (.ok rest) := by
    rw [hd]
    rfl
  have hchanges : Changes S (c.opening S) (d.notify S .opened) := by
    rw [hstart]
    exact notify_changes d .opened
  have hsame := hchanges.unmoved
  have hread : (reader .client).read .init (d.notify S .opened).received.flatten =
      ((d.notify S .opened).inbox, .ok (d.notify S .opened).processor) := by
    rw [hsame.received, hsame.inbox, hsame.processor, hopened.blank.received, hopened.blank.inbox,
      hopened.blank.processor]
    exact represents_init.read_nil
  have hstarted : (d.notify S .opened).state ≠ .connecting := by
    apply hchanges.started
    rw [hopened.state]
    exact SessionState.noConfusion
  obtain ⟨c', hframes, hmoves, hreading⟩ := handleFrames_spec (S := S) hstarted
    (hsame.frameReads.trans hopened.blank.frameReads) hread rest
  refine ⟨c', ?_, hchanges.moves.trans hmoves, hreading⟩
  rw [hrun, handleReadFrame, if_neg (not_not.mpr (hsame.internalState.trans hopened.internalState))]
  exact hframes

/-- After a step a connection is still in its opening handshake, or it has been opened. -/
def Proceeds (S : Setting ρ) (c' : Connection ρ) : Prop :=
  Early S c' ∧ c'.Pending ∨ ∃ d, Opened S d ∧ Moves S d c' ∧ c'.Reading

theorem Early.handleResponse (h : Early S c) (hstate : c.state = .connecting)
    (hinternal : c.internalState = .readHttpResponse) (hreads : c.responseReads = 0)
    (htimer : c.Alive .openHandshakeTimeout) (buf : Bytes) :
    ∃ c', c.handleResponse S buf = some c' ∧ Proceeds S c' := by
  have hconnects : c.connects = 0 := by simpa [hinternal] using h.connects
  have hinits : c.inits = 0 := by simpa [hinternal] using h.inits
  have hwrites : c.requestWrites = 0 := by simpa [hinternal] using h.requestWrites
  rw [Connection.handleResponse]
  cases hconsume : S.reader.consume c.response buf with
  | none => exact ⟨_, rfl, .inl (h.terminate _)⟩
  | some result =>
      obtain ⟨response, processed⟩ := result
      have hresponse : Early S { c with response := response } :=
        { h with blank := { h.blank with } }
      simp only
      split
      · have hcancel : Early S { c with response := response }.cancelHandshakeTimer := by
          rw [cancelHandshakeTimer_eq]
          exact { hresponse with blank := { h.blank with } }
        cases hvalidate : S.reader.validate response with
        | some ec =>
            refine ⟨_, rfl, .inl ?_⟩
            rw [terminate_cancelHandshakeTimer]
            exact hresponse.terminate _
        | none =>
            have hopened : Opened S
                ({ c with response := response }.cancelHandshakeTimer.opening S) := by
              apply hcancel.opened <;> rw [cancelHandshakeTimer_eq]
              · exact hstate
              · exact hinternal
              · exact hreads
            obtain ⟨c', hrun, hmoves, hreading⟩ := openConnection_spec hopened (buf.drop processed)
            exact ⟨c', hrun, .inr ⟨_, hopened, hmoves, hreading⟩⟩
      · refine ⟨_, rfl, .inl ⟨?_, ?_⟩⟩
        · exact { hresponse with
            blank := { h.blank with }
            responseReads := by simp [readResponse, hinternal, hreads] }
        · constructor
          · intro _
            change c.connects + c.inits + c.requestWrites + (c.responseReads + 1) = 1
            rw [hconnects, hinits, hwrites, hreads]
          · exact fun _ _ => htimer

theorem Early.handleReadHttpResponse (h : Early S c) (hreads : c.responseReads = 0)
    (htimer : c.Alive .openHandshakeTimeout ∨ c.state ≠ .connecting)
    (result : Except ErrorCode Bytes) :
    ∃ c', c.handleReadHttpResponse S result = some c' ∧ Proceeds S c' := by
  cases result with
  | error ec =>
      simp only [Connection.handleReadHttpResponse]
      cases hcheck : c.check .readHttpResponse (some ec) with
      | ignore => exact ⟨c, rfl, .inl ⟨h, pending_of_closed (check_ignore hcheck)⟩⟩
      | refuse ec => exact ⟨_, rfl, .inl (h.terminate _)⟩
      | proceed => cases (check_proceed hcheck).1
  | ok buf =>
      simp only [Connection.handleReadHttpResponse]
      cases hcheck : c.check .readHttpResponse none with
      | ignore => exact ⟨c, rfl, .inl ⟨h, pending_of_closed (check_ignore hcheck)⟩⟩
      | refuse ec => exact ⟨_, rfl, .inl (h.terminate _)⟩
      | proceed =>
          obtain ⟨-, hstate, hinternal⟩ := check_proceed hcheck
          exact h.handleResponse hstate hinternal hreads
            (htimer.resolve_right (not_not.mpr hstate)) buf

/-! ### Timers and shutdowns -/

/-- A timer that expires, or that has been cancelled, does not stop a timer. -/
theorem Alive.elapse {handler : TimerHandler} {i : Nat} {t : Timer} {phase : TimerPhase}
    (h : c.Alive handler) (ht : c.timers[i]? = some t)
    (hphase : t.phase = .waiting ∧ phase = .expired ∨ t.phase = .cancelled ∧ phase = .done) :
    { c with timers := c.timers.set i { t with phase := phase } }.Alive handler := by
  obtain ⟨j, u, htimer, hu, hhandler, halive⟩ := h
  by_cases hij : i = j
  · subst hij
    obtain rfl : t = u := Option.some.inj (ht.symm.trans hu)
    have hlt : i < c.timers.length := (List.getElem?_eq_some_iff.mp ht).1
    refine ⟨i, { t with phase := phase }, htimer, List.getElem?_set_self hlt, hhandler, .inr ?_⟩
    rcases hphase with ⟨-, hexpired⟩ | ⟨hcancelled, -⟩
    · exact hexpired
    · rcases halive with hwaiting | hexpired
      · cases hcancelled.symm.trans hwaiting
      · cases hcancelled.symm.trans hexpired
  · exact ⟨j, u, htimer, (List.getElem?_set_ne hij).trans hu, hhandler, halive⟩

theorem Early.setTimers (h : Early S c) (timers : List Timer) :
    Early S { c with timers := timers } :=
  { h with blank := { h.blank with } }

/-- What a timer does when it calls its handler. -/
theorem fire_cases {i : Nat} (h : c.fire i = some c') :
    ∃ t, c.timers[i]? = some t ∧
      (t.phase = .expired ∧ (∃ ec, c' =
          { c with timers := c.timers.set i { t with phase := .done } }.terminate
            (some (.library ec))) ∨
        t.phase = .cancelled ∧ c' = { c with timers := c.timers.set i { t with phase := .done } }) := by
  obtain ⟨t, ht, hfire⟩ := Option.bind_eq_some_iff.mp h
  refine ⟨t, ht, ?_⟩
  cases hphase : t.phase with
  | waiting => simp [hphase] at hfire
  | expired =>
      simp only [hphase, Option.some.injEq] at hfire
      refine .inl ⟨rfl, ?_⟩
      cases hhandler : t.handler <;> rw [hhandler] at hfire <;> exact ⟨_, hfire.symm⟩
  | cancelled =>
      simp only [hphase, Option.some.injEq] at hfire
      exact .inr ⟨rfl, hfire.symm⟩
  | done => simp [hphase] at hfire

theorem expire_cases {i : Nat} (h : c.expire i = some c') :
    ∃ t, c.timers[i]? = some t ∧ t.phase = .waiting ∧
      c' = { c with timers := c.timers.set i { t with phase := .expired } } := by
  obtain ⟨t, ht, hexpire⟩ := Option.bind_eq_some_iff.mp h
  split at hexpire
  · next hphase => exact ⟨t, ht, hphase, (Option.some.inj hexpire).symm⟩
  · cases hexpire

theorem handleTerminate_eq (c : Connection ρ) (tstat : TerminateStatus) :
    c.handleTerminate S tstat = c.notify S (TerminateStatus.event tstat) := by
  cases tstat <;> rfl

theorem Early.shutdown (h : Early S c) {tstat : TerminateStatus} (hmem : tstat ∈ c.shutdowns) :
    let d := { c with shutdowns := c.shutdowns.erase tstat }.handleTerminate S tstat
    Early S d ∧ d.Pending := by
  have hopen := h.failing.not_opened
  have hd : { c with shutdowns := c.shutdowns.erase tstat }.handleTerminate S tstat =
      { c with
        shutdowns := c.shutdowns.erase tstat
        events := c.events ++ [TerminateStatus.event tstat] } := by
    rw [handleTerminate_eq]
    exact notify_of_not_opened (c := { c with shutdowns := c.shutdowns.erase tstat }) hopen _
  -- only the failure of the handshake can be reported, and only once
  obtain ⟨hclosed, hshutdowns, hevents⟩ :
      c.state = .closed ∧ c.shutdowns = [.failed] ∧ c.events = [] := by
    rcases h.failing with ⟨-, hnone, -⟩ | ⟨hclosed, hpending | ⟨hnone, -⟩⟩
    · rw [hnone] at hmem
      cases hmem
    · exact ⟨hclosed, hpending⟩
    · rw [hnone] at hmem
      cases hmem
  rw [hshutdowns] at hmem
  obtain rfl := List.mem_singleton.mp hmem
  intro d
  have hearly : Early S d := by
    rw [show d = _ from hd]
    exact { h with
      blank := { h.blank with }
      failing := by
        refine .inr ⟨hclosed, .inr ⟨?_, ?_⟩⟩
        · simp only [hshutdowns, List.erase_cons_head]
        · simp only [hevents, TerminateStatus.event, List.nil_append] }
  refine ⟨hearly, pending_of_closed ?_⟩
  rw [show d = _ from hd]
  exact hclosed

theorem of_pos_of_le_ite {n : Nat} {p : Prop} [Decidable p] (hpos : 0 < n)
    (hle : n ≤ if p then 1 else 0) : p ∧ n = 1 := by
  split at hle
  · next hp => exact ⟨hp, Nat.le_antisymm hle hpos⟩
  · exact absurd hpos (Nat.not_lt.mpr hle)

/-- The answer of the server, or a part of it, is read. -/
theorem Early.readResponse (h : Early S c) (hpending : c.Pending) (hpos : 0 < c.responseReads)
    (result : Except ErrorCode Bytes) :
    ∃ d, { c with responseReads := c.responseReads - 1 }.handleReadHttpResponse S result =
      some d ∧ Proceeds S d := by
  obtain ⟨hinternal, hone⟩ := of_pos_of_le_ite hpos h.responseReads
  have hearly : Early S { c with responseReads := c.responseReads - 1 } :=
    { h with
      blank := { h.blank with }
      responseReads := (Nat.sub_le _ _).trans h.responseReads }
  have htimer : c.Alive .openHandshakeTimeout ∨ c.state ≠ .connecting := by
    by_cases hstate : c.state = .connecting
    · exact .inl (hpending.timer hstate (.inr hinternal))
    · exact .inr hstate
  exact hearly.handleReadHttpResponse (congrArg (· - 1) hone) htimer result

theorem Early.step (h : Early S c) (hpending : c.Pending) {a : Action}
    (hstep : step S c a = some c') : Proceeds S c' := by
  have hopen := h.failing.not_opened
  cases a with
  | call call =>
      obtain rfl := Option.some.inj hstep
      rw [perform_of_not_opened hopen]
      exact .inl ⟨h, hpending⟩
  | connected ec =>
      simp only [Connection.step, Option.ite_none_right_eq_some] at hstep
      obtain ⟨hpos, heq⟩ := hstep
      obtain rfl := Option.some.inj heq
      obtain ⟨hinternal, hone⟩ := of_pos_of_le_ite hpos h.connects
      refine .inl (Early.handleConnect (c := { c with connects := c.connects - 1 }) ?_ ?_
        hinternal ec)
      · exact { h with
          blank := { h.blank with }
          connects := (Nat.sub_le _ _).trans h.connects }
      · exact congrArg (· - 1) hone
  | initialized ec =>
      simp only [Connection.step, Option.ite_none_right_eq_some] at hstep
      obtain ⟨hpos, heq⟩ := hstep
      obtain rfl := Option.some.inj heq
      obtain ⟨hinternal, hone⟩ := of_pos_of_le_ite hpos h.inits
      refine .inl (Early.handleTransportInit (c := { c with inits := c.inits - 1 }) ?_ ?_
        hinternal ec)
      · exact { h with
          blank := { h.blank with }
          inits := (Nat.sub_le _ _).trans h.inits }
      · exact congrArg (· - 1) hone
  | wroteRequest ec =>
      simp only [Connection.step, Option.ite_none_right_eq_some] at hstep
      obtain ⟨hpos, heq⟩ := hstep
      obtain rfl := Option.some.inj heq
      obtain ⟨hinternal, hone⟩ := of_pos_of_le_ite hpos h.requestWrites
      refine .inl (Early.handleSendHttpRequest
        (c := { c with requestWrites := c.requestWrites - 1 }) ?_ ?_ ?_ _)
      · exact { h with
          blank := { h.blank with }
          requestWrites := (Nat.sub_le _ _).trans h.requestWrites }
      · exact congrArg (· - 1) hone
      · by_cases hstate : c.state = .connecting
        · exact .inl (hpending.timer hstate (.inl hinternal))
        · exact .inr hstate
  | readResponse result =>
      simp only [Connection.step, Option.ite_none_right_eq_some] at hstep
      obtain ⟨⟨hpos, -⟩, heq⟩ := hstep
      obtain ⟨d, hd, hproceeds⟩ := h.readResponse hpending hpos (result.mapError .transport)
      obtain rfl := Option.some.inj (hd.symm.trans heq)
      exact hproceeds
  | readFrame result =>
      simp only [Connection.step, h.blank.frameReads, Nat.lt_irrefl, false_and, if_false] at hstep
      cases hstep
  | writeFrame =>
      simp only [Connection.step, h.blank.writeTasks, Nat.lt_irrefl, if_false] at hstep
      cases hstep
  | wroteFrames ec =>
      simp only [Connection.step, h.blank.frameWrites, Nat.lt_irrefl, if_false] at hstep
      cases hstep
  | expire i =>
      obtain ⟨t, ht, hphase, rfl⟩ := expire_cases hstep
      refine .inl ⟨h.setTimers _, hpending.operation, ?_⟩
      intro hstate hinternal
      exact Alive.elapse (hpending.timer hstate hinternal) ht (.inl ⟨hphase, rfl⟩)
  | fire i =>
      obtain ⟨t, ht, ⟨-, ec, rfl⟩ | ⟨hphase, rfl⟩⟩ := fire_cases hstep
      · exact .inl ((h.setTimers _).terminate _)
      · refine .inl ⟨h.setTimers _, hpending.operation, ?_⟩
        intro hstate hinternal
        exact Alive.elapse (hpending.timer hstate hinternal) ht (.inr ⟨hphase, rfl⟩)
  | shutdown tstat =>
      simp only [Connection.step, Option.ite_none_right_eq_some] at hstep
      obtain ⟨hmem, heq⟩ := hstep
      obtain rfl := Option.some.inj heq
      exact .inl (h.shutdown hmem)

/-! ### An opened connection -/

/-- The opening handshake is over. -/
structure Settled (c : Connection ρ) : Prop where
  internalState : c.internalState = .processConnection
  connects : c.connects = 0
  inits : c.inits = 0
  requestWrites : c.requestWrites = 0
  responseReads : c.responseReads = 0
  state : c.state ≠ .connecting

theorem Opened.settled (h : Opened S c) : c.Settled where
  internalState := h.internalState
  connects := h.connects
  inits := h.inits
  requestWrites := h.requestWrites
  responseReads := h.responseReads
  state := by
    rw [h.state]
    exact SessionState.noConfusion

theorem Settled.terminate (h : c.Settled) (ec : Option ErrorCode) : (c.terminate ec).Settled := by
  rw [terminate_eq]
  exact { h with state := SessionState.noConfusion }

/-- What `handle_write_frame` does: it ends the connection, or it lets the next write
begin. -/
theorem handleWriteFrame_cases {ec : Option ErrorCode} (h : c.handleWriteFrame ec = some c') :
    ∃ last, c.currentMsgs.getLast? = some last ∧
      ((ec = none → last.terminal = true) ∧ c' = { c with currentMsgs := [] }.terminate ec ∨
        ec = none ∧ last.terminal = false ∧ c' = { c with
          currentMsgs := []
          writeFlag := false
          writeTasks := if c.sendQueue = [] then c.writeTasks else c.writeTasks + 1 }) := by
  obtain ⟨last, hlast, rfl⟩ := Option.map_eq_some_iff.mp h
  refine ⟨last, hlast, ?_⟩
  cases ec with
  | some ec => exact .inl ⟨(nomatch ·), rfl⟩
  | none =>
      dsimp only
      by_cases hterminal : last.terminal = true
      · rw [if_pos hterminal]
        exact .inl ⟨fun _ => hterminal, rfl⟩
      · rw [if_neg hterminal]
        refine .inr ⟨rfl, Bool.eq_false_of_not_eq_true hterminal, ?_⟩
        by_cases hqueue : c.sendQueue = []
        · rw [if_neg (not_not.mpr hqueue), if_pos hqueue]
        · rw [if_pos hqueue, if_neg hqueue]
          rfl

/-- What `write_frame` does when no write is outstanding. -/
theorem writeFrame_eq (c : Connection ρ) :
    c.writeFrame =
      if c.writeFlag = true then c
      else { c with
        currentMsgs := c.currentMsgs ++ (batch c.sendQueue).1
        sendQueue := (batch c.sendQueue).2
        sendBufferSize := c.sendBufferSize - bufferSize (batch c.sendQueue).1
        writeFlag := !(c.currentMsgs ++ (batch c.sendQueue).1).isEmpty
        frameWrites := c.frameWrites +
          if (c.currentMsgs ++ (batch c.sendQueue).1).isEmpty then 0 else 1
        written := c.written ++ (c.currentMsgs ++ (batch c.sendQueue).1)
        sent := c.sent ++ (c.currentMsgs ++ (batch c.sendQueue).1).flatMap Message.wire } := by
  rw [writeFrame]
  by_cases hflag : c.writeFlag = true
  · rw [if_pos hflag, if_pos hflag]
  · rw [if_neg hflag, if_neg hflag]
    simp only
    split
    · next hnone => simp [hnone, Bool.eq_false_of_not_eq_true hflag]
    · next hsome => simp [hsome]

theorem Move.settled (h : Move S c c') (hc : c.Settled) : c'.Settled := by
  cases h with
  | change h =>
      have hsame := h.unmoved
      exact {
        internalState := hsame.internalState.trans hc.internalState
        connects := hsame.connects.trans hc.connects
        inits := hsame.inits.trans hc.inits
        requestWrites := hsame.requestWrites.trans hc.requestWrites
        responseReads := hsame.responseReads.trans hc.responseReads
        state := Changes.started (.single h) hc.state }
  | receive msg hchanges =>
      have hsame := hchanges.unmoved
      exact {
        internalState := hsame.internalState.trans hc.internalState
        connects := hsame.connects.trans hc.connects
        inits := hsame.inits.trans hc.inits
        requestWrites := hsame.requestWrites.trans hc.requestWrites
        responseReads := hsame.responseReads.trans hc.responseReads
        state := hchanges.started hc.state }
  | timer i t phase => exact { hc with }
  | timeout i t =>
      have hset : Settled { c with timers := c.timers.set i { t with phase := .done } } :=
        { hc with }
      exact hset.terminate _
  | shutdown tstat => exact { hc with }
  | beginRead => exact { hc with }
  | bytes buf => exact { hc with }
  | endRead p => exact { hc with }
  | write =>
      rw [writeFrame_eq]
      split <;> exact { hc with }
  | wrote ec _ hdone =>
      obtain ⟨last, -, ⟨-, rfl⟩ | ⟨-, -, rfl⟩⟩ := handleWriteFrame_cases hdone
      · have hset : Settled { c with frameWrites := c.frameWrites - 1, currentMsgs := [] } :=
          { hc with }
        exact hset.terminate _
      · exact { hc with }

theorem Moves.settled (h : Moves S c d) (hc : c.Settled) : d.Settled :=
  Moves.invariant (P := Settled) h hc fun _ _ hmove => hmove.settled

theorem Changes.opened (h : Changes S c d) (hd : d.state = .opened) : c.state = .opened := by
  refine Changes.invariant (P := fun d => d.state = .opened → c.state = .opened) h id ?_ hd
  intro e e' hchange he hopen
  rcases hchange.state with hsame | hclosing | hclosed
  · exact he (hsame.symm.trans hopen)
  · cases hclosing.symm.trans hopen
  · cases hclosed.symm.trans hopen

/-- Handlers that read nothing do not change what has been read. -/
theorem Reading.changes (h : c.Reading) (hchanges : Changes S c d) : d.Reading := by
  have hsame := hchanges.unmoved
  constructor
  · rw [hsame.frameReads]
    exact h.count
  · intro hopen
    rw [hsame.frameReads]
    exact h.opened (hchanges.opened hopen)
  · rw [hsame.received, hsame.inbox]
    exact h.inbox
  · rw [hsame.frameReads, hsame.received, hsame.processor]
    exact h.processor
  · intro hclosing ec hec
    rw [hsame.received] at hec
    rcases hchanges.talking (.inr hclosing) with hopen | hclosing'
    · -- an open connection has not been refused anything
      cases (h.processor (h.opened hopen)).symm.trans hec
    · obtain ⟨key, hkey⟩ := h.refused hclosing' ec hec
      exact ⟨key, hchanges.accepted _ hkey⟩

theorem Reading.terminate (h : c.Reading) (ec : Option ErrorCode) : (c.terminate ec).Reading := by
  rw [terminate_eq]
  exact { h with opened := SessionState.noConfusion, refused := SessionState.noConfusion }

/-- After an error nothing more is read, and the connection is not open any longer. -/
theorem handleReadError_spec (hcount : c.frameReads = 0)
    (hinbox : ((reader .client).read .init c.received.flatten).1 = c.inbox) (ec : ErrorCode) :
    Moves S c (c.handleReadError ec) ∧ (c.handleReadError ec).Reading := by
  have hterminate : ∀ ec, (c.terminate ec).Reading := by
    intro ec
    rw [terminate_eq]
    constructor
    · exact Nat.le_of_eq hcount |>.trans (Nat.zero_le 1)
    · exact SessionState.noConfusion
    · exact hinbox
    · exact fun hone => absurd (hcount.symm.trans hone) Nat.zero_ne_one
    · exact SessionState.noConfusion
  have hclosed : c.state = .closed → c.Reading := by
    intro hclosed
    constructor
    · exact Nat.le_of_eq hcount |>.trans (Nat.zero_le 1)
    · exact fun hopen => nomatch hclosed.symm.trans hopen
    · exact hinbox
    · exact fun hone => absurd (hcount.symm.trans hone) Nat.zero_ne_one
    · exact fun hclosing => nomatch hclosed.symm.trans hclosing
  rw [handleReadError]
  split
  · next heof => exact ⟨.refl, hclosed heof.2⟩
  · split
    · exact ⟨.single (.change (.terminate c none)), hterminate none⟩
    · split
      · next hinvalid => exact ⟨.refl, hclosed hinvalid.2⟩
      · exact ⟨.single (.change (.terminate c _)), hterminate _⟩

/-- A read completes. -/
theorem handleReadFrame_spec (hc : c.Settled) (h : c.Reading) (hpos : 0 < c.frameReads)
    (result : Except ErrorCode Bytes) :
    ∃ d, { c with frameReads := c.frameReads - 1 }.handleReadFrame S result = some d ∧
      Moves S c d ∧ d.Reading := by
  have hone : c.frameReads = 1 := Nat.le_antisymm h.count hpos
  have hzero : c.frameReads - 1 = 0 := congrArg (· - 1) hone
  have hbegin : Move S c { c with frameReads := c.frameReads - 1 } := .beginRead c
  cases result with
  | error ec =>
      obtain ⟨hmoves, hreading⟩ := handleReadError_spec (S := S)
        (c := { c with frameReads := c.frameReads - 1 }) hzero h.inbox ec
      exact ⟨_, rfl, hmoves.head hbegin, hreading⟩
  | ok buf =>
      obtain ⟨d, hd, hmoves, hreading⟩ := handleFrames_spec (S := S)
        (c := { c with frameReads := c.frameReads - 1 }) hc.state hzero
        (Prod.ext h.inbox (h.processor hone)) buf
      refine ⟨d, ?_, hmoves.head hbegin, hreading⟩
      rw [handleReadFrame, if_neg (not_not.mpr hc.internalState)]
      exact hd

theorem step_settled (hc : c.Settled) (h : c.Reading) {a : Action}
    (hstep : step S c a = some c') : Moves S c c' ∧ c'.Reading := by
  cases a with
  | call call =>
      obtain rfl := Option.some.inj hstep
      have hchanges := perform_changes (S := S) c call
      exact ⟨hchanges.moves, h.changes hchanges⟩
  | connected ec =>
      simp only [step, hc.connects, Nat.lt_irrefl, if_false] at hstep
      cases hstep
  | initialized ec =>
      simp only [step, hc.inits, Nat.lt_irrefl, if_false] at hstep
      cases hstep
  | wroteRequest ec =>
      simp only [step, hc.requestWrites, Nat.lt_irrefl, if_false] at hstep
      cases hstep
  | readResponse result =>
      simp only [step, hc.responseReads, Nat.lt_irrefl, false_and, if_false] at hstep
      cases hstep
  | readFrame result =>
      simp only [step, Option.ite_none_right_eq_some] at hstep
      obtain ⟨⟨hpos, -⟩, heq⟩ := hstep
      obtain ⟨d, hd, hspec⟩ := handleReadFrame_spec (S := S) hc h hpos (result.mapError .transport)
      obtain rfl := Option.some.inj (hd.symm.trans heq)
      exact hspec
  | writeFrame =>
      simp only [step, Option.ite_none_right_eq_some] at hstep
      obtain ⟨hpos, heq⟩ := hstep
      obtain rfl := Option.some.inj heq
      refine ⟨.single (.write c hpos), ?_⟩
      rw [writeFrame_eq]
      split <;> exact { h with }
  | wroteFrames ec =>
      simp only [step, Option.ite_none_right_eq_some] at hstep
      obtain ⟨hpos, heq⟩ := hstep
      refine ⟨.single (.wrote _ hpos heq), ?_⟩
      obtain ⟨last, -, ⟨-, rfl⟩ | ⟨-, -, rfl⟩⟩ := handleWriteFrame_cases heq
      · have hset : Reading { c with frameWrites := c.frameWrites - 1, currentMsgs := [] } :=
          { h with }
        exact hset.terminate _
      · exact { h with }
  | expire i =>
      obtain ⟨t, ht, hphase, rfl⟩ := expire_cases hstep
      exact ⟨.single (.timer c i t _ ht (.inl ⟨hphase, rfl⟩)), { h with }⟩
  | fire i =>
      obtain ⟨t, ht, ⟨hphase, ec, rfl⟩ | ⟨hphase, rfl⟩⟩ := fire_cases hstep
      · have hset : Reading { c with timers := c.timers.set i { t with phase := .done } } :=
          { h with }
        exact ⟨.single (.timeout c i t ht hphase ec), hset.terminate _⟩
      · exact ⟨.single (.timer c i t _ ht (.inr ⟨hphase, rfl⟩)), { h with }⟩
  | shutdown tstat =>
      simp only [step, Option.ite_none_right_eq_some] at hstep
      obtain ⟨hmem, heq⟩ := hstep
      obtain rfl := Option.some.inj heq
      have hend : Reading { c with
          shutdowns := c.shutdowns.erase tstat
          events := c.events ++ [TerminateStatus.event tstat] } :=
        { h with }
      have hchanges := notify_changes (S := S)
        { c with shutdowns := c.shutdowns.erase tstat } (TerminateStatus.event tstat)
      rw [handleTerminate_eq]
      exact ⟨hchanges.moves.head (.shutdown c tstat hmem), hend.changes hchanges⟩

/-! ### Runs -/

theorem early_init (S : Setting ρ) (response : ρ) :
    Early S (init response) ∧ (init response).Pending := by
  refine ⟨?_, ?_⟩
  · constructor
    · constructor <;> rfl
    · exact .inl ⟨rfl, rfl, rfl⟩
    · exact Nat.le_refl 1
    · exact Nat.le_refl 0
    · exact Nat.le_refl 0
    · exact Nat.le_refl 0
    · exact InternalState.noConfusion
    · rfl
  · constructor
    · exact fun _ => rfl
    · rintro _ (hstate | hstate) <;> cases hstate

theorem proceeds_of_run {actions : List Action} : ∀ {c c' : Connection ρ}, Proceeds S c →
    run S c actions = some c' → Proceeds S c' := by
  induction actions with
  | nil =>
      intro c c' hc hrun
      obtain rfl := Option.some.inj hrun
      exact hc
  | cons a actions ih =>
      intro c c' hc hrun
      obtain ⟨next, hstep, hrest⟩ := Transition.follow_cons.mp hrun
      apply ih ?_ hrest
      rcases hc with ⟨hearly, hpending⟩ | ⟨d, hopened, hmoves, hreading⟩
      · exact hearly.step hpending hstep
      · obtain ⟨hnext, hread⟩ := step_settled (hmoves.settled hopened.settled) hreading hstep
        exact .inr ⟨d, hopened, hmoves.trans hnext, hread⟩

/-- Every run of a connection is its opening handshake, followed by the moves of an opened
connection if it has been opened. -/
theorem run_proceeds {response : ρ} {actions : List Action}
    (h : run S (init response) actions = some c) : Proceeds S c :=
  proceeds_of_run (.inl (early_init S response)) h

/-- The induction over runs: what holds when the open handler is about to run, and what
every move preserves, holds from then on. -/
theorem opened_invariant {P : Connection ρ → Prop} (hopened : ∀ d, Opened S d → P d)
    (hmove : ∀ d d', Move S d d' → P d → P d') {response : ρ} {actions : List Action}
    (h : run S (init response) actions = some c) (hc : c.internalState = .processConnection) :
    P c := by
  rcases run_proceeds h with ⟨hearly, -⟩ | ⟨d, hd, hmoves, -⟩
  · exact absurd hc hearly.unfinished
  · exact hmoves.invariant (hopened d hd) hmove

end ExchangeClient.Websocketpp.Connection
