import ExchangeClient.Websocketpp.Opening

/-!
# What a connection sends

The messages that are accepted from the application go through the queue into the writes
of the transport: none is lost, doubled or overtaken, and one write is outstanding at most.
-/

namespace ExchangeClient.Websocketpp.Connection

variable {ρ : Type} {S : Setting ρ} {c c' d : Connection ρ}

/-! ### The queue -/

theorem bufferSize_append (msgs more : List Message) :
    bufferSize (msgs ++ more) = bufferSize msgs + bufferSize more := by
  rw [bufferSize, bufferSize, bufferSize, List.map_append, List.sum_append]

theorem batch_append (queue : List Message) : (batch queue).1 ++ (batch queue).2 = queue := by
  induction queue with
  | nil => rfl
  | cons msg queue ih =>
      rw [batch]
      split
      · rfl
      · exact congrArg (msg :: ·) ih

theorem batch_eq_nil {queue : List Message} (h : (batch queue).1 = []) : queue = [] := by
  cases queue with
  | nil => rfl
  | cons msg queue =>
      rw [batch] at h
      split at h <;> cases h

/-- Only the last message of a batch can be terminal. -/
theorem terminal_batch {queue : List Message} {msg : Message}
    (h : msg ∈ (batch queue).1.dropLast) : msg.terminal = false := by
  induction queue with
  | nil => cases h
  | cons first queue ih =>
      rw [batch] at h
      split at h
      · cases h
      · next hfirst =>
          cases hrest : (batch queue).1 with
          | nil => rw [hrest] at h; cases h
          | cons second rest =>
              rw [hrest, List.dropLast_cons_cons, List.mem_cons] at h
              rcases h with rfl | hmem
              · exact Bool.eq_false_of_not_eq_true hfirst
              · exact ih (hrest ▸ hmem)

/-- How the messages are on their way, at any time. -/
structure Queue (c : Connection ρ) : Prop where
  fifo : c.written ++ c.sendQueue = c.pushed
  size : c.sendBufferSize = bufferSize c.sendQueue
  idle : c.writeFlag = false → c.currentMsgs = [] ∧ c.frameWrites = 0
  busy : c.writeFlag = true → c.frameWrites = 1 ∧ c.currentMsgs ≠ [] ∨
    c.frameWrites = 0 ∧ c.currentMsgs = [] ∧ c.state = .closed
  wakeUp : c.writeFlag = false → c.sendQueue ≠ [] → 0 < c.writeTasks
  current : ∃ earlier, c.written = earlier ++ c.currentMsgs
  terminal : ∀ msg ∈ c.written.dropLast, msg.terminal = false
  going : c.writeFlag = false → ∀ msg ∈ c.written, msg.terminal = false

theorem Blank.queue (h : c.Blank) : Queue c where
  fifo := by rw [h.written, h.sendQueue, h.pushed]; rfl
  size := by rw [h.sendBufferSize, h.sendQueue]; rfl
  idle := fun _ => ⟨h.currentMsgs, h.frameWrites⟩
  busy := fun hflag => nomatch h.writeFlag.symm.trans hflag
  wakeUp := fun _ hqueue => absurd h.sendQueue hqueue
  current := ⟨[], by rw [h.written, h.currentMsgs]; rfl⟩
  terminal := by rw [h.written]; exact fun _ hmem => nomatch hmem
  going := by rw [h.written]; exact fun _ _ hmem => nomatch hmem

theorem Queue.enqueue (h : Queue c) (hstate : c.state ≠ .closed) (key : MaskingKey)
    (o : Outgoing) (msg : Message) : Queue (c.enqueue key o msg) := by
  rw [enqueue_eq]
  exact { h with
    fifo := by rw [← h.fifo, List.append_assoc]
    size := by
      rw [bufferSize_append, ← h.size]
      rfl
    busy := fun hflag => by
      rcases h.busy hflag with hwriting | ⟨-, -, hclosed⟩
      · exact .inl hwriting
      · exact absurd hclosed hstate
    wakeUp := fun hflag _ => by
      change 0 < if c.writeFlag = true then _ else _
      rw [if_neg (ne_true_of_eq_false hflag)]
      exact Nat.succ_pos _ }

theorem Queue.terminate (h : Queue c) (ec : Option ErrorCode) :
    Queue (c.terminate ec) := by
  rw [terminate_eq]
  exact { h with
    busy := fun hflag => by
      rcases h.busy hflag with hwriting | ⟨hnone, hcurrent, -⟩
      · exact .inl hwriting
      · exact .inr ⟨hnone, hcurrent, rfl⟩ }

theorem Queue.change (h : Queue c) (hchange : Change S c c') : Queue c' := by
  cases hchange with
  | note => exact { h with }
  | push o out hopen =>
      apply h.enqueue
      rw [hopen]
      exact SessionState.noConfusion
  | close code reason out ack terminal hstate =>
      have hstart : Queue (c.startClosing ack) := { h with
        busy := fun hflag => by
          rcases h.busy hflag with hwriting | ⟨-, -, hclosed⟩
          · exact .inl hwriting
          · rcases hstate with hopen | hclosing
            · cases hclosed.symm.trans hopen
            · cases hclosed.symm.trans hclosing }
      exact hstart.enqueue SessionState.noConfusion _ _ _
  | clean => exact { h with }
  | terminate ec => exact h.terminate ec

/-- A write begins with everything that waits, up to a terminal message. -/
theorem Queue.writeFrame (h : Queue c) :
    Queue { c with writeTasks := c.writeTasks - 1 }.writeFrame := by
  rw [writeFrame_eq]
  by_cases hflag : c.writeFlag = true
  · rw [if_pos hflag]
    exact { h with wakeUp := fun hidle => nomatch hflag.symm.trans hidle }
  · rw [if_neg hflag]
    have hidle : c.writeFlag = false := Bool.eq_false_of_not_eq_true hflag
    obtain ⟨hcurrent, hwrites⟩ := h.idle hidle
    have hall := batch_append c.sendQueue
    simp only [hcurrent, List.nil_append]
    by_cases hnone : (batch c.sendQueue).1 = []
    · -- there was nothing to send
      have hqueue : c.sendQueue = [] := batch_eq_nil hnone
      rw [hqueue] at hall ⊢
      simp only [batch, List.isEmpty_nil, Bool.not_true, if_true, Nat.add_zero, List.append_nil,
        bufferSize, List.map_nil, List.sum_nil, Nat.sub_zero]
      exact {
        fifo := by rw [← h.fifo, hqueue]
        size := by rw [h.size, hqueue]
        idle := fun _ => ⟨rfl, hwrites⟩
        busy := fun htrue => nomatch htrue
        wakeUp := fun _ hne => absurd rfl hne
        current := ⟨c.written, (List.append_nil _).symm⟩
        terminal := h.terminal
        going := fun _ => h.going hidle }
    · have hempty : (batch c.sendQueue).1.isEmpty = false := by
        rw [List.isEmpty_eq_false_iff]
        exact hnone
      simp only [hempty, Bool.not_false, Bool.false_eq_true, if_false, hwrites, Nat.zero_add]
      exact {
        fifo := by rw [List.append_assoc, hall, h.fifo]
        size := by
          change c.sendBufferSize - _ = _
          rw [h.size, ← hall, bufferSize_append, hall, Nat.add_sub_cancel_left]
        idle := fun hfalse => nomatch hfalse
        busy := fun _ => .inl ⟨rfl, hnone⟩
        wakeUp := fun hfalse => nomatch hfalse
        current := ⟨c.written, rfl⟩
        terminal := by
          intro msg hmem
          rw [List.dropLast_append_of_ne_nil hnone, List.mem_append] at hmem
          rcases hmem with hold | hnew
          · exact h.going hidle msg hold
          · exact terminal_batch hnew
        going := fun hfalse => nomatch hfalse }

/-- The writes that have been completed leave the queue as it is. -/
theorem Queue.handleWriteFrame (h : Queue c) {ec : Option ErrorCode} (hpos : 0 < c.frameWrites)
    (hdone : { c with frameWrites := c.frameWrites - 1 }.handleWriteFrame ec = some c') :
    Queue c' := by
  have hflag : c.writeFlag = true := by
    by_contra hidle
    rw [(h.idle (Bool.eq_false_of_not_eq_true hidle)).2] at hpos
    exact Nat.lt_irrefl 0 hpos
  have hone : c.frameWrites = 1 := by
    rcases h.busy hflag with ⟨hone, -⟩ | ⟨hzero, -⟩
    · exact hone
    · exact absurd hpos (Nat.not_lt.mpr (Nat.le_of_eq hzero))
  have hzero : c.frameWrites - 1 = 0 := congrArg (· - 1) hone
  obtain ⟨earlier, hearlier⟩ := h.current
  obtain ⟨last, hlast, ⟨-, rfl⟩ | ⟨rfl, hterminal, rfl⟩⟩ := handleWriteFrame_cases hdone
  · rw [terminate_eq]
    exact { h with
      idle := fun hidle => nomatch hflag.symm.trans hidle
      busy := fun _ => .inr ⟨hzero, rfl, rfl⟩
      current := ⟨c.written, (List.append_nil _).symm⟩ }
  · exact { h with
      idle := fun _ => ⟨rfl, hzero⟩
      busy := fun htrue => nomatch htrue
      wakeUp := fun _ hqueue => by
        change 0 < if c.sendQueue = [] then _ else _
        rw [if_neg hqueue]
        exact Nat.succ_pos _
      current := ⟨c.written, (List.append_nil _).symm⟩
      going := fun _ msg hmem => by
        -- the last message of this write is the last of all
        obtain ⟨front, hfront⟩ := List.getLast?_eq_some_iff.mp hlast
        have hwritten : c.written = (earlier ++ front) ++ [last] := by
          rw [hearlier, List.append_assoc]
          exact congrArg (earlier ++ ·) hfront
        have hbefore := h.terminal
        change msg ∈ c.written at hmem
        rw [hwritten, List.dropLast_concat] at hbefore
        rw [hwritten, List.mem_append, List.mem_singleton] at hmem
        rcases hmem with hold | rfl
        · exact hbefore msg hold
        · exact hterminal }

theorem Queue.move (h : Queue c) (hmove : Move S c c') : Queue c' := by
  cases hmove with
  | change hchange => exact h.change hchange
  | receive msg hchanges =>
      have hreceive : Queue (c.receive msg) := { h with }
      exact hchanges.invariant hreceive fun _ _ hchange hqueue => hqueue.change hchange
  | timer i t phase => exact { h with }
  | timeout i t =>
      have hset : Queue { c with timers := c.timers.set i { t with phase := .done } } :=
        { h with }
      exact hset.terminate _
  | shutdown tstat => exact { h with }
  | beginRead => exact { h with }
  | bytes buf => exact { h with }
  | endRead p => exact { h with }
  | write => exact h.writeFrame
  | wrote ec hpos hdone => exact h.handleWriteFrame hpos hdone

theorem queue_of_run {response : ρ} {actions : List Action}
    (h : run S (init response) actions = some c) : Queue c := by
  rcases run_proceeds h with ⟨hearly, -⟩ | ⟨d, hopened, hmoves, -⟩
  · exact hearly.blank.queue
  · exact hmoves.invariant hopened.blank.queue fun _ _ hmove hqueue => hqueue.move hmove

/-! ### What is in the queue -/

theorem opcode_prepare {cfg : Endpoint} {key : MaskingKey} {o : Outgoing} {out : Message}
    (h : o.prepare cfg key = .ok out) : out.opcode = o.opcode ∧ out.terminal = false := by
  have hcontrol : ∀ {op payload}, Processor.prepareControl cfg key op payload (getMessage .text) =
      .ok out → out.opcode = op ∧ out.terminal = false := by
    intro op payload h
    simp only [Processor.prepareControl] at h
    split at h
    · cases h
    · split at h
      · cases h
      · obtain rfl := Except.ok.inj h
        exact ⟨rfl, rfl⟩
  cases o with
  | data msg =>
      simp only [Outgoing.prepare, Processor.prepareDataFrame] at h
      split at h
      · cases h
      · split at h
        · cases h
        · obtain rfl := Except.ok.inj h
          exact ⟨rfl, rfl⟩
  | ping payload => exact hcontrol h
  | pong payload => exact hcontrol h
  | close code reason => exact hcontrol (Processor.prepareControl_of_prepareClose h)

/-- A message without the mark that ends the connection. -/
def unmarked (msg : Message) : Message := { msg with terminal := false }

/-- The queue is made of prepared messages, and close frames come last. -/
structure Farewell (c : Connection ρ) : Prop where
  prepared : Outgoing.prepareAll .client c.accepted = .ok (c.pushed.map unmarked)
  order : ∃ talk closes, c.pushed = talk ++ closes ∧ (∀ msg ∈ talk, msg.opcode ≠ .close) ∧
    (∀ msg ∈ closes, msg.opcode = .close) ∧ (c.state = .opened → closes = []) ∧
    (c.state = .closing → closes ≠ [])
  marked : ∀ msg ∈ c.pushed, msg.terminal = true → msg.opcode = .close

theorem Blank.farewell (h : c.Blank) (hstate : c.state ≠ .closing) : Farewell c where
  prepared := by
    rw [h.accepted, h.pushed]
    rfl
  order := by
    refine ⟨[], [], h.pushed, ?_, ?_, fun _ => rfl, fun hclosing => absurd hclosing hstate⟩ <;>
    · intro msg hmem
      cases hmem
  marked := by
    rw [h.pushed]
    intro msg hmem
    cases hmem

theorem Farewell.terminate (h : Farewell c) (ec : Option ErrorCode) :
    Farewell (c.terminate ec) := by
  obtain ⟨talk, closes, hpushed, htalk, hcloses, -, -⟩ := h.order
  rw [terminate_eq]
  exact { h with
    order := ⟨talk, closes, hpushed, htalk, hcloses, SessionState.noConfusion,
      SessionState.noConfusion⟩ }

theorem Farewell.change (h : Farewell c) (hchange : Change S c c') : Farewell c' := by
  obtain ⟨talk, closes, hpushed, htalk, hcloses, hopened, hclosing⟩ := h.order
  cases hchange with
  | note => exact { h with }
  | push o out hopen ho hout =>
      obtain ⟨hop, hterminal⟩ := opcode_prepare hout
      have hsame : unmarked out = out := congrArg (fun t => { out with terminal := t }) hterminal.symm
      rw [enqueue_eq]
      constructor
      · rw [List.map_append, List.map_singleton, hsame]
        exact Outgoing.prepareAll_concat h.prepared hout
      · rw [hpushed, hopened hopen, List.append_nil]
        refine ⟨talk ++ [out], [], (List.append_nil _).symm, ?_, ?_, fun _ => rfl, ?_⟩
        · intro msg hmem
          rcases List.mem_append.mp hmem with hold | hnew
          · exact htalk msg hold
          · obtain rfl := List.mem_singleton.mp hnew
            rwa [hop]
        · intro msg hmem
          cases hmem
        · intro hclosing
          cases hopen.symm.trans hclosing
      · intro msg hmem hmarked
        rcases List.mem_append.mp hmem with hold | hnew
        · exact h.marked msg hold hmarked
        · obtain rfl := List.mem_singleton.mp hnew
          cases hterminal.symm.trans hmarked
  | close code reason out ack terminal hstate hack hout =>
      obtain ⟨hop, hterminal⟩ := opcode_prepare hout
      obtain ⟨msg, hmsg⟩ : ∃ msg, msg = if terminal then { out with terminal := true } else out :=
        ⟨_, rfl⟩
      have hopcode : msg.opcode = .close := by
        rw [hmsg]
        split <;> exact hop
      have hunmarked : unmarked msg = out := by
        have hsame : unmarked out = out :=
          congrArg (fun t => { out with terminal := t }) hterminal.symm
        rw [hmsg]
        split <;> exact hsame
      rw [← hmsg, enqueue_eq]
      constructor
      · change Outgoing.prepareAll .client (c.accepted ++ _) = .ok ((c.pushed ++ [msg]).map unmarked)
        rw [List.map_append, List.map_singleton, hunmarked]
        exact Outgoing.prepareAll_concat h.prepared hout
      · refine ⟨talk, closes ++ [msg], ?_, htalk, ?_, SessionState.noConfusion,
          fun _ => List.concat_ne_nil msg closes⟩
        · change c.pushed ++ [msg] = _
          rw [hpushed, List.append_assoc]
        · intro m hmem
          rcases List.mem_append.mp hmem with hold | hnew
          · exact hcloses m hold
          · obtain rfl := List.mem_singleton.mp hnew
            exact hopcode
      · intro m hmem hmarked
        rcases List.mem_append.mp hmem with hold | hnew
        · exact h.marked m hold hmarked
        · obtain rfl := List.mem_singleton.mp hnew
          exact hopcode
  | clean => exact { h with }
  | terminate ec => exact h.terminate ec

theorem Farewell.move (h : Farewell c) (hmove : Move S c c') : Farewell c' := by
  cases hmove with
  | change hchange => exact h.change hchange
  | receive msg hchanges =>
      have hreceive : Farewell (c.receive msg) := { h with }
      exact hchanges.invariant hreceive fun _ _ hchange hfarewell => hfarewell.change hchange
  | timer i t phase => exact { h with }
  | timeout i t =>
      have hset : Farewell { c with timers := c.timers.set i { t with phase := .done } } :=
        { h with }
      exact hset.terminate _
  | shutdown tstat => exact { h with }
  | beginRead => exact { h with }
  | bytes buf => exact { h with }
  | endRead p => exact { h with }
  | write =>
      rw [writeFrame_eq]
      split <;> exact { h with }
  | wrote ec hpos hdone =>
      obtain ⟨last, -, ⟨-, rfl⟩ | ⟨-, -, rfl⟩⟩ := handleWriteFrame_cases hdone
      · have hset : Farewell { c with frameWrites := c.frameWrites - 1, currentMsgs := [] } :=
          { h with }
        exact hset.terminate _
      · exact { h with }

theorem farewell_of_run {response : ρ} {actions : List Action}
    (h : run S (init response) actions = some c) : Farewell c := by
  rcases run_proceeds h with ⟨hearly, -⟩ | ⟨d, hopened, hmoves, -⟩
  · apply hearly.blank.farewell
    rcases hearly.failing with ⟨hstate, -⟩ | ⟨hstate, -⟩ <;>
    · rw [hstate]
      exact SessionState.noConfusion
  · have hstart : Farewell d := by
      apply hopened.blank.farewell
      rw [hopened.state]
      exact SessionState.noConfusion
    exact hmoves.invariant hstart fun _ _ hmove hfarewell => hfarewell.move hmove

/-- The bytes that have been handed to the transport. -/
def Wired (S : Setting ρ) (c : Connection ρ) : Prop :=
  c.sent = S.request ++ c.written.flatMap Message.wire

theorem wired_move (h : Wired S c) (hmove : Move S c c') : Wired S c' := by
  cases hmove with
  | change hchange =>
      have hsame := hchange.unmoved
      rw [Wired, hsame.sent, hsame.written]
      exact h
  | receive msg hchanges =>
      have hsame := hchanges.unmoved
      rw [Wired, hsame.sent, hsame.written]
      exact h
  | timer i t phase => exact h
  | timeout i t =>
      rw [terminate_eq]
      exact h
  | shutdown tstat => exact h
  | beginRead => exact h
  | bytes buf => exact h
  | endRead p => exact h
  | write =>
      rw [writeFrame_eq]
      split
      · exact h
      · rw [Wired]
        simp only [List.flatMap_append, ← List.append_assoc]
        rw [show c.sent = _ from h]
  | wrote ec hpos hdone =>
      obtain ⟨last, -, ⟨-, rfl⟩ | ⟨-, -, rfl⟩⟩ := handleWriteFrame_cases hdone
      · rw [terminate_eq]
        exact h
      · exact h

theorem wired_of_run {response : ρ} {actions : List Action}
    (h : run S (init response) actions = some c) :
    c.sent = [] ∧ c.written = [] ∨ Wired S c := by
  rcases run_proceeds h with ⟨hearly, -⟩ | ⟨d, hopened, hmoves, -⟩
  · have hsent := hearly.sent
    split at hsent
    · exact .inl ⟨hsent, hearly.blank.written⟩
    · right
      rw [Wired, hsent, hearly.blank.written, List.flatMap_nil, List.append_nil]
  · have hstart : Wired S d := by
      rw [Wired, hopened.sent, hopened.blank.written, List.flatMap_nil, List.append_nil]
    exact .inr (hmoves.invariant (P := Wired S) hstart fun _ _ hmove hwired =>
      wired_move hwired hmove)

/-! ### From the application to the peer -/

theorem prepared_of_run {response : ρ} {actions : List Action}
    (h : run S (init response) actions = some c) :
    Outgoing.prepareAll .client c.accepted = .ok ((c.written ++ c.sendQueue).map unmarked) := by
  rw [(queue_of_run h).fifo]
  exact (farewell_of_run h).prepared

/-- In every run: after a close frame nothing but close frames is sent, no close frame is
sent while the connection is open, and nothing is written after a message that ends the
connection. -/
theorem closes_last {response : ρ} {actions : List Action}
    (h : run S (init response) actions = some c) :
    (∃ talk closes, c.written ++ c.sendQueue = talk ++ closes ∧
        (∀ msg ∈ talk, msg.opcode ≠ .close) ∧ (∀ msg ∈ closes, msg.opcode = .close) ∧
        (c.state = .opened → closes = []) ∧ (c.state = .closing → closes ≠ [])) ∧
      (∀ msg ∈ c.written.dropLast, msg.terminal = false) ∧
      ∀ msg ∈ c.written, msg.terminal = true → msg.opcode = .close := by
  have hqueue := queue_of_run h
  have hfarewell := farewell_of_run h
  refine ⟨?_, hqueue.terminal, ?_⟩
  · rw [hqueue.fifo]
    exact hfarewell.order
  · intro msg hmem
    apply hfarewell.marked
    rw [← hqueue.fifo]
    exact List.mem_append_left _ hmem

theorem closes_last_example :
    (∃ talk closes, sampleRun.written ++ sampleRun.sendQueue = talk ++ closes ∧
        (∀ msg ∈ talk, msg.opcode ≠ .close) ∧ (∀ msg ∈ closes, msg.opcode = .close) ∧
        (sampleRun.state = .opened → closes = []) ∧
        (sampleRun.state = .closing → closes ≠ [])) ∧
      (∀ msg ∈ sampleRun.written.dropLast, msg.terminal = false) ∧
      ∀ msg ∈ sampleRun.written, msg.terminal = true → msg.opcode = .close :=
  closes_last run_sampleActions

theorem prepareAll_append {cfg : Endpoint} {sent : List (MaskingKey × Outgoing)} :
    ∀ {outs more : List Message}, Outgoing.prepareAll cfg sent = .ok (outs ++ more) →
      Outgoing.prepareAll cfg (sent.take outs.length) = .ok outs := by
  induction sent with
  | nil =>
      intro outs more h
      have hnil := Except.ok.inj h
      rw [eq_comm, List.append_eq_nil_iff] at hnil
      rw [hnil.1]
      rfl
  | cons s sent ih =>
      intro outs more h
      cases outs with
      | nil => rfl
      | cons out outs =>
          obtain ⟨first, hfirst, hmore⟩ := bind_eq_ok.mp h
          obtain ⟨rest, hrest, hsame⟩ := bind_eq_ok.mp hmore
          obtain ⟨rfl, rfl⟩ := List.cons.inj (Except.ok.inj hsame)
          exact bind_eq_ok.mpr ⟨first, hfirst, bind_eq_ok.mpr ⟨outs, ih hrest, rfl⟩⟩

/-- What was written are the frames of the first messages of the application, which the
server takes one by one. -/
theorem written_frames {response : ρ} {actions : List Action}
    (h : run S (init response) actions = some c) {peer : Endpoint} (hserver : peer.server = true)
    (hsize : peer.maxMessageSize < 2 ^ 64) (hwhole : ∀ s ∈ c.accepted, s.2.Whole peer)
    {bytes : Bytes} (hbytes : S.request ++ bytes <+: c.sent) :
    ∃ frames : List Frame, Receiver.acceptAll peer none frames =
        ((c.accepted.take c.written.length).map fun s => Receiver.message s.2.opcode s.2.payload,
          .ok none) ∧
      bytes <+: frames.flatMap Frame.wire ∧
      (S.request ++ bytes = c.sent → bytes = frames.flatMap Frame.wire) := by
  have hside : peer.server = !Endpoint.client.server := hserver
  have hunmarked : (c.written.map unmarked).flatMap Message.wire = c.written.flatMap Message.wire := by
    rw [List.flatMap_map]
    rfl
  have hwritten : Outgoing.prepareAll .client (c.accepted.take c.written.length) =
      .ok (c.written.map unmarked) := by
    have hall := prepared_of_run h
    rw [List.map_append] at hall
    have hlength : (c.written.map unmarked).length = c.written.length := List.length_map unmarked
    rw [← hlength]
    exact prepareAll_append hall
  obtain ⟨frames, hwires, haccept⟩ := Outgoing.prepareAll_ok hside hsize
    (fun s hs => hwhole s (List.mem_of_mem_take hs)) hwritten
  rw [hunmarked] at hwires
  refine ⟨frames, haccept, ?_⟩
  rw [← hwires]
  rcases wired_of_run h with ⟨hsent, hnone⟩ | hsent
  · -- nothing has been sent, not even the request
    have hempty : bytes = [] := by
      rw [hsent] at hbytes
      exact (List.append_eq_nil_iff.mp (List.prefix_nil.mp hbytes)).2
    rw [hempty, hnone]
    exact ⟨List.nil_prefix, fun _ => rfl⟩
  · rw [show c.sent = _ from hsent] at hbytes ⊢
    exact ⟨(List.prefix_append_right_inj _).mp hbytes, List.append_cancel_left⟩

end ExchangeClient.Websocketpp.Connection
