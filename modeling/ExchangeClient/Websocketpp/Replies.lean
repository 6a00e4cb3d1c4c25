import ExchangeClient.Websocketpp.Handlers

/-!
# What a connection answers

Pings are answered with pongs, and close frames with close frames. A close was clean if
close frames went both ways.
-/

namespace ExchangeClient.Websocketpp.Connection

variable {ρ : Type} {S : Setting ρ} {c c' d : Connection ρ}

/-- The payloads of the pings that were received. -/
def pings (c : Connection ρ) : List Bytes :=
  (c.inbox.filter fun msg => msg.opcode = .ping).map Message.payload

/-- The payloads of the pongs that were sent. -/
def pongs (c : Connection ρ) : List Bytes :=
  (c.accepted.filter fun s => s.2.opcode = .pong).map fun s => s.2.payload

/-- A close frame was sent. -/
def SentClose (c : Connection ρ) : Prop := ∃ s ∈ c.accepted, s.2.opcode = .close

/-- Pings are answered in order as long as the connection is open. A close is clean only
if close frames went both ways. -/
structure Answers (c : Connection ρ) : Prop where
  pings : ∃ answered rest, c.pings = answered ++ rest ∧ answered.Sublist c.pongs ∧
    (c.state = .opened → rest = [])
  closing : c.state = .closing → c.SentClose
  clean : c.closeInfo.wasClean = true → c.GotClose ∧ c.SentClose

/-- A close frame that was received is taken for the end of the talk. -/
def Yields (c : Connection ρ) : Prop :=
  c.state = .opened ∨ c.state = .closing → c.GotClose →
    c.state = .closing ∧ c.closeInfo.wasClean = true

theorem pongs_append (c : Connection ρ) (s : MaskingKey × Outgoing) :
    c.pongs.Sublist
      (((c.accepted ++ [s]).filter fun s => s.2.opcode = .pong).map fun s => s.2.payload) := by
  rw [List.filter_append, List.map_append]
  exact List.sublist_append_left _ _

theorem SentClose.append (h : c.SentClose) (s : MaskingKey × Outgoing) :
    ∃ t ∈ c.accepted ++ [s], t.2.opcode = .close := by
  obtain ⟨t, ht, hop⟩ := h
  exact ⟨t, List.mem_append_left _ ht, hop⟩

theorem Answers.terminate (h : Answers c) (ec : Option ErrorCode) : Answers (c.terminate ec) := by
  obtain ⟨answered, rest, hpings, hpongs, -⟩ := h.pings
  rw [terminate_eq]
  exact {
    pings := ⟨answered, rest, hpings, hpongs, SessionState.noConfusion⟩
    closing := SessionState.noConfusion
    clean := fun hclean => h.clean ((wasClean_noteError c ec).symm.trans hclean) }

theorem Answers.change (h : Answers c) (hchange : Change S c c') : Answers c' := by
  obtain ⟨answered, rest, hpings, hpongs, hopened⟩ := h.pings
  cases hchange with
  | note info hinfo => exact { h with clean := fun hclean => h.clean (hinfo.symm.trans hclean) }
  | push o out hopen =>
      rw [enqueue_eq]
      exact {
        pings := ⟨answered, rest, hpings, hpongs.trans (pongs_append c _), hopened⟩
        closing := fun hclosing => nomatch hopen.symm.trans hclosing
        clean := fun hclean => ⟨(h.clean hclean).1, (h.clean hclean).2.append _⟩ }
  | close code reason out ack terminal hstate hack =>
      have hsent : ∀ key, ∃ s ∈ c.accepted ++ [(key, Outgoing.close code reason)],
          s.2.opcode = .close := by
        intro key
        exact ⟨(key, .close code reason), List.mem_append_right _ (List.mem_singleton_self _), rfl⟩
      rw [enqueue_eq]
      exact {
        pings := ⟨answered, rest, hpings, hpongs.trans (pongs_append c _),
          SessionState.noConfusion⟩
        closing := fun _ => hsent _
        clean := by
          intro hclean
          refine ⟨?_, hsent _⟩
          rcases (Bool.or_eq_true _ _).mp hclean with hack' | hbefore
          · exact hack hack'
          · exact (h.clean hbefore).1 }
  | clean hstate hclose => exact { h with clean := fun _ => ⟨hclose, h.closing hstate⟩ }
  | terminate ec => exact h.terminate ec

theorem yields_terminate (c : Connection ρ) (ec : Option ErrorCode) : (c.terminate ec).Yields := by
  intro hstate
  rw [state_terminate] at hstate
  rcases hstate with hstate | hstate <;> cases hstate

theorem yields_change (h : Yields c) (hchange : Change S c c') : Yields c' := by
  cases hchange with
  | note info hinfo =>
      intro hstate hclose
      exact ⟨(h hstate hclose).1, hinfo.trans (h hstate hclose).2⟩
  | push o out hopen =>
      rw [enqueue_eq]
      exact h
  | close code reason out ack terminal hstate =>
      rw [enqueue_eq]
      intro _ hclose
      refine ⟨rfl, ?_⟩
      change (ack || c.closeInfo.wasClean) = true
      rw [(h hstate hclose).2, Bool.or_true]
  | clean hstate => exact fun _ _ => ⟨hstate, rfl⟩
  | terminate ec => exact yields_terminate c ec

theorem pings_receive (c : Connection ρ) (msg : Message) :
    (c.receive msg).pings = c.pings ++ if msg.opcode = .ping then [msg.payload] else [] := by
  rw [pings, receive, List.filter_append, List.map_append]
  by_cases hping : msg.opcode = .ping <;> simp [pings, hping]

theorem gotClose_receive (h : c.GotClose) (msg : Message) : (c.receive msg).GotClose := by
  obtain ⟨m, hm, hop⟩ := h
  exact ⟨m, List.mem_append_left _ hm, hop⟩

/-- A message is received, and answered if it is a ping of an open connection. -/
theorem Answers.receive {msg : Message} (h : Answers c) (hchanges : Changes S (c.receive msg) d)
    (hreply : Replied S c msg d) : Answers d := by
  obtain ⟨answered, rest, hpings, hpongs, hopened⟩ := h.pings
  have hclean : c.closeInfo.wasClean = true → (c.receive msg).GotClose ∧ c.SentClose :=
    fun hclean => ⟨gotClose_receive (h.clean hclean).1 msg, (h.clean hclean).2⟩
  by_cases hping : c.state = .opened ∧ msg.opcode = .ping
  · obtain ⟨hopen, hop⟩ := hping
    obtain ⟨out, rfl⟩ := hreply.ping hopen hop
    rw [enqueue_eq]
    refine ⟨⟨answered ++ [msg.payload], [], ?_, ?_, fun _ => rfl⟩, ?_, ?_⟩
    · change (c.receive msg).pings = _
      rw [pings_receive, if_pos hop, hpings, hopened hopen, List.append_nil, List.append_nil]
    · change List.Sublist _ (List.map _ (List.filter _ (c.accepted ++ _)))
      rw [List.filter_append, List.map_append]
      exact hpongs.append (List.Sublist.refl _)
    · intro hclosing
      cases hopen.symm.trans hclosing
    · intro h'
      exact ⟨(hclean h').1, (hclean h').2.append _⟩
  · have hreceive : Answers (c.receive msg) := {
      pings := by
        refine ⟨answered, rest ++ if msg.opcode = .ping then [msg.payload] else [], ?_, hpongs, ?_⟩
        · rw [pings_receive, hpings, List.append_assoc]
        · intro hopen
          rw [hopened hopen, if_neg fun hop => hping ⟨hopen, hop⟩]
          rfl
      closing := h.closing
      clean := hclean }
    exact hchanges.invariant hreceive fun _ _ hchange hanswers => hanswers.change hchange

theorem Answers.move (h : Answers c) (hmove : Move S c c') : Answers c' := by
  cases hmove with
  | change hchange => exact h.change hchange
  | receive msg hchanges hreply => exact h.receive hchanges hreply
  | timer i t phase => exact { h with }
  | timeout i t =>
      have hset : Answers { c with timers := c.timers.set i { t with phase := .done } } :=
        { h with }
      exact hset.terminate _
  | shutdown tstat => exact { h with }
  | beginRead => exact { h with }
  | bytes buf => exact { h with }
  | endRead p => exact { h with }
  | write =>
      rw [writeFrame_eq]
      split <;> exact { h with }
  | wrote ec hpos hdone =>
      obtain ⟨last, -, ⟨-, rfl⟩ | ⟨-, -, rfl⟩⟩ := handleWriteFrame_cases hdone
      · have hset : Answers { c with frameWrites := c.frameWrites - 1, currentMsgs := [] } :=
          { h with }
        exact hset.terminate _
      · exact { h with }

theorem yields_move (h : Yields c) (hmove : Move S c c') : Yields c' := by
  cases hmove with
  | change hchange => exact yields_change h hchange
  | receive msg hchanges hreply =>
      by_cases hop : msg.opcode = .close
      · exact fun hstate _ => hreply.close (hchanges.talking hstate) hop
      · have hreceive : Yields (c.receive msg) := by
          intro hstate hclose
          obtain ⟨m, hm, hmop⟩ := hclose
          rcases List.mem_append.mp hm with hold | hnew
          · exact h hstate ⟨m, hold, hmop⟩
          · obtain rfl := List.mem_singleton.mp hnew
            exact absurd hmop hop
        exact hchanges.invariant (P := Yields) hreceive fun _ _ hchange hyields =>
          yields_change hyields hchange
  | timer i t phase => exact h
  | timeout i t => exact yields_terminate _ _
  | shutdown tstat => exact h
  | beginRead => exact h
  | bytes buf => exact h
  | endRead p => exact h
  | write =>
      rw [writeFrame_eq]
      split <;> exact h
  | wrote ec hpos hdone =>
      obtain ⟨last, -, ⟨-, rfl⟩ | ⟨-, -, rfl⟩⟩ := handleWriteFrame_cases hdone
      · exact yields_terminate _ _
      · exact h

theorem Opened.answers (h : Opened S c) : Answers c := by
  refine ⟨⟨[], [], ?_, List.nil_sublist _, fun _ => rfl⟩, ?_, ?_⟩
  · rw [pings, h.blank.inbox]
    rfl
  · intro hclosing
    cases h.state.symm.trans hclosing
  · intro hclean
    cases h.blank.wasClean.symm.trans hclean

theorem Opened.yields (h : Opened S c) : Yields c := by
  intro _ hclose
  obtain ⟨msg, hmsg, -⟩ := hclose
  rw [h.blank.inbox] at hmsg
  cases hmsg

theorem state_push (c : Connection ρ) (o : Outgoing) : (c.push S o).2.state = c.state := by
  rw [push]
  split
  · rfl
  · cases c.prepare S o with
    | error ec => rfl
    | ok out =>
        change (c.enqueue (S.rng c.drawn) o out).state = c.state
        rw [enqueue_eq]

/-- As long as the handlers do not close it, a connection stays open until a close frame is
received. -/
theorem opened_dispatch (hhandler : ∀ events code reason, Call.close code reason ∉ S.handler events)
    {msg : Message} (hclose : msg.opcode ≠ .close) (hopen : c.state = .opened) :
    (dispatch S msg c).state = .opened := by
  have hperforms : ∀ (calls : List Call) (c : Connection ρ),
      (∀ code reason, Call.close code reason ∉ calls) → c.state = .opened →
      (calls.foldl (fun c call => (c.perform S call).2) c).state = .opened := by
    intro calls
    induction calls with
    | nil => exact fun _ _ hopen => hopen
    | cons call calls ih =>
        intro c hcalls hopen
        apply ih _ fun code reason hmem => hcalls code reason (List.mem_cons_of_mem _ hmem)
        cases call with
        | send op payload => exact (state_push c _).trans hopen
        | ping payload => exact (state_push c _).trans hopen
        | pong payload => exact (state_push c _).trans hopen
        | close code reason => exact absurd List.mem_cons_self (hcalls code reason)
  rw [dispatch]
  by_cases hcontrol : msg.opcode.isControl = false
  · rw [if_pos hcontrol, if_neg (not_not.mpr hopen)]
    exact hperforms _ _ (hhandler _) hopen
  · rw [if_neg hcontrol, processControlFrame, if_neg (by rw [hopen]; exact SessionState.noConfusion),
      if_neg fun h => h.2 hopen]
    by_cases hping : msg.opcode = .ping
    · rw [if_pos hping]
      exact (state_push _ _).trans hopen
    · rw [if_neg hping, if_neg hclose]
      exact hopen

theorem opened_dispatchAll
    (hhandler : ∀ events code reason, Call.close code reason ∉ S.handler events)
    {msgs : List Message} : ∀ {c : Connection ρ}, (∀ msg ∈ msgs, msg.opcode ≠ .close) →
      c.state = .opened → (msgs.foldl (fun c msg => dispatch S msg c) c).state = .opened := by
  induction msgs with
  | nil => exact fun _ hopen => hopen
  | cons msg msgs ih =>
      intro c hmsgs hopen
      rw [List.forall_mem_cons] at hmsgs
      exact ih hmsgs.2 (opened_dispatch hhandler hmsgs.1 hopen)

theorem accepted_dispatchAll {msgs : List Message} : ∀ {c : Connection ρ}, c.state ≠ .connecting →
    ∀ s ∈ c.accepted, s ∈ (msgs.foldl (fun c msg => dispatch S msg c) c).accepted := by
  induction msgs with
  | nil => exact fun _ _ hs => hs
  | cons msg msgs ih =>
      intro c hstarted s hs
      have hchanges := dispatch_changes (S := S) msg hstarted
      exact ih (hchanges.started hstarted) s (hchanges.accepted s hs)

theorem accepted_afterFrames (c : Connection ρ) (result : Except ProcessorError Processor) :
    ∀ s ∈ c.accepted, s ∈ (c.afterFrames S result).accepted := by
  cases result with
  | ok p => exact fun _ hs => hs
  | error ec => exact (afterFrames_error c ec).1.accepted

theorem inbox_afterFrames (c : Connection ρ) (result : Except ProcessorError Processor) :
    (c.afterFrames S result).inbox = c.inbox := by
  cases result with
  | ok p => rfl
  | error ec => exact (afterFrames_error c ec).1.unmoved.inbox

end ExchangeClient.Websocketpp.Connection
