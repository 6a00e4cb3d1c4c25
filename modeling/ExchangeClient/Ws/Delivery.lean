import ExchangeClient.Json.Texts
import ExchangeClient.Websocketpp.Handlers
import ExchangeClient.Ws.Session

/-!
# The clients on a connection

`WS::WS` installs its handlers on a connection of websocketpp. The runs of a client with
its connection are then runs of that connection, and what was assumed of `send` there holds
here: the frames of the open handler are accepted, in order, and nothing else is.
-/

namespace ExchangeClient

open Websocketpp

variable {F ρ : Type}

/-- The handlers that `WS::WS` installs: the open handler sends its frames, the others
make no calls. -/
def WS.handlers (fmt : DoubleFormat F) (onOpenCb : Except Fault (List (Json F)))
    (events : List Event) : List Call :=
  match events.getLast? with
  | some .opened => (WS.openHandler fmt onOpenCb).1.map (.send .text)
  | _ => []

namespace Websocketpp

/-- What the handler of a message preserves the loop over the bytes preserves. -/
theorem readFrames_invariant {τ : Type} {cfg : Endpoint} {dispatch : Message → τ → τ} {P : τ → Prop}
    (hdispatch : ∀ msg t, P t → P (dispatch msg t)) {p : Processor} {buf : Bytes} {t t' : τ}
    {result : Except ProcessorError Processor} (ht : P t)
    (h : readFrames cfg dispatch p buf t = some (t', result)) : P t' := by
  have hbody : ∀ s next, P s.2.2 → readBody cfg dispatch s = .inl next → P next.2.2 := by
    rintro ⟨p, buf, t⟩ next hP hnext
    simp only [readBody] at hnext
    split at hnext
    · cases hnext
    · split at hnext
      · cases hnext
      · split at hnext
        · split at hnext
          · obtain rfl := Sum.inl.inj hnext
            exact hdispatch _ _ hP
          · obtain rfl := Sum.inl.inj hnext
            exact hP
        · obtain rfl := Sum.inl.inj hnext
          exact hP
  have hend : ∀ s out, P s.2.2 → readBody cfg dispatch s = .inr out → P out.1 := by
    rintro ⟨p, buf, t⟩ out hP hout
    simp only [readBody] at hout
    split at hout
    · obtain rfl := Sum.inr.inj hout
      exact hP
    · split at hout
      · obtain rfl := Sum.inr.inj hout
        exact hP
      · split at hout
        · split at hout <;> cases hout
        · cases hout
  exact Loop.run_invariant hbody hend ht h

namespace Connection

/-! ### Data that was accepted -/

def dataOf : Outgoing → Option Message
  | .data msg => some msg
  | _ => none

/-- The data messages that were accepted for sending. -/
def sentData (c : Connection ρ) : List Message := c.accepted.filterMap fun s => dataOf s.2

/-- The data messages and the calls of the open handler are those of `c`. -/
structure Quiet (c d : Connection ρ) : Prop where
  data : d.sentData = c.sentData
  opened : d.events.count .opened = c.events.count .opened

variable {S : Setting ρ} {c c' d : Connection ρ}

theorem Quiet.refl (c : Connection ρ) : Quiet c c := ⟨rfl, rfl⟩

theorem Quiet.trans (h : Quiet c d) (h' : Quiet d c') : Quiet c c' :=
  ⟨h'.data.trans h.data, h'.opened.trans h.opened⟩

theorem quiet_terminate (c : Connection ρ) (ec : Option ErrorCode) : Quiet c (c.terminate ec) := by
  rw [terminate_eq]
  exact ⟨rfl, rfl⟩

theorem quiet_enqueue (c : Connection ρ) (key : MaskingKey) {o : Outgoing} (ho : dataOf o = none)
    (msg : Message) : Quiet c (c.enqueue key o msg) := by
  rw [enqueue_eq]
  refine ⟨?_, rfl⟩
  have hnone : [(key, o)].filterMap (fun s => dataOf s.2) = [] := by
    rw [List.filterMap_cons, ho]
    rfl
  rw [sentData, List.filterMap_append, hnone, List.append_nil]
  rfl

theorem quiet_note (c : Connection ρ) (info : CloseInfo) :
    Quiet c { c with closeInfo := info } := ⟨rfl, rfl⟩

theorem quiet_pong (c : Connection ρ) (payload : Bytes) : Quiet c (c.pong S payload).2 := by
  rw [pong, push]
  split
  · exact .refl c
  · cases c.prepare S (.pong payload) with
    | error ec => exact .refl c
    | ok out => exact quiet_enqueue c _ rfl out

theorem quiet_sendCloseFrame (c : Connection ρ) (code : Close.Status) (reason : Bytes)
    (ack terminal : Bool) : Quiet c (c.sendCloseFrame S code reason ack terminal).2 := by
  rcases hwith : closeWith c.closeInfo code reason ack with ⟨code', reason'⟩
  simp only [sendCloseFrame, hwith]
  split
  · exact quiet_note c _
  · next out hout =>
      have hset : Quiet c (({ c with
          state := .closing
          closeInfo := { c.closeInfo with
            localCode := code', localReason := reason'
            wasClean := ack || c.closeInfo.wasClean } }).setHandshakeTimer
              .closeHandshakeTimeout) := ⟨rfl, rfl⟩
      exact hset.trans (quiet_enqueue _ _ rfl _)

theorem quiet_close (c : Connection ρ) (code : Close.Status) (reason : Bytes) :
    Quiet c (c.close S code reason).2 := by
  rw [close]
  split
  · exact .refl c
  · exact quiet_sendCloseFrame c code _ _ _

theorem quiet_processClose (c : Connection ρ) (payload : Bytes) :
    Quiet c (c.processClose S payload) := by
  simp only [processClose, sendCloseAck]
  split
  · exact (quiet_note c _).trans (quiet_sendCloseFrame _ _ _ _ _)
  · split
    · exact (quiet_note c _).trans (quiet_sendCloseFrame _ _ _ _ _)
    · split
      · exact (quiet_note c _).trans (quiet_sendCloseFrame _ _ _ _ _)
      · split
        · exact quiet_note c _
        · exact quiet_note c _

theorem quiet_processControlFrame (c : Connection ρ) (msg : Message) :
    Quiet c (c.processControlFrame S msg) := by
  rw [processControlFrame]
  split
  · exact .refl c
  · split
    · exact .refl c
    · split
      · exact quiet_pong c msg.payload
      · split
        · exact quiet_processClose c msg.payload
        · exact .refl c

section Client

variable {fmt : DoubleFormat F} {onOpenCb : Except Fault (List (Json F))}
  (hhandler : S.handler = WS.handlers fmt onOpenCb)

include hhandler

theorem quiet_notify {e : Event} (he : e ≠ .opened) (c : Connection ρ) :
    Quiet c (c.notify S e) := by
  have hnone : S.handler (c.events ++ [e]) = [] := by
    rw [hhandler, WS.handlers, List.getLast?_concat]
    cases e with
    | opened => exact absurd rfl he
    | message msg => rfl
    | failed => rfl
    | closed => rfl
  simp only [notify, hnone, List.foldl_nil]
  refine ⟨rfl, ?_⟩
  rw [List.count_append, List.count_singleton, if_neg (by simpa using he)]
  rfl

theorem quiet_dispatch (msg : Message) (c : Connection ρ) : Quiet c (dispatch S msg c) := by
  have hinbox : Quiet c { c with inbox := c.inbox ++ [msg] } := ⟨rfl, rfl⟩
  rw [dispatch]
  split
  · split
    · exact hinbox
    · exact hinbox.trans (quiet_notify hhandler Event.noConfusion _)
  · exact hinbox.trans (quiet_processControlFrame _ msg)

omit hhandler in
theorem quiet_afterFrames (c : Connection ρ) (result : Except ProcessorError Processor) :
    Quiet c (c.afterFrames S result) := by
  cases result with
  | ok p => exact ⟨rfl, rfl⟩
  | error ec =>
      have hclose := quiet_close (S := S) c ec.toWs ec.message
      rw [afterFrames]
      rcases hresult : c.close S ec.toWs ec.message with ⟨closeEc | closeEc, d⟩
      · rw [hresult] at hclose
        exact hclose
      · rw [hresult] at hclose
        exact hclose.trans (quiet_terminate d _)

omit hhandler in
theorem quiet_handleReadError (c : Connection ρ) (ec : ErrorCode) :
    Quiet c (c.handleReadError ec) := by
  rw [handleReadError]
  split
  · exact .refl c
  · split
    · exact quiet_terminate c _
    · split
      · exact .refl c
      · exact quiet_terminate c _

theorem quiet_handleReadFrame {result : Except ErrorCode Bytes}
    (h : c.handleReadFrame S result = some d) : Quiet c d := by
  cases result with
  | error ec =>
      obtain rfl := Option.some.inj h
      exact quiet_handleReadError c ec
  | ok buf =>
      rw [handleReadFrame] at h
      split at h
      · obtain rfl := Option.some.inj h
        exact quiet_handleReadError c _
      · obtain ⟨⟨c', result⟩, hread, rfl⟩ := Option.map_eq_some_iff.mp h
        have hquiet : Quiet c c' := by
          have hstart : Quiet c { c with received := c.received ++ [buf] } := ⟨rfl, rfl⟩
          exact readFrames_invariant (fun msg c' hc' => hc'.trans (quiet_dispatch hhandler msg c'))
            hstart hread
        exact hquiet.trans (quiet_afterFrames c' result)

end Client

/-! ### The handshake and the writes -/

theorem quiet_handleConnect (c : Connection ρ) (ec : Option TransportError) :
    Quiet c (c.handleConnect ec) := by
  cases ec with
  | some ec => exact quiet_terminate c _
  | none =>
      rw [handleConnect]
      split
      · exact quiet_terminate c _
      · exact ⟨rfl, rfl⟩

theorem quiet_handleTransportInit (c : Connection ρ) (ec : Option TransportError) :
    Quiet c (c.handleTransportInit S ec) := by
  cases ec with
  | some ec =>
      simp only [handleTransportInit]
      split
      · exact quiet_terminate c _
      · exact quiet_terminate c _
  | none =>
      simp only [handleTransportInit]
      split
      · exact quiet_terminate c _
      · exact ⟨rfl, rfl⟩

theorem quiet_handleSendHttpRequest (c : Connection ρ) (ec : Option ErrorCode) :
    Quiet c (c.handleSendHttpRequest ec) := by
  rw [handleSendHttpRequest]
  split
  · exact .refl c
  · exact quiet_terminate c _
  · exact ⟨rfl, rfl⟩

theorem quiet_handleWriteFrame {ec : Option ErrorCode} (h : c.handleWriteFrame ec = some d) :
    Quiet c d := by
  have hdone : Quiet c { c with currentMsgs := [] } := ⟨rfl, rfl⟩
  obtain ⟨last, -, rfl⟩ := Option.map_eq_some_iff.mp h
  cases ec with
  | some ec => exact hdone.trans (quiet_terminate _ _)
  | none =>
      simp only
      split
      · exact hdone.trans (quiet_terminate _ _)
      · split
        · exact ⟨rfl, rfl⟩
        · exact ⟨rfl, rfl⟩

theorem quiet_fire {i : Nat} (h : c.fire i = some d) : Quiet c d := by
  obtain ⟨t, -, ⟨-, ec, rfl⟩ | ⟨-, rfl⟩⟩ := fire_cases h
  · have hset : Quiet c { c with timers := c.timers.set i { t with phase := .done } } := ⟨rfl, rfl⟩
    exact hset.trans (quiet_terminate _ _)
  · exact ⟨rfl, rfl⟩

/-! ### The open handler -/

theorem prepareDataFrame_text {frame : Bytes} (h : Utf8.Valid frame) (cfg : Endpoint)
    (key : MaskingKey) (out : Message) :
    ∃ out', Processor.prepareDataFrame cfg key (Receiver.message .text frame) out = .ok out' := by
  have hvalid : Validator.validate frame = true := Validator.validate_iff.mpr h
  have hnot : ¬ ((Receiver.message .text frame).opcode = .text ∧
      Validator.validate (Receiver.message .text frame).payload = false) := by
    rintro ⟨-, hinvalid⟩
    cases hvalid.symm.trans hinvalid
  have hdata : ¬ (Receiver.message .text frame).opcode.isControl = true := Bool.false_ne_true
  rw [Processor.prepareDataFrame, if_neg hdata, if_neg hnot]
  exact ⟨_, rfl⟩

/-- Texts that are UTF-8 are accepted by an open connection. -/
theorem send_text (hopen : c.state = .opened) {frame : Bytes} (h : Utf8.Valid frame) :
    (c.perform S (.send .text frame)).2.state = .opened ∧
      (c.perform S (.send .text frame)).2.sentData = c.sentData ++ [Receiver.message .text frame] ∧
      (c.perform S (.send .text frame)).2.events = c.events := by
  obtain ⟨out, hout⟩ := prepareDataFrame_text h .client (S.rng c.drawn) (getMessage .text)
  have hprepare : c.prepare S (.data (Receiver.message .text frame)) = .ok out := hout
  have hpush : (c.perform S (.send .text frame)).2 =
      c.enqueue (S.rng c.drawn) (.data (Receiver.message .text frame)) out := by
    change (c.push S (.data (Receiver.message .text frame))).2 = _
    rw [push, if_neg (not_not.mpr hopen), hprepare]
  rw [hpush, enqueue_eq]
  refine ⟨hopen, ?_, rfl⟩
  exact List.filterMap_append ..

theorem send_texts {frames : List Bytes} (hframes : ∀ frame ∈ frames, Utf8.Valid frame) :
    ∀ {c : Connection ρ}, c.state = .opened →
      let d := (frames.map (Call.send .text)).foldl (fun c call => (c.perform S call).2) c
      d.sentData = c.sentData ++ frames.map (Receiver.message .text) ∧ d.events = c.events := by
  induction frames with
  | nil => exact fun _ => ⟨(List.append_nil _).symm, rfl⟩
  | cons frame frames ih =>
      intro c hopen
      rw [List.forall_mem_cons] at hframes
      obtain ⟨hopen', hdata, hevents⟩ := send_text (S := S) hopen hframes.1
      obtain ⟨hrest, hsame⟩ := ih hframes.2 hopen'
      refine ⟨?_, hsame.trans hevents⟩
      rw [List.map_cons, List.foldl_cons, hrest, hdata, List.append_assoc]
      rfl

/-- Each call of the open handler has had its frames accepted, and nothing else was. -/
def Announced (frames : List Bytes) (c : Connection ρ) : Prop :=
  c.sentData = (List.replicate (c.events.count .opened) (frames.map (Receiver.message .text))).flatten

theorem Quiet.announced {frames : List Bytes} (h : Quiet c d) (hc : Announced frames c) :
    Announced frames d := by
  rw [Announced, h.data, h.opened]
  exact hc

section Runs

variable {fmt : DoubleFormat F} {onOpenCb : Except Fault (List (Json F))}
  (hhandler : S.handler = WS.handlers fmt onOpenCb)
  (hframes : ∀ frame ∈ (WS.openHandler fmt onOpenCb).1, Utf8.Valid frame)

include hhandler hframes

theorem announced_notify (hopen : c.state = .opened)
    (hc : Announced (WS.openHandler fmt onOpenCb).1 c) :
    Announced (WS.openHandler fmt onOpenCb).1 (c.notify S .opened) := by
  have hcalls : S.handler (c.events ++ [.opened]) =
      (WS.openHandler fmt onOpenCb).1.map (.send .text) := by
    rw [hhandler, WS.handlers, List.getLast?_concat]
  obtain ⟨hdata, hevents⟩ := send_texts (S := S) hframes
    (c := { c with events := c.events ++ [.opened] }) hopen
  simp only [notify, hcalls]
  rw [Announced, hdata, hevents, List.count_append, List.count_singleton_self, List.replicate_add,
    List.flatten_append]
  have hold : sentData { c with events := c.events ++ [.opened] } = c.sentData := rfl
  rw [hold, hc, List.replicate_one, List.flatten_singleton]

theorem announced_openConnection {rest : Bytes}
    (hc : Announced (WS.openHandler fmt onOpenCb).1 c)
    (h : c.openConnection S rest = some d) : Announced (WS.openHandler fmt onOpenCb).1 d := by
  have hend : Announced (WS.openHandler fmt onOpenCb).1
      (if (S.reader.negotiateExtensions c.response).isSome = true then
        c.terminate (some (.library .extensionNegFailed)) else c) := by
    split
    · exact (quiet_terminate c _).announced hc
    · exact hc
  rw [openConnection] at h
  refine (quiet_handleReadFrame hhandler h).announced (announced_notify hhandler hframes rfl ?_)
  exact hend

theorem announced_handleResponse {buf : Bytes} (hc : Announced (WS.openHandler fmt onOpenCb).1 c)
    (h : c.handleResponse S buf = some d) : Announced (WS.openHandler fmt onOpenCb).1 d := by
  rw [handleResponse] at h
  split at h
  · obtain rfl := Option.some.inj h
    exact (quiet_terminate c _).announced hc
  · next response processed hconsume =>
      have hset : Quiet c { c with response := response } := ⟨rfl, rfl⟩
      have hcancel : Quiet c { c with response := response }.cancelHandshakeTimer := by
        rw [cancelHandshakeTimer_eq]
        exact ⟨rfl, rfl⟩
      simp only at h
      split at h
      · split at h
        · obtain rfl := Option.some.inj h
          exact (hcancel.trans (quiet_terminate _ _)).announced hc
        · exact announced_openConnection hhandler hframes (hcancel.announced hc) h
      · obtain rfl := Option.some.inj h
        exact (hset.trans ⟨rfl, rfl⟩).announced hc

theorem announced_handleReadHttpResponse {result : Except ErrorCode Bytes}
    (hc : Announced (WS.openHandler fmt onOpenCb).1 c)
    (h : c.handleReadHttpResponse S result = some d) :
    Announced (WS.openHandler fmt onOpenCb).1 d := by
  cases result with
  | error ec =>
      simp only [handleReadHttpResponse] at h
      split at h
      · obtain rfl := Option.some.inj h
        exact (quiet_terminate c _).announced hc
      · obtain rfl := Option.some.inj h
        exact hc
  | ok buf =>
      simp only [handleReadHttpResponse] at h
      split at h
      · obtain rfl := Option.some.inj h
        exact hc
      · obtain rfl := Option.some.inj h
        exact (quiet_terminate c _).announced hc
      · exact announced_handleResponse hhandler hframes hc h

theorem announced_step {a : Action} (ha : ∀ call, a ≠ .call call)
    (hc : Announced (WS.openHandler fmt onOpenCb).1 c) (h : step S c a = some d) :
    Announced (WS.openHandler fmt onOpenCb).1 d := by
  cases a with
  | call call => exact absurd rfl (ha call)
  | connected ec =>
      simp only [step, Option.ite_none_right_eq_some] at h
      obtain ⟨-, heq⟩ := h
      obtain rfl := Option.some.inj heq
      have hset : Quiet c { c with connects := c.connects - 1 } := ⟨rfl, rfl⟩
      exact (hset.trans (quiet_handleConnect _ ec)).announced hc
  | initialized ec =>
      simp only [step, Option.ite_none_right_eq_some] at h
      obtain ⟨-, heq⟩ := h
      obtain rfl := Option.some.inj heq
      have hset : Quiet c { c with inits := c.inits - 1 } := ⟨rfl, rfl⟩
      exact (hset.trans (quiet_handleTransportInit _ ec)).announced hc
  | wroteRequest ec =>
      simp only [step, Option.ite_none_right_eq_some] at h
      obtain ⟨-, heq⟩ := h
      obtain rfl := Option.some.inj heq
      have hset : Quiet c { c with requestWrites := c.requestWrites - 1 } := ⟨rfl, rfl⟩
      exact (hset.trans (quiet_handleSendHttpRequest _ _)).announced hc
  | readResponse result =>
      simp only [step, Option.ite_none_right_eq_some] at h
      have hset : Quiet c { c with responseReads := c.responseReads - 1 } := ⟨rfl, rfl⟩
      exact announced_handleReadHttpResponse hhandler hframes (hset.announced hc) h.2
  | readFrame result =>
      simp only [step, Option.ite_none_right_eq_some] at h
      have hset : Quiet c { c with frameReads := c.frameReads - 1 } := ⟨rfl, rfl⟩
      exact (hset.trans (quiet_handleReadFrame hhandler h.2)).announced hc
  | writeFrame =>
      simp only [step, Option.ite_none_right_eq_some] at h
      obtain ⟨-, heq⟩ := h
      obtain rfl := Option.some.inj heq
      have hwrite : Quiet c { c with writeTasks := c.writeTasks - 1 }.writeFrame := by
        rw [writeFrame_eq]
        split <;> exact ⟨rfl, rfl⟩
      exact hwrite.announced hc
  | wroteFrames ec =>
      simp only [step, Option.ite_none_right_eq_some] at h
      have hset : Quiet c { c with frameWrites := c.frameWrites - 1 } := ⟨rfl, rfl⟩
      exact (hset.trans (quiet_handleWriteFrame h.2)).announced hc
  | expire i =>
      obtain ⟨t, -, -, rfl⟩ := expire_cases h
      have hset : Quiet c { c with timers := c.timers.set i { t with phase := .expired } } :=
        ⟨rfl, rfl⟩
      exact hset.announced hc
  | fire i => exact (quiet_fire h).announced hc
  | shutdown tstat =>
      simp only [step, Option.ite_none_right_eq_some] at h
      obtain ⟨-, heq⟩ := h
      obtain rfl := Option.some.inj heq
      have hset : Quiet c { c with shutdowns := c.shutdowns.erase tstat } := ⟨rfl, rfl⟩
      rw [handleTerminate_eq]
      have hend : TerminateStatus.event tstat ≠ .opened := by cases tstat <;> exact Event.noConfusion
      exact (hset.trans (quiet_notify hhandler hend _)).announced hc

/-- In every run in which only the handlers of `WS::WS` send. -/
theorem announced_of_run {response : ρ} {actions : List Action}
    (h : run S (init response) actions = some c) (hcalls : ∀ call, .call call ∉ actions) :
    Announced (WS.openHandler fmt onOpenCb).1 c := by
  have hall : ∀ {actions : List Action} {c d : Connection ρ}, (∀ call, .call call ∉ actions) →
      Announced (WS.openHandler fmt onOpenCb).1 c → run S c actions = some d →
      Announced (WS.openHandler fmt onOpenCb).1 d := by
    intro actions
    induction actions with
    | nil =>
        intro c d _ hc hrun
        obtain rfl := Option.some.inj hrun
        exact hc
    | cons a actions ih =>
        intro c d hcalls hc hrun
        obtain ⟨next, hstep, hrest⟩ := Transition.follow_cons.mp hrun
        refine ih (fun call hmem => hcalls call (List.mem_cons_of_mem _ hmem)) ?_ hrest
        refine announced_step hhandler hframes ?_ hc hstep
        rintro call rfl
        exact hcalls call List.mem_cons_self
  have hinit : Announced (WS.openHandler fmt onOpenCb).1 (init response) := rfl
  exact hall hcalls hinit h

end Runs

/-- The open handler is called first, and once, on a connection that gets open. -/
theorem opened_first {response : ρ} {actions : List Action}
    (h : run S (init response) actions = some c) (hc : c.internalState = .processConnection) :
    ∃ rest, c.events.filter (· ≠ .failed) = .opened :: rest ∧ .opened ∉ rest := by
  refine ⟨_, (told_of_run h hc).order, ?_⟩
  intro hmem
  rcases List.mem_append.mp hmem with hmessage | hclosed
  · obtain ⟨msg, -, hmsg⟩ := List.mem_map.mp hmessage
    cases hmsg
  · cases List.eq_of_mem_replicate hclosed

theorem events_of_unopened {response : ρ} {actions : List Action}
    (h : run S (init response) actions = some c) (hc : c.internalState ≠ .processConnection) :
    c.events = [] ∨ c.events = [.failed] := by
  rcases run_proceeds h with ⟨hearly, -⟩ | ⟨d, hopened, hmoves, -⟩
  · rcases hearly.failing with ⟨-, -, hevents⟩ | ⟨-, ⟨-, hevents⟩ | ⟨-, hevents⟩⟩
    · exact .inl hevents
    · exact .inl hevents
    · exact .inr hevents
  · exact absurd (hmoves.settled hopened.settled).internalState hc

theorem opened_count_of_run {response : ρ} {actions : List Action}
    (h : run S (init response) actions = some c) :
    c.events.count .opened = if c.internalState = .processConnection then 1 else 0 := by
  split
  · next hc =>
      obtain ⟨rest, hfilter, hrest⟩ := opened_first h hc
      have hcount : (c.events.filter (· ≠ .failed)).count .opened = c.events.count .opened :=
        List.count_filter (by decide)
      rw [← hcount, hfilter, List.count_cons_self, List.count_eq_zero.mpr hrest]
  · next hc =>
      rcases events_of_unopened h hc with hevents | hevents <;>
      · rw [hevents]
        rfl

end Connection

end Websocketpp

/-! ### Sessions -/

section Sessions

variable {κ ε σ : Type}

/-- How a client is used on a connection: the calls made before the connection is opened,
what `on_open` finds, and the calls that `on_message_cb` makes for a message, after all the
events up to it. -/
structure Usage (κ ε : Type) where
  early : List (κ × Bytes)
  env : ε
  callback : List Event → List (κ × Bytes)

namespace Usage

variable (U : Usage κ ε)

/-- What an event of the connection is for the session, if it is the last of `past`. -/
def eventOf (past : List Event) : Event → List (SessionEvent κ ε)
  | .opened => [.opened U.env]
  | .message msg => [.message msg.payload (U.callback past)]
  | .failed => []
  | .closed => []

def eventsFrom (past : List Event) : List Event → List (SessionEvent κ ε)
  | [] => []
  | e :: events => U.eventOf (past ++ [e]) e ++ eventsFrom (past ++ [e]) events

/-- The session that a connection with these events has carried. -/
def session (events : List Event) : List (SessionEvent κ ε) :=
  U.early.map .subscribe ++ U.eventsFrom [] events

end Usage

namespace Session

variable {Sub : Subscriber F κ ε σ} {fmt : DoubleFormat F} {U : Usage κ ε}

/-- Before the connection opens, calls are recorded. -/
theorem run_subscribe (client : σ) (calls : List (κ × Bytes)) :
    run Sub fmt (.init client) (calls.map .subscribe) = some (.init (Sub.record client calls)) := by
  induction calls generalizing client with
  | nil => rfl
  | cons call calls ih => exact Transition.follow_cons.mpr ⟨_, rfl, ih _⟩

/-- An open connection carries every message. -/
theorem run_eventsFrom_open {events : List Event} (h : .opened ∉ events) :
    ∀ {s : Session σ} (past : List Event), s.isOpen = true → s.fault = none →
      ∃ t, run Sub fmt s (U.eventsFrom past events) = some t ∧ t.sent = s.sent ∧
        t.fault = none ∧ t.isOpen = true := by
  induction events with
  | nil => exact fun past hopen hfault => ⟨_, rfl, rfl, hfault, hopen⟩
  | cons e events ih =>
      intro s past hopen hfault
      rw [List.mem_cons, not_or] at h
      cases e with
      | opened => exact absurd rfl h.1
      | message msg =>
          obtain ⟨t, hrun, hsent, hend⟩ := ih h.2
            (s := { s with client := Sub.record s.client (U.callback (past ++ [.message msg])) })
            (past ++ [.message msg]) hopen hfault
          refine ⟨t, ?_, hsent, hend⟩
          refine Transition.follow_cons.mpr ⟨_, ?_, hrun⟩
          exact if_pos ⟨hopen, hfault⟩
      | failed => exact ih h.2 _ hopen hfault
      | closed => exact ih h.2 _ hopen hfault

/-- The session of a connection that is opened once, and first of all. -/
theorem run_eventsFrom_closed {client : σ} {outcome : List Bytes × Option Fault}
    (houtcome : WS.openHandler fmt (Sub.onOpen client U.env) = outcome) (hnone : outcome.2 = none)
    {events rest : List Event} (h : events.filter (· ≠ .failed) = .opened :: rest)
    (hrest : .opened ∉ rest) (past : List Event) :
    ∃ t, run Sub fmt (.init client) (U.eventsFrom past events) = some t ∧ t.sent = outcome.1 ∧
      t.fault = none ∧ t.isOpen = true := by
  induction events generalizing past with
  | nil => cases h
  | cons e events ih =>
      cases e with
      | opened =>
          obtain ⟨-, htail⟩ := List.cons.inj h
          have hmore : .opened ∉ events := by
            intro hmem
            rw [← htail] at hrest
            exact hrest (List.mem_filter.mpr ⟨hmem, by decide⟩)
          obtain ⟨t, hrun, hsent, hend⟩ : ∃ t, run Sub fmt ⟨client, true, outcome.1, outcome.2⟩
              (U.eventsFrom (past ++ [.opened]) events) = some t ∧ t.sent = outcome.1 ∧
                t.fault = none ∧ t.isOpen = true :=
            run_eventsFrom_open hmore _ rfl hnone
          refine ⟨t, ?_, hsent, hend⟩
          refine Transition.follow_cons.mpr ⟨_, ?_, hrun⟩
          rw [← houtcome]
          rfl
      | message msg => cases (List.cons.inj h).1
      | failed => exact ih h _
      | closed => cases (List.cons.inj h).1

end Session

namespace Subscriber

variable {Sub : Subscriber F κ ε σ} {fmt : DoubleFormat F} {client : σ}
  {introduction : ε → List (Json F)}

theorem Announces.valid_frames (h : Sub.Announces client introduction)
    {calls : List (κ × Bytes)} (hcalls : ValidCalls calls) (env : ε) :
    ∀ frame ∈ (WS.openHandler fmt (Sub.onOpen (Sub.record client calls) env)).1,
      Utf8.Valid frame := by
  obtain ⟨messages, hopen, hmessages, -⟩ := h.onOpen calls env hcalls
  have hall : ∀ message ∈ introduction env ++ messages, message.WellFormed fun _ => False := by
    intro message hmem
    rcases List.mem_append.mp hmem with hin | hin
    · exact h.wellFormed env message hin
    · exact hmessages message hin
  obtain ⟨frames, hsend, hframes⟩ := WS.sendAll_wellFormed fmt hall
  have hsent : (WS.openHandler fmt (Sub.onOpen (Sub.record client calls) env)).1 = frames := by
    rw [hopen, WS.openHandler, hsend]
  rw [hsent]
  intro frame hframe
  obtain ⟨i, hi, rfl⟩ := List.getElem_of_mem hframe
  have hvalue := List.forall₂_iff_get.mp hframes
  have hi' : i < (introduction env ++ messages).length := hvalue.1 ▸ hi
  exact Json.valid_dump_of_noFloats (hall _ (List.getElem_mem hi')) (hvalue.2 i hi' hi).1

/-- Every run of a connection with the client's handlers, in which nobody else sends, has
carried a session of the client, and the frames of the session are the data messages that
the connection has accepted, in order. -/
def Carried (Sub : Subscriber F κ ε σ) (fmt : DoubleFormat F) (client : σ) : Prop :=
  ∀ {ρ : Type} {S : Setting ρ} {response : ρ} {actions : List Connection.Action}
    {c : Connection ρ} (U : Usage κ ε), ValidCalls U.early →
    S.handler = WS.handlers fmt (Sub.onOpen (Sub.record client U.early) U.env) →
    Connection.run S (.init response) actions = some c → (∀ call, .call call ∉ actions) →
    ∃ s, Session.run Sub fmt (.init client) (U.session c.events) = some s ∧ s.fault = none ∧
      (s.isOpen = true ↔ c.internalState = .processConnection) ∧
      c.sentData = s.sent.map (Receiver.message .text)

theorem Announces.carried (h : Sub.Announces client introduction) (fmt : DoubleFormat F) :
    Sub.Carried fmt client := by
  intro ρ S response actions c U hearly hhandler hrun hcalls
  have hdata := Connection.announced_of_run hhandler (h.valid_frames hearly U.env) hrun hcalls
  rw [Connection.Announced, Connection.opened_count_of_run hrun] at hdata
  by_cases hc : c.internalState = .processConnection
  · rw [if_pos hc, List.replicate_one, List.flatten_singleton] at hdata
    obtain ⟨first, frames, houtcome, -, -⟩ := h.openHandler fmt hearly U.env
    have hnone : (WS.openHandler fmt (Sub.onOpen (Sub.record client U.early) U.env)).2 = none := by
      rw [houtcome]
    obtain ⟨rest, hfilter, hrest⟩ := Connection.opened_first hrun hc
    obtain ⟨s, hsession, hsent, hfault, hopen⟩ :=
      Session.run_eventsFrom_closed rfl hnone hfilter hrest []
    refine ⟨s, Transition.follow_append (Session.run_subscribe client U.early) hsession, hfault,
      iff_of_true hopen hc, ?_⟩
    rw [hsent, hdata]
  · rw [if_neg hc, List.replicate_zero, List.flatten_nil] at hdata
    have hnone : U.eventsFrom [] c.events = [] := by
      rcases Connection.events_of_unopened hrun hc with hevents | hevents <;>
      · rw [hevents]
        rfl
    refine ⟨.init (Sub.record client U.early), ?_, rfl, iff_of_false Bool.false_ne_true hc, hdata⟩
    rw [Usage.session, hnone, List.append_nil]
    exact Session.run_subscribe client U.early

/-! ### The server -/

/-- The texts in what was accepted, as they are given to the server. -/
theorem texts_of_accepted {accepted : List (MaskingKey × Outgoing)} {frames : List Bytes}
    (h : accepted.filterMap (fun s => Connection.dataOf s.2) =
      frames.map (Receiver.message .text)) :
    (accepted.map fun s => Receiver.message s.2.opcode s.2.payload).filter
        (fun msg => msg.opcode = .text) = frames.map (Receiver.message .text) := by
  induction accepted generalizing frames with
  | nil =>
      rw [← h]
      rfl
  | cons s accepted ih =>
      obtain ⟨key, o⟩ := s
      cases o with
      | data msg =>
          cases frames with
          | nil => cases h
          | cons frame frames =>
              obtain ⟨rfl, hrest⟩ := List.cons.inj h
              exact congrArg (Receiver.message .text frame :: ·) (ih hrest)
      | ping payload | pong payload | close code reason => exact ih h

/-- The server has read a part of what the client has written, in whatever pieces: the texts
it was given are some first ones with the property `P`, in which no subscription can be read,
and then one for each of the client's calls, in order, up to some point, and up to the last
one if everything was written and has arrived. -/
def Arrives (Sub : Subscriber F κ ε σ) (fmt : DoubleFormat F) (P : List Bytes → Prop)
    (client : σ) : Prop :=
  ∀ {ρ : Type} {S : Setting ρ} {response : ρ} {actions : List Connection.Action}
    {c : Connection ρ} {peer : Endpoint} {reads : List Bytes} (U : Usage κ ε),
    ValidCalls U.early →
    S.handler = WS.handlers fmt (Sub.onOpen (Sub.record client U.early) U.env) →
    Connection.run S (.init response) actions = some c → (∀ call, .call call ∉ actions) →
    peer.server = true → peer.maxMessageSize < 2 ^ 64 →
    (∀ frame ∈ (WS.openHandler fmt (Sub.onOpen (Sub.record client U.early) U.env)).1,
      frame.length ≤ peer.maxMessageSize) →
    S.request ++ reads.flatten <+: c.sent →
    ∃ first frames msgs p, P first ∧ (∀ frame ∈ first, Sub.decodeFrame fmt frame = none) ∧
      frames.map (Sub.decodeFrame fmt) = U.early.map some ∧
      handleReads peer (fun msg log => log ++ [msg]) .init [] reads = some (msgs, .ok p) ∧
      msgs.filter (fun msg => msg.opcode = .text) <+:
        (first ++ frames).map (Receiver.message .text) ∧
      (c.internalState = .processConnection → c.sendQueue = [] →
        S.request ++ reads.flatten = c.sent →
        msgs.filter (fun msg => msg.opcode = .text) =
          (first ++ frames).map (Receiver.message .text))

theorem Announces.arrives (h : Sub.Announces client introduction) {P : List Bytes → Prop}
    (hfirst : ∀ env first, Denotes fmt first (introduction env) → P first) :
    Sub.Arrives fmt P client := by
  intro ρ S response actions c peer reads U hearly hhandler hrun hcalls hserver hsize hfit hreads
  have hdata := Connection.announced_of_run hhandler (h.valid_frames hearly U.env) hrun hcalls
  have hcount := Connection.opened_count_of_run hrun
  rw [Connection.Announced, hcount] at hdata
  obtain ⟨first, frames, houtcome, hdenotes, hframes⟩ := h.openHandler fmt hearly U.env
  rw [houtcome] at hdata hfit
  -- every data message is one of the frames
  have hwhole : ∀ s ∈ c.accepted, s.2.Whole peer := by
    intro s hs
    cases ho : s.2 with
    | data msg =>
        have hmem : msg ∈ c.sentData := by
          refine List.mem_filterMap.mpr ⟨s, hs, ?_⟩
          rw [ho]
          rfl
        rw [hdata] at hmem
        obtain ⟨texts, htexts, hmsg⟩ := List.mem_flatten.mp hmem
        rw [List.eq_of_mem_replicate htexts] at hmsg
        obtain ⟨frame, hframe, rfl⟩ := List.mem_map.mp hmsg
        exact ⟨rfl, rfl, Opcode.noConfusion, hfit frame hframe⟩
    | ping payload => exact trivial
    | pong payload => exact trivial
    | close code reason => exact trivial
  obtain ⟨sent, haccept, hprefix, hfull⟩ :=
    Connection.written_frames hrun hserver hsize hwhole hreads
  obtain ⟨p, n, hread, hall⟩ := handleReads_prefix hprefix haccept (fun msg log => log ++ [msg]) []
  rw [Connection.foldl_log, List.nil_append] at hread
  -- the texts in all that was accepted
  let all := c.accepted.map fun s => Receiver.message s.2.opcode s.2.payload
  have htexts : all.filter (fun msg => msg.opcode = .text) =
      if c.internalState = .processConnection then (first ++ frames).map (Receiver.message .text)
      else [] := by
    split
    · next hc =>
        rw [if_pos hc, List.replicate_one, List.flatten_singleton] at hdata
        exact texts_of_accepted hdata
    · next hc =>
        rw [if_neg hc] at hdata
        have hnone : c.accepted.filterMap (fun s => Connection.dataOf s.2) =
            ([] : List Bytes).map (Receiver.message .text) := hdata
        exact texts_of_accepted hnone
  refine ⟨first, frames, _, p, hfirst _ _ hdenotes, Session.decode_introduction h hdenotes, hframes,
    hread, ?_, ?_⟩
  · have hpart : ((c.accepted.take c.written.length).map fun s =>
        Receiver.message s.2.opcode s.2.payload).take n <+: all :=
      (List.take_prefix _ _).trans ((List.take_prefix _ _).map _)
    refine (hpart.filter _).trans ?_
    rw [htexts]
    split
    · exact List.prefix_refl _
    · exact List.nil_prefix
  · intro hc hempty hsent
    have hlength := Outgoing.length_prepareAll (Connection.prepared_of_run hrun)
    rw [hempty, List.append_nil, List.length_map] at hlength
    rw [hall (hfull hsent), hlength, List.take_length]
    change all.filter _ = _
    rw [htexts, if_pos hc]

end Subscriber

end Sessions

/-! ### A sample -/

namespace Ftx

def sampleClient : WSClient := ⟨[], [], [], []⟩

theorem long_sampleUsage : -2 ^ 63 ≤ (1588591511721 : Int) ∧ (1588591511721 : Int) < 2 ^ 63 := by
  decide

/-- One subscription before the connection opens, and one for every message. -/
def sampleUsage : Usage Kind (SigningEnv evpSha256) where
  early := [(.ticker, ascii "BTC-PERP")]
  env := ⟨1588591511721, fun _ => 0, .init evpSha256, long_sampleUsage⟩
  callback _ := [(.trades, ascii "BTC-PERP")]

def sampleSetting : Setting Bytes :=
  { Setting.sample with
    handler := WS.handlers SampleDouble.format
      ((subscriber evpSha256 SampleDouble).onOpen
        ((subscriber evpSha256 SampleDouble).record sampleClient sampleUsage.early)
        sampleUsage.env) }

def sampleRun : Connection Bytes :=
  (Connection.run sampleSetting (.init []) Connection.sampleActions).get (by decide +kernel)

theorem run_sampleRun :
    Connection.run sampleSetting (.init []) Connection.sampleActions = some sampleRun :=
  Option.some_get _ |>.symm

attribute [irreducible] sampleRun

theorem validCalls_early : Subscriber.ValidCalls sampleUsage.early := by
  intro call hcall
  obtain rfl := List.mem_singleton.mp hcall
  exact Utf8.valid_of_ascii (by decide)

theorem no_call_sampleActions : ∀ call, .call call ∉ Connection.sampleActions := by
  intro call hmem
  simp [Connection.sampleActions] at hmem

end Ftx

/-! ### Both clients -/

section Clients

variable (H : EvpSha256) (fmt : DoubleFormat F)

end Clients

end ExchangeClient
