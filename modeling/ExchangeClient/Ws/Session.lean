import ExchangeClient.Lib.Transition
import ExchangeClient.Ws.Frames

/-!
# Runs of a client with its connection

Calls are made before the connection opens, or from inside the callback while a
message is handled. The open handler is the only place where frames are sent, so
a call is announced on the connection exactly if it came before the connection
opened.
-/

namespace ExchangeClient

open Subscriber

variable {F κ ε σ : Type}

structure Session (σ : Type) where
  client : σ
  isOpen : Bool
  sent : List Bytes
  fault : Option Fault

/-- What can happen in a run. A message comes with the calls that the callback makes. -/
inductive SessionEvent (κ ε : Type) where
  | subscribe (call : κ × Bytes)
  | opened (env : ε)
  | message (payload : Bytes) (calls : List (κ × Bytes))

namespace SessionEvent

def calls : SessionEvent κ ε → List (κ × Bytes)
  | .subscribe call => [call]
  | .opened _ => []
  | .message _ calls => calls

def isOpened : SessionEvent κ ε → Bool
  | .opened _ => true
  | _ => false

def allCalls (events : List (SessionEvent κ ε)) : List (κ × Bytes) := events.flatMap calls

/-- The calls made before the connection opened. -/
def callsBeforeOpen (events : List (SessionEvent κ ε)) : List (κ × Bytes) :=
  allCalls (events.takeWhile fun event => !event.isOpened)

end SessionEvent

namespace Session

variable (S : Subscriber F κ ε σ) (fmt : DoubleFormat F)

def init (client : σ) : Session σ := ⟨client, false, [], none⟩

/-- One event, where it can happen: outside of a callback, calls are made before the
connection is open, which opens once; messages arrive after that. -/
def step (s : Session σ) : SessionEvent κ ε → Option (Session σ)
  | .subscribe call =>
      if s.isOpen then none else some { s with client := S.subscribe call s.client }
  | .opened env =>
      if s.isOpen then none
      else
        let outcome := WS.openHandler fmt (S.onOpen s.client env)
        some { s with isOpen := true, sent := s.sent ++ outcome.1, fault := outcome.2 }
  | .message payload calls =>
      if s.isOpen = true ∧ s.fault = none then
        let onMessageCb : Json F → σ → σ := fun _ client => S.record client calls
        some { s with client := WS.messageHandler onMessageCb payload s.client }
      else none

def run : Session σ → List (SessionEvent κ ε) → Option (Session σ) :=
  Transition.follow (step S fmt)

variable {S fmt}

theorem step_subscribe {s t : Session σ} {call : κ × Bytes}
    (h : step S fmt s (.subscribe call) = some t) :
    s.isOpen = false ∧ t.isOpen = false ∧ t.client = S.subscribe call s.client ∧
      t.sent = s.sent := by
  simp only [step] at h
  split at h
  · cases h
  · next hclosed =>
      obtain rfl := Option.some.inj h
      have hclosed' : s.isOpen = false := by simpa using hclosed
      exact ⟨hclosed', hclosed', rfl, rfl⟩

theorem step_opened {s t : Session σ} {env : ε} (h : step S fmt s (.opened env) = some t) :
    s.isOpen = false ∧ t.isOpen = true ∧ t.client = s.client ∧
      t.sent = s.sent ++ (WS.openHandler fmt (S.onOpen s.client env)).1 ∧
      t.fault = (WS.openHandler fmt (S.onOpen s.client env)).2 := by
  simp only [step] at h
  split at h
  · cases h
  · next hclosed =>
      obtain rfl := Option.some.inj h
      exact ⟨by simpa using hclosed, rfl, rfl, rfl, rfl⟩

/-- The calls of the callback are recorded, and the connection is left alone. -/
theorem step_message {s t : Session σ} {payload : Bytes} {calls : List (κ × Bytes)}
    (h : step S fmt s (.message payload calls) = some t) :
    s.isOpen = true ∧ t.isOpen = true ∧ t.fault = none ∧
      t.client = S.record s.client calls ∧ t.sent = s.sent := by
  simp only [step] at h
  split at h
  · next hopen =>
      obtain rfl := Option.some.inj h
      exact ⟨hopen.1, hopen.1, hopen.2, rfl, rfl⟩
  · cases h

/-- Once the connection is open, calls are recorded and nothing is sent. -/
theorem run_open {client : σ} {events : List (SessionEvent κ ε)} :
    ∀ {s t : Session σ} (past : List (κ × Bytes)), s.isOpen = true → s.fault = none →
      s.client = S.record client past → run S fmt s events = some t →
      t.sent = s.sent ∧ t.fault = none ∧
        t.client = S.record client (past ++ SessionEvent.allCalls events) := by
  induction events with
  | nil =>
      intro s t past _ hfault hclient hrun
      cases hrun
      refine ⟨rfl, hfault, ?_⟩
      rw [hclient, SessionEvent.allCalls, List.flatMap_nil, List.append_nil]
  | cons event events ih =>
      intro s t past hopen hfault hclient hrun
      obtain ⟨next, hstep, hrest⟩ := Transition.follow_cons.mp hrun
      cases event with
      | subscribe call =>
          obtain ⟨hclosed, -⟩ := step_subscribe hstep
          exact absurd (hclosed.symm.trans hopen) (by decide)
      | opened env =>
          obtain ⟨hclosed, -⟩ := step_opened hstep
          exact absurd (hclosed.symm.trans hopen) (by decide)
      | message payload calls =>
          obtain ⟨-, hopen', hfault', hclient', hsame⟩ := step_message hstep
          have hnext : next.client = S.record client (past ++ calls) := by
            rw [hclient', hclient, record_append]
          obtain ⟨hsent, hdone, hrecord⟩ := ih (past ++ calls) hopen' hfault' hnext hrest
          refine ⟨hsent.trans hsame, hdone, ?_⟩
          rw [hrecord, List.append_assoc]
          rfl

theorem validCalls_cons {event : SessionEvent κ ε} {events : List (SessionEvent κ ε)}
    (h : ValidCalls (SessionEvent.allCalls (event :: events))) :
    ValidCalls event.calls ∧ ValidCalls (SessionEvent.allCalls events) := by
  constructor
  · intro call hcall
    exact h call (List.mem_append_left _ hcall)
  · intro call hcall
    exact h call (List.mem_append_right _ hcall)

/-- No subscription can be read in an introduction. -/
theorem decode_introduction {client : σ} {introduction : ε → List (Json F)}
    (h : S.Announces client introduction) {env : ε} {first : List Bytes}
    (hfirst : Denotes fmt first (introduction env)) :
    ∀ frame ∈ first, S.decodeFrame fmt frame = none := by
  intro frame hframe
  have hmem : S.decodeFrame fmt frame ∈ first.map (S.decodeFrame fmt) :=
    List.mem_map_of_mem hframe
  rw [Denotes.map_decodeFrame hfirst] at hmem
  obtain ⟨message, hmessage, hdecode⟩ := List.mem_map.mp hmem
  rw [← hdecode]
  exact h.silent env message hmessage

/-- From a closed connection on, the frames of an open one are those of an introduction
and then of the calls made before it opened. -/
theorem run_closed {client : σ} {introduction : ε → List (Json F)}
    (h : S.Announces client introduction) {events : List (SessionEvent κ ε)} :
    ∀ {s t : Session σ} (past : List (κ × Bytes)), s.isOpen = false → s.sent = [] →
      s.client = S.record client past → ValidCalls past →
      ValidCalls (SessionEvent.allCalls events) → run S fmt s events = some t →
      t.isOpen = true →
      t.fault = none ∧
        (∃ env first frames, t.sent = first ++ frames ∧ Denotes fmt first (introduction env) ∧
          frames.map (S.decodeFrame fmt) =
            (past ++ SessionEvent.callsBeforeOpen events).map some) ∧
        t.client = S.record client (past ++ SessionEvent.allCalls events) := by
  induction events with
  | nil =>
      intro s t past hclosed _ _ _ _ hrun hopen
      cases hrun
      exact absurd (hclosed.symm.trans hopen) (by decide)
  | cons event events ih =>
      intro s t past hclosed hsent hclient hpast hvalid hrun hopen
      obtain ⟨hnow, hlater⟩ := validCalls_cons hvalid
      obtain ⟨next, hstep, hrest⟩ := Transition.follow_cons.mp hrun
      cases event with
      | message payload calls =>
          obtain ⟨hopen', -⟩ := step_message hstep
          exact absurd (hclosed.symm.trans hopen') (by decide)
      | subscribe call =>
          obtain ⟨-, hclosed', hclient', hsame⟩ := step_subscribe hstep
          have hnext : next.client = S.record client (past ++ [call]) := by
            rw [hclient', hclient, record_append]
            rfl
          have hdone := ih (past ++ [call]) hclosed' (hsame.trans hsent) hnext
            (hpast.append hnow) hlater hrest hopen
          rw [List.append_assoc, List.append_assoc] at hdone
          exact hdone
      | opened env =>
          obtain ⟨-, hopen', hclient', hsent', hfault'⟩ := step_opened hstep
          -- the one event that sends; from here on `run_open` applies
          obtain ⟨first, frames, houtcome, hfirst, hframes⟩ := h.openHandler fmt hpast env
          rw [hsent, List.nil_append, hclient, houtcome] at hsent'
          rw [hclient, houtcome] at hfault'
          obtain ⟨hsame, hfault, hrecord⟩ :=
            run_open past hopen' hfault' (hclient'.trans hclient) hrest
          refine ⟨hfault, ⟨env, first, frames, hsame.trans hsent', hfirst, ?_⟩, hrecord⟩
          rw [hframes]
          exact congrArg (List.map some) (List.append_nil past).symm

end Session

/-! ### Which calls are announced -/

/-- In every run, whenever the connection is open and no handler is running, the frames
sent so far are some first ones with the property `P`, in which no subscription can be
read, and then one frame for each of the calls that `announced` names, in order, and the
client has recorded every call. -/
def Subscriber.SendsExactly (S : Subscriber F κ ε σ) (fmt : DoubleFormat F)
    (P : List Bytes → Prop) (announced : List (SessionEvent κ ε) → List (κ × Bytes))
    (client : σ) : Prop :=
  ∀ (events : List (SessionEvent κ ε)) (s : Session σ),
    ValidCalls (SessionEvent.allCalls events) →
    Session.run S fmt (.init client) events = some s → s.isOpen = true →
    s.fault = none ∧
      (∃ first frames, s.sent = first ++ frames ∧ P first ∧
        (∀ frame ∈ first, S.decodeFrame fmt frame = none) ∧
        frames.map (S.decodeFrame fmt) = (announced events).map some) ∧
      s.client = S.record client (SessionEvent.allCalls events)

theorem Subscriber.Announces.sendsExactly {S : Subscriber F κ ε σ} {client : σ}
    {introduction : ε → List (Json F)} (h : S.Announces client introduction)
    {fmt : DoubleFormat F} {P : List Bytes → Prop}
    (hfirst : ∀ env first, Denotes fmt first (introduction env) → P first) :
    S.SendsExactly fmt P SessionEvent.callsBeforeOpen client := by
  intro events s hvalid hrun hopen
  have hnone : ValidCalls ([] : List (κ × Bytes)) := by
    intro call hcall
    cases hcall
  obtain ⟨hfault, ⟨env, first, frames, hsent, hdenotes, hframes⟩, hrecord⟩ :=
    Session.run_closed h [] rfl rfl rfl hnone hvalid hrun hopen
  exact ⟨hfault, ⟨first, frames, hsent, hfirst env first hdenotes,
    Session.decode_introduction h hdenotes, hframes⟩, hrecord⟩

/-- The frames on an open connection are those of the calls made before it opened, with one
login in front if there are credentials. A call from the callback is recorded, and no frame
is sent for it. -/
theorem frames_sent_are_calls_before_open (H : EvpSha256) (fmt : DoubleFormat F)
    (ftx : Ftx.WSClient) (hcredentials : ftx.WritableCredentials) (hftx : ftx.subscriptions = [])
    (bitstamp : Bitstamp.WSClient) (hbitstamp : bitstamp.subscriptions = []) :
    (Ftx.subscriber H F).SendsExactly fmt (Ftx.OneLogin fmt ftx) SessionEvent.callsBeforeOpen
        ftx ∧
      (Bitstamp.subscriber fmt).SendsExactly fmt (· = []) SessionEvent.callsBeforeOpen
        bitstamp := by
  constructor
  · apply (Ftx.announces ftx hcredentials hftx).sendsExactly
    intro env first hfirst
    exact Ftx.oneLogin_of_denotes ftx hcredentials env first hfirst
  · apply (Bitstamp.announces bitstamp hbitstamp).sendsExactly
    intro env first hfirst
    cases hfirst
    rfl

theorem frames_sent_are_calls_before_open_example :
    let ftx : Ftx.WSClient := ⟨ascii "key", ascii "secret", [], []⟩
    (Ftx.subscriber evpSha256 SampleDouble).SendsExactly SampleDouble.format
        (Ftx.OneLogin SampleDouble.format ftx) SessionEvent.callsBeforeOpen ftx ∧
      (Bitstamp.subscriber SampleDouble.format).SendsExactly SampleDouble.format (· = [])
        SessionEvent.callsBeforeOpen ⟨[]⟩ :=
  frames_sent_are_calls_before_open evpSha256 SampleDouble.format
    ⟨ascii "key", ascii "secret", [], []⟩
    (fun _ => ⟨Utf8.valid_of_ascii (by decide), .nil⟩) rfl ⟨[]⟩ rfl

/-- A client whose calls are recorded and announced sends nothing for a call from the
callback, so that its frames are not those of all calls, whatever is sent in front. -/
theorem Subscriber.Announces.not_sendsExactly_allCalls {S : Subscriber F κ ε σ} {client : σ}
    {introduction : ε → List (Json F)} (h : S.Announces client introduction)
    (fmt : DoubleFormat F) (P : List Bytes → Prop) (env : ε) (payload : Bytes)
    (call : κ × Bytes) (hcall : Utf8.Valid call.2) :
    ¬ S.SendsExactly fmt P SessionEvent.allCalls client := by
  intro hexactly
  have hnone : ValidCalls ([] : List (κ × Bytes)) := by
    intro call hcall
    cases hcall
  obtain ⟨first, frames, houtcome, hfirst, hframes⟩ := h.openHandler fmt hnone env
  obtain rfl := List.map_eq_nil_iff.mp hframes
  rw [List.append_nil] at houtcome
  let events : List (SessionEvent κ ε) := [.opened env, .message payload [call]]
  have hrun : Session.run S fmt (.init client) events =
      some ⟨S.record client [call], true, first, none⟩ := by
    change WS.openHandler fmt (S.onOpen client env) = _ at houtcome
    simp [events, Session.run, Transition.follow, Session.step, Session.init,
      WS.messageHandler, houtcome]
  have hvalid : ValidCalls (SessionEvent.allCalls events) := by
    intro other hother
    obtain rfl := List.mem_singleton.mp hother
    exact hcall
  obtain ⟨-, ⟨lead, rest, hsent, -, -, hrest⟩, -⟩ := hexactly _ _ hvalid hrun rfl
  -- one of the frames would be that of the call, and they are all of the introduction
  obtain ⟨frame, hframe, hdecode⟩ : ∃ frame ∈ rest, S.decodeFrame fmt frame = some call := by
    have hmem : some call ∈ rest.map (S.decodeFrame fmt) := by
      rw [hrest]
      exact List.mem_singleton_self _
    simpa using hmem
  have hin : frame ∈ first := by
    change first = lead ++ rest at hsent
    rw [hsent]
    exact List.mem_append_right _ hframe
  rw [Session.decode_introduction h hfirst frame hin] at hdecode
  cases hdecode

/-- Not every call is announced: the FTX client subscribes while a message is handled, and
sends nothing but its login. -/
theorem call_from_callback_not_sent :
    ¬ (Ftx.subscriber evpSha256 SampleDouble).SendsExactly SampleDouble.format (fun _ => True)
      SessionEvent.allCalls Ftx.WSClient.new :=
  (Ftx.announces .new Ftx.WSClient.writableCredentials_new rfl).not_sendsExactly_allCalls
    SampleDouble.format (fun _ => True)
    ⟨1588591511721, fun _ => 0, .init evpSha256, by decide⟩ (ascii "\x7b\x7d")
    (.ticker, ascii "BTC-PERP") (Utf8.valid_of_ascii (by decide))

end ExchangeClient
