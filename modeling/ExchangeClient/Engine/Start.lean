import ExchangeClient.Lib.Bytes
import ExchangeClient.Lib.Transition

/-!
# The engine: `engine/engine.cc`

`Engine::start` makes a thread for each gateway and joins it before it makes the
next one. The main thread and the threads it has made are stepped in any order; an
exception that leaves a thread ends the process. Since `start` waits inside its
loop, every run is the same: one gateway after the other is visited.
-/

namespace ExchangeClient.Engine

open Transition

/-! ### Gateways and threads -/

/-- What becomes of a call of `connect`. -/
inductive ConnectOutcome where
  | returns
  | runsForever
  | throws
deriving DecidableEq, Repr

inductive GatewayCall where
  | subscribeTicker (market : Bytes)
  | onMessage
  | connect
deriving DecidableEq, Repr

/-- Where a thread is in the function `f`. -/
inductive ThreadPoint where
  | subscribeTicker
  | onMessage
  | connect
  | connecting
  | returned
deriving DecidableEq, Repr

structure Thread where
  gateway : Nat
  point : ThreadPoint
deriving DecidableEq, Repr

/-- Where `start` is: at the test of the loop, in `join` of the thread with an index, or
behind the loop. -/
inductive MainPoint where
  | test (k : Nat)
  | join (k thread : Nat)
  | returned
deriving DecidableEq, Repr

/-- The process: the threads in the order in which they were made, the calls in the order
in which they were made, and whether an exception has ended it. -/
structure State where
  main : MainPoint
  threads : List Thread
  calls : List (Nat × GatewayCall)
  terminated : Bool
deriving DecidableEq, Repr

def uintSize : Nat := 2 ^ 32

/-! ### `Engine::start` -/

def init : State := ⟨.test 0, [], [], false⟩

/-- A step of `start`. -/
def mainStep (gateways : List ConnectOutcome) (s : State) : Option State :=
  match s.main with
  | .test k =>
      if k < gateways.length then
        -- the thread is made, and `join` stands inside the loop
        some { s with
          main := .join k s.threads.length, threads := s.threads ++ [⟨k, .subscribeTicker⟩] }
      else some { s with main := .returned }
  | .join k thread =>
      match s.threads[thread]? with
      -- `k` is an `unsigned int`
      | some ⟨_, .returned⟩ => some { s with main := .test ((k + 1) % uintSize) }
      | _ => none
  | .returned => none

/-- A thread makes a call, if any, and gets to the next point of `f`. -/
def State.moveThread (s : State) (id : Nat) (thread : Thread) (call : Option GatewayCall)
    (point : ThreadPoint) : State :=
  { s with
    threads := s.threads.set id { thread with point }
    calls := s.calls ++ call.toList.map fun call => (thread.gateway, call) }

/-- A step of `f`. In `connect` the event loop goes on, or it is left. -/
def Thread.step (gateways : List ConnectOutcome) (s : State) (id : Nat) (thread : Thread) :
    Option State :=
  match thread.point with
  | .subscribeTicker =>
      some (s.moveThread id thread (some (.subscribeTicker (ascii "BTC-PERP"))) .onMessage)
  | .onMessage => some (s.moveThread id thread (some .onMessage) .connect)
  | .connect => some (s.moveThread id thread (some .connect) .connecting)
  | .connecting =>
      match gateways[thread.gateway]? with
      | some .returns => some (s.moveThread id thread none .returned)
      | some .runsForever => some s
      -- nothing catches the exception in the thread: `std::terminate`
      | some .throws => some { s with terminated := true }
      | none => none
  | .returned => none

def threadStep (gateways : List ConnectOutcome) (s : State) (id : Nat) : Option State :=
  s.threads[id]?.bind fun thread => thread.step gateways s id

inductive Action where
  | main
  | thread (id : Nat)

def step (gateways : List ConnectOutcome) (s : State) (action : Action) : Option State :=
  if s.terminated then none
  else
    match action with
    | .main => mainStep gateways s
    | .thread id => threadStep gateways s id

/-! ### One gateway after the other -/

def gatewayCalls : List GatewayCall := [.subscribeTicker (ascii "BTC-PERP"), .onMessage, .connect]

inductive Phase where
  | test
  | visiting (point : ThreadPoint)
  | left
  | aborted
deriving DecidableEq, Repr

/-- How many gateways have been visited, and what happens after that. -/
structure Progress where
  visits : Nat
  phase : Phase
deriving DecidableEq, Repr

namespace Progress

/-- The loop, with the body of `f` in place of the thread. -/
def next (gateways : List ConnectOutcome) (p : Progress) : Option Progress :=
  match p.phase with
  | .test =>
      if p.visits % uintSize < gateways.length then some ⟨p.visits, .visiting .subscribeTicker⟩
      else some ⟨p.visits, .left⟩
  | .visiting .subscribeTicker => some ⟨p.visits, .visiting .onMessage⟩
  | .visiting .onMessage => some ⟨p.visits, .visiting .connect⟩
  | .visiting .connect => some ⟨p.visits, .visiting .connecting⟩
  | .visiting .connecting =>
      match gateways[p.visits % uintSize]? with
      | some .returns => some ⟨p.visits, .visiting .returned⟩
      | some .runsForever => some p
      | some .throws => some ⟨p.visits, .aborted⟩
      | none => none
  | .visiting .returned => some ⟨p.visits + 1, .test⟩
  | .left => none
  | .aborted => none

def callsOfVisits (visits : Nat) : List (Nat × GatewayCall) :=
  (List.range visits).flatMap fun visit => gatewayCalls.map fun call => (visit % uintSize, call)

def callsMade : ThreadPoint → Nat
  | .subscribeTicker => 0
  | .onMessage => 1
  | .connect => 2
  | .connecting => 3
  | .returned => 3

def currentCalls : Phase → List GatewayCall
  | .test => []
  | .visiting point => gatewayCalls.take (callsMade point)
  | .left => []
  | .aborted => gatewayCalls

def calls (p : Progress) : List (Nat × GatewayCall) :=
  callsOfVisits p.visits ++ (currentCalls p.phase).map fun call => (p.visits % uintSize, call)

def finishedThreads (visits : Nat) : List Thread :=
  (List.range visits).map fun visit => ⟨visit % uintSize, .returned⟩

/-- The process that has made this progress. -/
def toState (p : Progress) : State where
  main :=
    match p.phase with
    | .test => .test (p.visits % uintSize)
    | .visiting _ | .aborted => .join (p.visits % uintSize) p.visits
    | .left => .returned
  threads :=
    finishedThreads p.visits ++
      match p.phase with
      | .test | .left => []
      | .visiting point => [⟨p.visits % uintSize, point⟩]
      | .aborted => [⟨p.visits % uintSize, .connecting⟩]
  calls := p.calls
  terminated := decide (p.phase = .aborted)

/-! ### Every run is this loop -/

theorem length_finishedThreads (visits : Nat) : (finishedThreads visits).length = visits := by
  simp [finishedThreads]

theorem callsOfVisits_succ (visits : Nat) :
    callsOfVisits (visits + 1) =
      callsOfVisits visits ++ gatewayCalls.map fun call => (visits % uintSize, call) := by
  simp [callsOfVisits, List.range_succ]

theorem finishedThreads_succ (visits : Nat) :
    finishedThreads (visits + 1) =
      finishedThreads visits ++ [⟨visits % uintSize, .returned⟩] := by
  simp [finishedThreads, List.range_succ]

theorem thread_of_visiting {visits id : Nat} {last thread : Thread}
    (h : (finishedThreads visits ++ [last])[id]? = some thread) :
    thread.point = .returned ∨ (id = visits ∧ thread = last) := by
  rcases Nat.lt_trichotomy id visits with hlt | rfl | hgt
  · left
    rw [List.getElem?_append_left (by rwa [length_finishedThreads])] at h
    obtain ⟨visit, -, rfl⟩ := List.mem_map.mp (List.mem_of_getElem? h)
    rfl
  · right
    rw [List.getElem?_append_right (by rw [length_finishedThreads]), length_finishedThreads,
      Nat.sub_self] at h
    exact ⟨rfl, (Option.some.inj h).symm⟩
  · rw [List.getElem?_eq_none] at h
    · cases h
    · rw [List.length_append, length_finishedThreads]
      exact hgt

theorem last_thread (visits : Nat) (last : Thread) :
    (finishedThreads visits ++ [last])[visits]? = some last := by
  rw [List.getElem?_append_right (by rw [length_finishedThreads]), length_finishedThreads,
    Nat.sub_self]
  rfl

theorem set_last_thread (visits : Nat) (last thread : Thread) :
    (finishedThreads visits ++ [last]).set visits thread = finishedThreads visits ++ [thread] := by
  rw [List.set_append_right _ _ (by rw [length_finishedThreads]), length_finishedThreads,
    Nat.sub_self]
  rfl

theorem threadStep_finished {gateways : List ConnectOutcome} {s : State} {id : Nat}
    {thread : Thread} (hthread : s.threads[id]? = some thread) (h : thread.point = .returned) :
    threadStep gateways s id = none := by
  rw [threadStep, hthread, Option.bind_some, Thread.step, h]

theorem threadStep_last (gateways : List ConnectOutcome) (visits : Nat) {point : ThreadPoint}
    (h : point ≠ .returned) :
    threadStep gateways (toState ⟨visits, .visiting point⟩) visits =
      (next gateways ⟨visits, .visiting point⟩).map toState := by
  have hthread : (toState ⟨visits, .visiting point⟩).threads[visits]? =
      some ⟨visits % uintSize, point⟩ := last_thread visits _
  rw [threadStep, hthread, Option.bind_some]
  cases point with
  | returned => exact absurd rfl h
  | subscribeTicker | onMessage | connect =>
      simp [Thread.step, State.moveThread, next, toState, set_last_thread, calls, currentCalls,
        callsMade, gatewayCalls]
  | connecting =>
      simp only [Thread.step, next]
      cases gateways[visits % uintSize]? with
      | none => rfl
      | some outcome =>
          cases outcome with
          | returns =>
              simp [State.moveThread, toState, set_last_thread, calls, currentCalls, callsMade]
          | runsForever => rfl
          | throws => simp [toState, calls, currentCalls, callsMade, gatewayCalls]

theorem mainStep_toState (gateways : List ConnectOutcome) (visits : Nat) :
    mainStep gateways (toState ⟨visits, .test⟩) = (next gateways ⟨visits, .test⟩).map toState ∧
      mainStep gateways (toState ⟨visits, .visiting .returned⟩) =
        (next gateways ⟨visits, .visiting .returned⟩).map toState := by
  constructor
  · by_cases h : visits % uintSize < gateways.length
    · simp [mainStep, toState, next, h, calls, currentCalls, callsMade, length_finishedThreads]
    · simp [mainStep, toState, next, h, calls, currentCalls]
  · have hthread : (finishedThreads visits ++ [⟨visits % uintSize, .returned⟩])[visits]? =
        some ⟨visits % uintSize, .returned⟩ := last_thread visits _
    simp [mainStep, toState, next, hthread, calls, currentCalls, callsMade, gatewayCalls,
      callsOfVisits_succ, finishedThreads_succ, Nat.mod_add_mod]

/-- `start` waits for the last thread. -/
theorem mainStep_visiting (gateways : List ConnectOutcome) (visits : Nat) {point : ThreadPoint}
    (h : point ≠ .returned) :
    mainStep gateways (toState ⟨visits, .visiting point⟩) = none := by
  have hthread : (finishedThreads visits ++ [⟨visits % uintSize, point⟩])[visits]? =
      some ⟨visits % uintSize, point⟩ := last_thread visits _
  cases point with
  | returned => exact absurd rfl h
  | subscribeTicker | onMessage | connect | connecting => simp [mainStep, toState, hthread]

theorem threadStep_between {gateways : List ConnectOutcome} {visits : Nat} {s : State}
    (h : s.threads = finishedThreads visits) (id : Nat) : threadStep gateways s id = none := by
  cases hthread : s.threads[id]? with
  | none => rw [threadStep, hthread, Option.bind_none]
  | some thread =>
      apply threadStep_finished hthread
      rw [h] at hthread
      obtain ⟨visit, -, rfl⟩ := List.mem_map.mp (List.mem_of_getElem? hthread)
      rfl

theorem threadStep_visiting {gateways : List ConnectOutcome} {visits id : Nat}
    {point : ThreadPoint} {t : State}
    (h : threadStep gateways (toState ⟨visits, .visiting point⟩) id = some t) :
    (next gateways ⟨visits, .visiting point⟩).map toState = some t := by
  obtain ⟨thread, hthread, hstep⟩ := Option.bind_eq_some_iff.mp h
  have hpoint : thread.point ≠ .returned := by
    intro hreturned
    rw [threadStep_finished hthread hreturned] at h
    cases h
  rcases thread_of_visiting hthread with hreturned | ⟨rfl, rfl⟩
  · exact absurd hreturned hpoint
  · rw [← threadStep_last gateways id hpoint]
    exact h

theorem step_of_live (gateways : List ConnectOutcome) (p : Progress) (h : p.phase ≠ .aborted) :
    step gateways p.toState .main = mainStep gateways p.toState ∧
      ∀ id, step gateways p.toState (.thread id) = threadStep gateways p.toState id := by
  have hlive : p.toState.terminated = false := decide_eq_false h
  constructor
  · rw [step, hlive, if_neg Bool.false_ne_true]
  · intro id
    rw [step, hlive, if_neg Bool.false_ne_true]

/-- Whoever makes a step, it is the next step of the loop. -/
theorem step_toState {gateways : List ConnectOutcome} (p : Progress) (t : State) (action : Action)
    (h : step gateways p.toState action = some t) :
    ∃ q, next gateways p = some q ∧ t = q.toState := by
  suffices hmap : (next gateways p).map toState = some t by
    obtain ⟨q, hq, rfl⟩ := Option.map_eq_some_iff.mp hmap
    exact ⟨q, hq, rfl⟩
  obtain ⟨visits, phase⟩ := p
  by_cases hlive : phase = .aborted
  · subst hlive
    cases h
  obtain ⟨hmain, hthread⟩ := step_of_live gateways ⟨visits, phase⟩ hlive
  cases action with
  | main =>
      rw [hmain] at h
      cases phase with
      | aborted => exact absurd rfl hlive
      | left => cases h
      | test => rwa [(mainStep_toState gateways visits).1] at h
      | visiting point =>
          by_cases hpoint : point = .returned
          · subst hpoint
            rwa [(mainStep_toState gateways visits).2] at h
          · rw [mainStep_visiting gateways visits hpoint] at h
            cases h
  | thread id =>
      rw [hthread] at h
      cases phase with
      | aborted => exact absurd rfl hlive
      | visiting point => exact threadStep_visiting h
      | test | left =>
          rw [threadStep_between (List.append_nil _)] at h
          cases h

theorem step_of_next {gateways : List ConnectOutcome} (p q : Progress)
    (h : next gateways p = some q) : ∃ action, step gateways p.toState action = some q.toState := by
  obtain ⟨visits, phase⟩ := p
  cases phase with
  | left | aborted => cases h
  | test =>
      refine ⟨.main, ?_⟩
      rw [(step_of_live _ _ (by simp)).1, (mainStep_toState gateways visits).1, h, Option.map_some]
  | visiting point =>
      by_cases hpoint : point = .returned
      · subst hpoint
        refine ⟨.main, ?_⟩
        rw [(step_of_live _ _ (by simp)).1, (mainStep_toState gateways visits).2, h, Option.map_some]
      · refine ⟨.thread visits, ?_⟩
        rw [(step_of_live _ _ (by simp)).2, threadStep_last gateways visits hpoint, h, Option.map_some]

theorem init_eq : init = toState ⟨0, .test⟩ := rfl

/-- Every complete run of the process visits one gateway after the other. -/
theorem state_eq (gateways : List ConnectOutcome) (run : Run (step gateways) init) (n : Nat) :
    run.state n = (after (next gateways) ⟨0, .test⟩ n).toState := by
  apply Run.state_eq_of_simulation toState init_eq
  · exact step_toState
  · exact step_of_next

def run (gateways : List ConnectOutcome) : Run (step gateways) init :=
  .ofSimulation toState init_eq step_toState step_of_next

end Progress

end ExchangeClient.Engine
