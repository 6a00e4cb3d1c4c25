import ExchangeClient.Engine.Start

/-!
# Which gateways are reached

A gateway is visited only after every gateway before it has been left again. The
first one whose `connect` does not return is the last one that is visited; and where
all of them return, the counter of the loop has to get to the end of the list
before it wraps around.
-/

namespace ExchangeClient.Engine

open Transition

def callsOn (gateway : Nat) (calls : List (Nat × GatewayCall)) : List GatewayCall :=
  (calls.filter fun call => call.1 = gateway).map Prod.snd

/-- In this run every gateway of the list gets its three calls, each once and in order,
and no other call after them. -/
def ReachesAll (gateways : List ConnectOutcome) (run : Run (step gateways) init) : Prop :=
  ∀ gateway < gateways.length, ∃ n, ∀ m, n ≤ m →
    callsOn gateway (run.state m).calls = gatewayCalls

/-- Every gateway but the last is left again, and the counter does not wrap around. -/
def LeavesAllButLast (gateways : List ConnectOutcome) : Prop :=
  (∀ gateway, gateway + 1 < gateways.length → gateways[gateway]? = some .returns) ∧
    (gateways.length < uintSize ∨
      (gateways.length = uintSize ∧ gateways[gateways.length - 1]? ≠ some .returns))

theorem LeavesAllButLast.length_le {gateways : List ConnectOutcome} (h : LeavesAllButLast gateways) :
    gateways.length ≤ uintSize := by
  rcases h.2 with hlt | ⟨heq, -⟩
  · exact Nat.le_of_lt hlt
  · exact Nat.le_of_eq heq

/-! ### Calls -/

theorem callsOn_append (gateway : Nat) (calls more : List (Nat × GatewayCall)) :
    callsOn gateway (calls ++ more) = callsOn gateway calls ++ callsOn gateway more := by
  simp [callsOn]

theorem callsOn_visit (gateway other : Nat) (calls : List GatewayCall) :
    callsOn gateway (calls.map fun call => (other, call)) =
      if other = gateway then calls else [] := by
  by_cases h : other = gateway <;> simp [callsOn, List.filter_map, Function.comp_def, h]

namespace Progress

theorem callsOn_callsOfVisits {visits : Nat} (h : visits ≤ uintSize) (gateway : Nat) :
    callsOn gateway (callsOfVisits visits) = if gateway < visits then gatewayCalls else [] := by
  induction visits with
  | zero => rfl
  | succ visits ih =>
      rw [callsOfVisits_succ, callsOn_append, ih (Nat.le_of_lt h), callsOn_visit,
        Nat.mod_eq_of_lt h]
      rcases Nat.lt_trichotomy gateway visits with hlt | rfl | hgt
      · rw [if_pos hlt, if_neg (Nat.ne_of_gt hlt), if_pos (Nat.lt_succ_of_lt hlt), List.append_nil]
      · rw [if_neg (Nat.lt_irrefl _), if_pos rfl, if_pos (Nat.lt_succ_self _), List.nil_append]
      · rw [if_neg (Nat.lt_asymm hgt), if_neg (Nat.ne_of_lt hgt), if_neg (by omega),
          List.append_nil]

theorem calls_toState (p : Progress) : p.toState.calls = p.calls := rfl

/-- What a step does: it ends the current visit, or stays in it, where the thread gets to
its end only if `connect` returns. -/
theorem next_cases {gateways : List ConnectOutcome} {p q : Progress}
    (h : next gateways p = some q) :
    (p.phase = .visiting .returned ∧ q = ⟨p.visits + 1, .test⟩) ∨
      (q.visits = p.visits ∧ currentCalls p.phase <+: currentCalls q.phase ∧
        (q.phase = .visiting .returned → gateways[p.visits % uintSize]? = some .returns)) := by
  obtain ⟨visits, phase⟩ := p
  cases phase with
  | left | aborted => cases h
  | test =>
      right
      simp only [next] at h
      split at h
      all_goals
        obtain rfl := Option.some.inj h
        exact ⟨rfl, List.nil_prefix, fun hphase => by cases hphase⟩
  | visiting point =>
      cases point with
      | returned =>
          left
          exact ⟨rfl, (Option.some.inj h).symm⟩
      | subscribeTicker | onMessage | connect =>
          right
          obtain rfl := Option.some.inj h
          exact ⟨rfl, ⟨_, rfl⟩, fun hphase => by cases hphase⟩
      | connecting =>
          right
          simp only [next] at h
          cases houtcome : gateways[visits % uintSize]? with
          | none =>
              rw [houtcome] at h
              cases h
          | some outcome =>
              rw [houtcome] at h
              cases outcome
              all_goals
                obtain rfl := Option.some.inj h
                refine ⟨rfl, List.prefix_refl _, ?_⟩
                intro hphase
                first
                  | rfl
                  | cases hphase

theorem calls_prefix_of_next {gateways : List ConnectOutcome} {p q : Progress}
    (h : next gateways p = some q) : p.calls <+: q.calls := by
  rcases next_cases h with ⟨hphase, rfl⟩ | ⟨hvisits, hprefix, -⟩
  · rw [calls, calls, callsOfVisits_succ, hphase]
    exact ⟨[], by simp [currentCalls, callsMade, gatewayCalls]⟩
  · obtain ⟨more, hmore⟩ := hprefix
    rw [calls, calls, hvisits, ← hmore, List.map_append, ← List.append_assoc]
    exact List.prefix_append _ _

/-! ### A gateway that does not let go -/

/-- The visit of a gateway is not over. -/
def NotPast (gateway : Nat) (p : Progress) : Prop :=
  p.visits < gateway ∨ (p.visits = gateway ∧ p.phase ≠ .visiting .returned)

theorem notPast_next {gateways : List ConnectOutcome} {gateway : Nat} (hsize : gateway < uintSize)
    (hkeeps : gateways[gateway]? ≠ some .returns) (p q : Progress) (hp : NotPast gateway p)
    (h : next gateways p = some q) : NotPast gateway q := by
  rcases next_cases h with ⟨hphase, rfl⟩ | ⟨hvisits, -, hreturned⟩
  · rcases hp with hlt | ⟨-, hnot⟩
    · rcases Nat.lt_or_eq_of_le (Nat.succ_le_of_lt hlt) with hlt | heq
      · exact Or.inl hlt
      · exact Or.inr ⟨heq, by simp⟩
    · exact absurd hphase hnot
  · rcases hp with hlt | ⟨heq, -⟩
    · exact Or.inl (hvisits ▸ hlt)
    · refine Or.inr ⟨hvisits.trans heq, ?_⟩
      intro hphase
      rw [heq, Nat.mod_eq_of_lt hsize] at hreturned
      exact hkeeps (hreturned hphase)

theorem callsOn_of_notPast {gateway later : Nat} (hsize : gateway < uintSize)
    (hlater : gateway < later) {p : Progress} (h : NotPast gateway p) :
    callsOn later p.calls = [] := by
  have hvisits : p.visits ≤ gateway := by
    rcases h with hlt | ⟨heq, -⟩ <;> omega
  have hother : p.visits % uintSize ≠ later := by
    rw [Nat.mod_eq_of_lt (by omega)]
    omega
  rw [calls, callsOn_append, callsOn_callsOfVisits (by omega), if_neg (by omega), callsOn_visit,
    if_neg hother, List.append_nil]

/-! ### Gateways that do -/

theorem after_onMessage {gateways : List ConnectOutcome} {visits : Nat}
    (h : visits % uintSize < gateways.length) :
    after (next gateways) ⟨visits, .test⟩ 2 = ⟨visits, .visiting .onMessage⟩ := by
  simp [after, next, h]

theorem after_connecting {gateways : List ConnectOutcome} {visits : Nat}
    (h : visits % uintSize < gateways.length) :
    after (next gateways) ⟨visits, .test⟩ 4 = ⟨visits, .visiting .connecting⟩ := by
  simp [after, next, h]

theorem after_visits {gateways : List ConnectOutcome} {visits : Nat}
    (h : ∀ visit < visits, gateways[visit % uintSize]? = some .returns) :
    after (next gateways) ⟨0, .test⟩ (6 * visits) = ⟨visits, .test⟩ := by
  induction visits with
  | zero => rfl
  | succ visits ih =>
      have hreturns := h visits (Nat.lt_succ_self _)
      have hlt : visits % uintSize < gateways.length := (List.getElem?_eq_some_iff.mp hreturns).1
      rw [Nat.mul_succ, after_add, ih fun visit hvisit => h visit (Nat.lt_succ_of_lt hvisit)]
      change after (next gateways) ⟨visits, .test⟩ (4 + 2) = _
      rw [after_add, after_connecting hlt]
      simp [after, next, hreturns]

/-! ### After the last call -/

/-- The last gateway is in `connect` or has been left, and the loop ends behind it. -/
def Settled (gateways : List ConnectOutcome) (p : Progress) : Prop :=
  (p.visits + 1 = gateways.length ∧
    (p.phase = .visiting .connecting ∨ p.phase = .aborted ∨
      (p.phase = .visiting .returned ∧ gateways.length < uintSize))) ∨
  (p.visits = gateways.length ∧ gateways.length < uintSize ∧ (p.phase = .test ∨ p.phase = .left))

theorem callsOn_of_settled {gateways : List ConnectOutcome} (hsize : gateways.length ≤ uintSize)
    {gateway : Nat} (hgateway : gateway < gateways.length) {p : Progress}
    (h : Settled gateways p) : callsOn gateway p.calls = gatewayCalls := by
  have hcalls : p.calls = callsOfVisits gateways.length := by
    rcases h with ⟨hvisits, hphase⟩ | ⟨hvisits, -, hphase⟩
    · have hcurrent : currentCalls p.phase = gatewayCalls := by
        rcases hphase with hphase | hphase | ⟨hphase, -⟩ <;> rw [hphase] <;> rfl
      rw [calls, hcurrent, ← hvisits, callsOfVisits_succ]
    · have hcurrent : currentCalls p.phase = [] := by
        rcases hphase with hphase | hphase <;> rw [hphase] <;> rfl
      rw [calls, hcurrent, hvisits, List.map_nil, List.append_nil]
  rw [hcalls, callsOn_callsOfVisits hsize, if_pos hgateway]

theorem settled_next {gateways : List ConnectOutcome} (hleaves : LeavesAllButLast gateways)
    (p q : Progress) (hp : Settled gateways p) (h : next gateways p = some q) :
    Settled gateways q := by
  obtain ⟨visits, phase⟩ := p
  rcases hp with ⟨hvisits, rfl | rfl | ⟨rfl, hsize⟩⟩ | ⟨hvisits, hsize, rfl | rfl⟩
  · change visits + 1 = gateways.length at hvisits
    have hle := hleaves.length_le
    have hmod : visits % uintSize = gateways.length - 1 := by
      rw [Nat.mod_eq_of_lt (by omega)]
      omega
    simp only [next, hmod] at h
    cases houtcome : gateways[gateways.length - 1]? with
    | none =>
        rw [houtcome] at h
        cases h
    | some outcome =>
        rw [houtcome] at h
        cases outcome with
        | returns =>
            obtain rfl := Option.some.inj h
            rcases hleaves.2 with hlt | ⟨-, hkeeps⟩
            · exact Or.inl ⟨hvisits, Or.inr (Or.inr ⟨rfl, hlt⟩)⟩
            · exact absurd houtcome hkeeps
        | runsForever =>
            obtain rfl := Option.some.inj h
            exact Or.inl ⟨hvisits, Or.inl rfl⟩
        | throws =>
            obtain rfl := Option.some.inj h
            exact Or.inl ⟨hvisits, Or.inr (Or.inl rfl)⟩
  · cases h
  · obtain rfl := Option.some.inj h
    exact Or.inr ⟨hvisits, hsize, Or.inl rfl⟩
  · change visits = gateways.length at hvisits
    have hmod : ¬ visits % uintSize < gateways.length := by
      rw [Nat.mod_eq_of_lt (by omega)]
      omega
    rw [next, if_neg hmod] at h
    obtain rfl := Option.some.inj h
    exact Or.inr ⟨hvisits, hsize, Or.inr rfl⟩
  · cases h

end Progress

open Progress

variable {gateways : List ConnectOutcome}

theorem reachesAll_of_leavesAllButLast (h : LeavesAllButLast gateways)
    (run : Run (step gateways) init) : ReachesAll gateways run := by
  intro gateway hgateway
  have hsize := h.length_le
  have hreturns : ∀ visit < gateways.length - 1,
      gateways[visit % uintSize]? = some .returns := by
    intro visit hvisit
    rw [Nat.mod_eq_of_lt (by omega)]
    exact h.1 visit (by omega)
  have hlast : (gateways.length - 1) % uintSize < gateways.length := by
    rw [Nat.mod_eq_of_lt (by omega)]
    omega
  have hsettled : Settled gateways
      (after (next gateways) ⟨0, .test⟩ (6 * (gateways.length - 1) + 4)) := by
    rw [after_add, after_visits hreturns, after_connecting hlast]
    have hvisits : gateways.length - 1 + 1 = gateways.length := by omega
    exact Or.inl ⟨hvisits, Or.inl rfl⟩
  refine ⟨6 * (gateways.length - 1) + 4, ?_⟩
  intro m hm
  rw [state_eq, calls_toState]
  exact callsOn_of_settled hsize hgateway (after_invariant_from (settled_next h) hsettled m hm)

/-- Behind a gateway that does not let go there is none that is reached. -/
theorem returns_of_reachesAll {run : Run (step gateways) init} (h : ReachesAll gateways run)
    {gateway : Nat} (hsize : gateway < uintSize) (hlater : gateway + 1 < gateways.length) :
    gateways[gateway]? = some .returns := by
  by_contra hkeeps
  obtain ⟨n, hn⟩ := h (gateway + 1) hlater
  have hstart : NotPast gateway ⟨0, .test⟩ := by
    rcases Nat.eq_zero_or_pos gateway with rfl | hpos
    · exact Or.inr ⟨rfl, by simp⟩
    · exact Or.inl hpos
  have hnotPast : NotPast gateway (after (next gateways) ⟨0, .test⟩ n) :=
    after_invariant_from (n := 0) (notPast_next hsize hkeeps) hstart n (Nat.zero_le n)
  have hcalls := hn n (Nat.le_refl n)
  rw [state_eq, calls_toState, callsOn_of_notPast hsize (Nat.lt_succ_self _) hnotPast] at hcalls
  cases hcalls

/-- Once the counter has wrapped around, the first gateway gets a fourth call. -/
theorem not_reachesAll_of_wrap {run : Run (step gateways) init}
    (hsize : uintSize ≤ gateways.length)
    (hreturns : ∀ gateway < uintSize, gateways[gateway]? = some .returns) :
    ¬ ReachesAll gateways run := by
  intro h
  have hpos : 0 < uintSize := by decide
  obtain ⟨n, hn⟩ := h 0 (by omega)
  have hvisits : ∀ visit < uintSize, gateways[visit % uintSize]? = some .returns := by
    intro visit hvisit
    rw [Nat.mod_eq_of_lt hvisit]
    exact hreturns visit hvisit
  have hwrap : after (next gateways) ⟨0, .test⟩ (6 * uintSize + 2) =
      ⟨uintSize, .visiting .onMessage⟩ := by
    have hlt : uintSize % uintSize < gateways.length := by
      rw [Nat.mod_self]
      omega
    rw [after_add, after_visits hvisits, after_onMessage hlt]
  have hfourth : 4 ≤ (callsOn 0
      (after (next gateways) ⟨0, .test⟩ (6 * uintSize + 2)).calls).length := by
    rw [hwrap, calls, callsOn_append, callsOn_callsOfVisits (Nat.le_refl _), if_pos hpos,
      callsOn_visit, Nat.mod_self, if_pos rfl]
    decide
  have hgrows : ∀ p q : Progress, 4 ≤ (callsOn 0 p.calls).length → next gateways p = some q →
      4 ≤ (callsOn 0 q.calls).length := by
    intro p q hp hnext
    have hprefix := ((calls_prefix_of_next hnext).filter fun call => call.1 = 0).map Prod.snd
    exact Nat.le_trans hp hprefix.length_le
  have hcalls := hn (max n (6 * uintSize + 2)) (Nat.le_max_left _ _)
  have hlen := after_invariant_from hgrows hfourth (max n (6 * uintSize + 2))
    (Nat.le_max_right _ _)
  rw [state_eq, calls_toState] at hcalls
  rw [hcalls] at hlen
  exact absurd hlen (by decide)

/-- In every run, every gateway is reached if and only if every gateway but the last is
left again and the counter does not wrap around. -/
theorem reachesAll_iff (gateways : List ConnectOutcome) (run : Run (step gateways) init) :
    ReachesAll gateways run ↔ LeavesAllButLast gateways := by
  constructor
  · intro h
    have hwrap : uintSize ≤ gateways.length →
        ¬ ∀ gateway < uintSize, gateways[gateway]? = some .returns := by
      intro hsize hreturns
      exact not_reachesAll_of_wrap hsize hreturns h
    -- in a longer list all of the first 2 ^ 32 gateways have a later one, so they return
    have hlength : gateways.length ≤ uintSize := by
      by_contra hlonger
      apply hwrap (by omega)
      intro gateway hgateway
      exact returns_of_reachesAll h hgateway (by omega)
    constructor
    · intro gateway hlater
      exact returns_of_reachesAll h (by omega) hlater
    · rcases Nat.lt_or_eq_of_le hlength with hlt | heq
      · exact Or.inl hlt
      · refine Or.inr ⟨heq, ?_⟩
        intro hlast
        apply hwrap (Nat.le_of_eq heq.symm)
        intro gateway hgateway
        rcases Nat.lt_or_eq_of_le (Nat.le_sub_one_of_lt hgateway) with hlater | rfl
        · exact returns_of_reachesAll h hgateway (by omega)
        · rwa [heq] at hlast
  · intro h
    exact reachesAll_of_leavesAllButLast h run

theorem second_gateway_not_reached :
    ¬ ∀ run : Run (step [.runsForever, .returns]) init,
      ReachesAll [.runsForever, .returns] run := by
  intro h
  have hfirst : ([.runsForever, .returns] : List ConnectOutcome)[0]? = some .returns :=
    returns_of_reachesAll (h (Progress.run _)) (by decide) (by decide)
  cases hfirst

end ExchangeClient.Engine
