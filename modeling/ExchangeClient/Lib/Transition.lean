import Mathlib.Data.Nat.Init
import Mathlib.Tactic.Basic

/-!
# Transition systems

A system is a partial function from a state and an action to the next state: an
action that cannot happen in a state has no next state there. A finite run follows
a list of actions. A complete run never stops while something can happen; after that
it repeats its last state, so that it always has a state at every time.
-/

namespace ExchangeClient.Transition

variable {σ α : Type*} (step : σ → α → Option σ)

/-- The state after a list of actions, if each of them can happen in turn. -/
def follow (s : σ) : List α → Option σ
  | [] => some s
  | action :: actions => (step s action).bind fun s => follow s actions

def Final (s : σ) : Prop := ∀ action, step s action = none

/-- A complete run. -/
structure Run (init : σ) where
  state : Nat → σ
  start : state 0 = init
  next : ∀ n, (∃ action, step (state n) action = some (state (n + 1))) ∨
    (Final step (state n) ∧ state (n + 1) = state n)

variable {step}

theorem follow_cons {s t : σ} {action : α} {actions : List α} :
    follow step s (action :: actions) = some t ↔
      ∃ next, step s action = some next ∧ follow step next actions = some t :=
  Option.bind_eq_some_iff

theorem follow_append {s t u : σ} {actions more : List α} (h : follow step s actions = some t)
    (hmore : follow step t more = some u) : follow step s (actions ++ more) = some u := by
  induction actions generalizing s with
  | nil =>
      obtain rfl := Option.some.inj h
      exact hmore
  | cons action actions ih =>
      obtain ⟨next, hstep, hrest⟩ := follow_cons.mp h
      exact follow_cons.mpr ⟨next, hstep, ih hrest⟩

namespace Run

variable {init : σ} (run : Run step init)

theorem step_of_not_final {n : Nat} {action : α} {t : σ}
    (h : step (run.state n) action = some t) :
    ∃ action, step (run.state n) action = some (run.state (n + 1)) := by
  rcases run.next n with hnext | ⟨hfinal, -⟩
  · exact hnext
  · rw [hfinal action] at h
    cases h

end Run

/-! ### Systems with one run -/

section Deterministic

variable {ν : Type*}

/-- The state after `n` steps of a machine that repeats its last state. -/
def after (next : ν → Option ν) (start : ν) : Nat → ν
  | 0 => start
  | n + 1 => (next (after next start n)).getD (after next start n)

theorem after_add (next : ν → Option ν) (start : ν) (n m : Nat) :
    after next start (n + m) = after next (after next start n) m := by
  induction m with
  | zero => rfl
  | succ m ih =>
      change (next (after next start (n + m))).getD (after next start (n + m)) = _
      rw [ih]
      rfl

/-- What every step of the machine preserves holds from any time at which it holds. -/
theorem after_invariant_from {next : ν → Option ν} {start : ν} {Inv : ν → Prop}
    (hstep : ∀ q q', Inv q → next q = some q' → Inv q') {n : Nat}
    (hn : Inv (after next start n)) : ∀ m, n ≤ m → Inv (after next start m) := by
  intro m hm
  induction m, hm using Nat.le_induction with
  | base => exact hn
  | succ m _ ih =>
      rw [after]
      cases hnext : next (after next start m) with
      | none => exact ih
      | some q' => exact hstep _ q' ih hnext

/-- A machine into which every step of a system can be read, and whose steps the system
can make, describes every complete run of the system. -/
theorem Run.state_eq_of_simulation {next : ν → Option ν} {start : ν} {init : σ} (embed : ν → σ)
    (hinit : init = embed start)
    (hforth : ∀ q t action, step (embed q) action = some t → ∃ q', next q = some q' ∧ t = embed q')
    (hback : ∀ q q', next q = some q' → ∃ action, step (embed q) action = some (embed q'))
    (run : Run step init) (n : Nat) : run.state n = embed (after next start n) := by
  induction n with
  | zero => exact run.start.trans hinit
  | succ n ih =>
      rw [after]
      cases hnext : next (after next start n) with
      | some q' =>
          obtain ⟨action, hstep⟩ := hback _ q' hnext
          rw [← ih] at hstep
          obtain ⟨action', hstep'⟩ := run.step_of_not_final hstep
          rw [ih] at hstep'
          obtain ⟨q'', hnext', hstate⟩ := hforth _ _ action' hstep'
          rw [hnext] at hnext'
          rw [hstate, ← Option.some.inj hnext']
          rfl
      | none =>
          rcases run.next n with ⟨action, hstep⟩ | ⟨-, hsame⟩
          · rw [ih] at hstep
            obtain ⟨q', hnext', -⟩ := hforth _ _ action hstep
            rw [hnext] at hnext'
            cases hnext'
          · rw [hsame, ih]
            rfl

def Run.ofSimulation {next : ν → Option ν} {start : ν} {init : σ} (embed : ν → σ)
    (hinit : init = embed start)
    (hforth : ∀ q t action, step (embed q) action = some t → ∃ q', next q = some q' ∧ t = embed q')
    (hback : ∀ q q', next q = some q' → ∃ action, step (embed q) action = some (embed q')) :
    Run step init where
  state n := embed (after next start n)
  start := hinit.symm
  next n := by
    rw [after]
    cases hnext : next (after next start n) with
    | some q' => exact Or.inl (hback _ q' hnext)
    | none =>
        refine Or.inr ⟨?_, rfl⟩
        intro action
        cases hstep : step (embed (after next start n)) action with
        | none => rfl
        | some t =>
            obtain ⟨q', hnext', -⟩ := hforth _ t action hstep
            rw [hnext] at hnext'
            cases hnext'

end Deterministic

end ExchangeClient.Transition
