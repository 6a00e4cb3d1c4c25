import Mathlib.Tactic.Basic

/-!
# Loops whose body makes progress

A `while (true)` loop is given by its body: a function that either continues
with a new state or returns. When a natural number attached to the state drops
at every iteration, the loop returns from every state, and the number itself is
enough fuel to run it by structural recursion.
-/

namespace ExchangeClient.Loop

variable {σ α : Type*}

def run (body : σ → σ ⊕ α) : Nat → σ → Option α
  | 0, _ => none
  | fuel + 1, s =>
      match body s with
      | .inl s' => run body fuel s'
      | .inr a => some a

/-- Every iteration that continues lowers the rank. -/
def Decreases (body : σ → σ ⊕ α) (rank : σ → Nat) : Prop :=
  ∀ s s', body s = .inl s' → rank s' < rank s

theorem run_isSome {body : σ → σ ⊕ α} {rank : σ → Nat} (hdec : Decreases body rank) :
    ∀ {fuel : Nat} {s : σ}, rank s < fuel → (run body fuel s).isSome := by
  intro fuel
  induction fuel with
  | zero => intro s h; exact absurd h (Nat.not_lt_zero _)
  | succ fuel ih =>
      intro s hrank
      simp only [run]
      rcases hbody : body s with s' | a
      · exact ih (Nat.lt_of_lt_of_le (hdec s s' hbody) (Nat.lt_succ_iff.mp hrank))
      · rfl

/-- The value the loop returns from `s`. -/
def iterate (body : σ → σ ⊕ α) (rank : σ → Nat) (hdec : Decreases body rank) (s : σ) : α :=
  (run body (rank s + 1) s).get (run_isSome hdec (Nat.lt_succ_self _))

/-- `Reaches body s t`: some number of continuing iterations leads from `s` to `t`. -/
inductive Reaches (body : σ → σ ⊕ α) : σ → σ → Prop
  | refl (s : σ) : Reaches body s s
  | head {s s' t : σ} : body s = .inl s' → Reaches body s' t → Reaches body s t

theorem Reaches.trans {body : σ → σ ⊕ α} {s t u : σ}
    (hst : Reaches body s t) (htu : Reaches body t u) : Reaches body s u := by
  induction hst with
  | refl _ => exact htu
  | head hbody _ ih => exact .head hbody (ih htu)

theorem Reaches.single {body : σ → σ ⊕ α} {s t : σ} (h : body s = .inl t) :
    Reaches body s t :=
  .head h (.refl t)

theorem run_of_reaches {body : σ → σ ⊕ α} {rank : σ → Nat} (hdec : Decreases body rank)
    {s t : σ} (hst : Reaches body s t) {a : α} (hret : body t = .inr a) :
    ∀ {fuel : Nat}, rank s < fuel → run body fuel s = some a := by
  induction hst with
  | refl t =>
      intro fuel hfuel
      cases fuel with
      | zero => exact absurd hfuel (Nat.not_lt_zero _)
      | succ fuel => simp only [run, hret]
  | head hbody _ ih =>
      intro fuel hfuel
      cases fuel with
      | zero => exact absurd hfuel (Nat.not_lt_zero _)
      | succ fuel =>
          simp only [run, hbody]
          exact ih hret (Nat.lt_of_lt_of_le (hdec _ _ hbody) (Nat.lt_succ_iff.mp hfuel))

theorem iterate_of_reaches {body : σ → σ ⊕ α} {rank : σ → Nat} (hdec : Decreases body rank)
    {s t : σ} (hst : Reaches body s t) {a : α} (hret : body t = .inr a) :
    iterate body rank hdec s = a := by
  simp only [iterate, run_of_reaches hdec hst hret (Nat.lt_succ_self _), Option.get_some]

theorem run_invariant {body : σ → σ ⊕ α} {Inv : σ → Prop} {Post : α → Prop}
    (hstep : ∀ s s', Inv s → body s = .inl s' → Inv s')
    (hret : ∀ s a, Inv s → body s = .inr a → Post a) :
    ∀ {fuel : Nat} {s : σ} {a : α}, Inv s → run body fuel s = some a → Post a := by
  intro fuel
  induction fuel with
  | zero => intro s a _ h; cases h
  | succ fuel ih =>
      intro s a hs hrun
      simp only [run] at hrun
      rcases hbody : body s with s' | b
      · rw [hbody] at hrun
        exact ih (hstep s s' hs hbody) hrun
      · rw [hbody] at hrun
        obtain rfl := Option.some.inj hrun
        exact hret s b hs hbody

/-- The rule for loops: an invariant of the body that implies `Post` wherever
the body returns gives `Post` of the value returned. -/
theorem iterate_invariant {body : σ → σ ⊕ α} {rank : σ → Nat} (hdec : Decreases body rank)
    (Inv : σ → Prop) (Post : α → Prop)
    (hstep : ∀ s s', Inv s → body s = .inl s' → Inv s')
    (hret : ∀ s a, Inv s → body s = .inr a → Post a)
    {s : σ} (hs : Inv s) : Post (iterate body rank hdec s) :=
  run_invariant hstep hret hs (Option.some_get _).symm

end ExchangeClient.Loop
