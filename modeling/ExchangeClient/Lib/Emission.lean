import Mathlib.Tactic.Basic

/-!
# Emissions

A computation that can fail, and one that in addition gives items away before it ends.
What was given away before a failure is not taken back.
-/

namespace ExchangeClient

universe u

variable {α ε : Type*} {σ τ υ : Type u}

theorem bind_eq_ok {x : Except ε σ} {f : σ → Except ε τ} {t : τ} :
    (x >>= f) = .ok t ↔ ∃ s, x = .ok s ∧ f s = .ok t := by
  constructor
  · intro h
    rcases x with e | s
    · cases h
    · exact ⟨s, rfl, h⟩
  · rintro ⟨s, rfl, h⟩
    exact h

/-- The items completed on the way, and the state or the error at the end. -/
abbrev Emission (ε α σ : Type*) := List α × Except ε σ

namespace Emission

def pure (s : σ) : Emission ε α σ := ([], .ok s)

def fail (e : ε) : Emission ε α σ := ([], .error e)

def ofExcept : Except ε σ → Emission ε α σ := fun r => ([], r)

def andThen (r : Emission ε α σ) (k : σ → Emission ε α τ) : Emission ε α τ :=
  match r.2 with
  | .ok s => (r.1 ++ (k s).1, (k s).2)
  | .error e => (r.1, .error e)

@[simp] theorem pure_andThen (s : σ) (k : σ → Emission ε α τ) : (pure s).andThen k = k s := rfl

@[simp] theorem fail_andThen (e : ε) (k : σ → Emission ε α τ) : (fail e).andThen k = fail e := rfl

@[simp] theorem ofExcept_ok (s : σ) : (ofExcept (.ok s) : Emission ε α σ) = pure s := rfl

@[simp] theorem ofExcept_error (e : ε) : (ofExcept (.error e) : Emission ε α σ) = fail e := rfl

theorem andThen_assoc (r : Emission ε α σ) (k : σ → Emission ε α τ) (l : τ → Emission ε α υ) :
    (r.andThen k).andThen l = r.andThen fun s => (k s).andThen l := by
  obtain ⟨out, e | s⟩ := r
  · rfl
  · rcases hk : k s with ⟨more, e | t⟩
    · simp only [andThen, hk]
    · simp only [andThen, hk, List.append_assoc]

theorem andThen_congr {r : Emission ε α σ} {k l : σ → Emission ε α τ}
    (h : ∀ s, r.2 = .ok s → k s = l s) : r.andThen k = r.andThen l := by
  obtain ⟨out, e | s⟩ := r
  · rfl
  · simp only [andThen, h s rfl]

theorem andThen_pure (r : Emission ε α σ) : r.andThen pure = r := by
  obtain ⟨out, e | s⟩ := r
  · rfl
  · simp only [andThen, pure, List.append_nil]

theorem ofExcept_bind (x : Except ε σ) (f : σ → Except ε τ) :
    (ofExcept (x >>= f) : Emission ε α τ) = (ofExcept x).andThen fun s => ofExcept (f s) := by
  cases x <;> rfl

theorem of_andThen_ok {r : Emission ε α σ} {k : σ → Emission ε α τ} {out : List α} {t : τ}
    (h : r.andThen k = (out, .ok t)) :
    ∃ first s more, r = (first, .ok s) ∧ k s = (more, .ok t) ∧ out = first ++ more := by
  obtain ⟨first, e | s⟩ := r
  · cases h
  · obtain ⟨hout, hend⟩ := Prod.mk.inj h
    exact ⟨first, s, (k s).1, rfl, Prod.ext rfl hend, hout.symm⟩

/-! ### What holds of a computation -/

/-- Every item has the property `Q`, and a state at the end has the property `P`. -/
def All (Q : α → Prop) (P : σ → Prop) (r : Emission ε α σ) : Prop :=
  (∀ x ∈ r.1, Q x) ∧ ∀ s, r.2 = .ok s → P s

section All

variable {Q : α → Prop} {P : σ → Prop} {P' : τ → Prop}

theorem All.pure {s : σ} (h : P s) : All Q P (pure s : Emission ε α σ) :=
  ⟨fun _ hx => absurd hx List.not_mem_nil, fun _ hs => Except.ok.inj hs ▸ h⟩

theorem All.ofExcept {r : Except ε σ} (h : ∀ s, r = .ok s → P s) :
    All Q P (ofExcept r : Emission ε α σ) :=
  ⟨fun _ hx => absurd hx List.not_mem_nil, h⟩

theorem All.andThen {r : Emission ε α σ} {k : σ → Emission ε α τ} (h : All Q P r)
    (hk : ∀ s, r.2 = .ok s → P s → All Q P' (k s)) : All Q P' (r.andThen k) := by
  obtain ⟨out, e | s⟩ := r
  · exact ⟨h.1, fun _ hend => by cases hend⟩
  · obtain ⟨hout, hend⟩ := hk s rfl (h.2 s rfl)
    refine ⟨fun x hx => ?_, hend⟩
    rcases List.mem_append.mp hx with hx | hx
    · exact h.1 x hx
    · exact hout x hx

end All

/-! ### Two computations side by side -/

/-- The same items, and the same error or states that are related. -/
inductive Rel (R : σ → τ → Prop) : Emission ε α σ → Emission ε α τ → Prop
  | error (out : List α) (e : ε) : Rel R (out, .error e) (out, .error e)
  | ok (out : List α) {s : σ} {t : τ} : R s t → Rel R (out, .ok s) (out, .ok t)

variable {R : σ → τ → Prop}

theorem Rel.pure {s : σ} {t : τ} (h : R s t) : Rel R (pure s : Emission ε α σ) (pure t) :=
  .ok [] h

theorem Rel.fail (e : ε) : Rel R (fail e : Emission ε α σ) (fail e) := .error [] e

/-- Side by side, then each on its own way: what follows on the left is the rest `l`
after something that is related to what follows on the right. -/
theorem Rel.exists_andThen {σ' τ' : Type u} {S : σ' → τ' → Prop} {r : Emission ε α σ}
    {r' : Emission ε α τ} {k : σ → Emission ε α υ} {k' : τ → Emission ε α τ'}
    {l : σ' → Emission ε α υ} (h : Rel R r r')
    (hk : ∀ s t, R s t → ∃ f, Rel S f (k' t) ∧ k s = f.andThen l) :
    ∃ f, Rel S f (r'.andThen k') ∧ r.andThen k = f.andThen l := by
  cases h with
  | error out e => exact ⟨_, .error out e, rfl⟩
  | @ok out s t hst =>
      obtain ⟨f, hrel, hks⟩ := hk s t hst
      refine ⟨andThen (out, .ok s) fun _ => f, ?_, ?_⟩
      · simp only [andThen]
        generalize k' t = f' at hrel
        cases hrel with
        | error more e => exact .error _ e
        | ok more hst' => exact .ok _ hst'
      · rw [andThen_assoc]
        simp only [andThen, hks]

end Emission

end ExchangeClient
