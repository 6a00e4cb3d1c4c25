import Mathlib.Control.Monad.Writer
import Mathlib.Data.List.Range

/-!
# Computations and what they touch

A computation that can go wrong is an `Option`. To say which places it reads and
writes, and how often, it is written a second time with a record of its accesses.
Without the record it is the first computation again; with it, the accesses of a loop
are those of its rounds, one after the other.
-/

namespace ExchangeClient.Footprint

variable {ε α β σ : Type}

abbrev Traced (ε : Type) := WriterT (List ε) Option

/-- One access and what comes of it. -/
def touch (access : ε) (result : Option α) : Traced ε α :=
  .mk (result.map fun a => (a, [access]))

/-- The computation without its record. -/
def value (x : Traced ε α) : Option α := x.run.map Prod.fst

/-- `x` returns `a` and makes these accesses, in this order. -/
def Touches (x : Traced ε α) (a : α) (accesses : List ε) : Prop := x.run = some (a, accesses)

/-! ### Without the record -/

@[simp] theorem value_pure (a : α) : value (pure a : Traced ε α) = some a := rfl

@[simp] theorem value_touch (access : ε) (result : Option α) :
    value (touch access result) = result := by
  cases result <;> rfl

@[simp] theorem value_bind (x : Traced ε α) (f : α → Traced ε β) :
    value (x >>= f) = (value x).bind fun a => value (f a) := by
  change Option.map Prod.fst (x.run.bind fun read =>
    (f read.1).run.map fun next => (next.1, read.2 ++ next.2)) = _
  rw [value]
  cases x.run with
  | none => rfl
  | some read =>
      simp only [Option.bind_some, Option.map_some, Option.map_map, value]
      rfl

@[simp] theorem value_foldlM (f : σ → α → Traced ε σ) (s : σ) (as : List α) :
    value (as.foldlM f s) = as.foldlM (fun s a => value (f s a)) s := by
  induction as generalizing s with
  | nil => exact value_pure s
  | cons a as ih =>
      rw [List.foldlM_cons, List.foldlM_cons, value_bind]
      simp only [ih]
      rfl

theorem Touches.value_eq {x : Traced ε α} {a : α} {accesses : List ε} (h : Touches x a accesses) :
    value x = some a := by
  rw [value, h]
  rfl

/-! ### With the record -/

theorem touches_pure (a : α) : Touches (pure a : Traced ε α) a [] := rfl

theorem touches_touch (access : ε) {result : Option α} {a : α} (h : result = some a) :
    Touches (touch access result) a [access] := by
  subst h
  rfl

theorem Touches.bind {x : Traced ε α} {f : α → Traced ε β} {a : α} {b : β}
    {accesses later : List ε} (hx : Touches x a accesses) (hf : Touches (f a) b later) :
    Touches (x >>= f) b (accesses ++ later) := by
  change (x.run.bind fun read =>
    (f read.1).run.map fun next => (next.1, read.2 ++ next.2)) = _
  rw [hx, Option.bind_some, hf]
  rfl

/-- The rule for counting loops. `state i` is what the loop has made before round `i`. -/
theorem touches_range {f : σ → Nat → Traced ε σ} {state : Nat → σ} {accesses : Nat → List ε}
    {n : Nat} (h : ∀ i < n, Touches (f (state i) i) (state (i + 1)) (accesses i)) :
    Touches ((List.range n).foldlM f (state 0)) (state n) ((List.range n).flatMap accesses) := by
  have hrest : ∀ count start : Nat, start + count = n →
      Touches ((List.range' start count).foldlM f (state start)) (state n)
        ((List.range' start count).flatMap accesses) := by
    intro count
    induction count with
    | zero =>
        intro start hstart
        obtain rfl : start = n := hstart
        exact touches_pure _
    | succ count ih =>
        intro start hstart
        rw [List.range'_succ, List.foldlM_cons, List.flatMap_cons]
        exact (h start (by omega)).bind (ih (start + 1) (by omega))
  rw [List.range_eq_range']
  exact hrest n 0 (Nat.zero_add n)

end ExchangeClient.Footprint
