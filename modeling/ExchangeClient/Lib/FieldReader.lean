import Mathlib.Tactic.Conv
import ExchangeClient.Lib.Emission

/-!
# Readers that can be interrupted

A format made of fields is read field by field: at every moment the reader knows how
many symbols the present field still needs, takes in what there is, and acts when the
field is complete. The input arrives in pieces that end anywhere. What is read, and
the error that ends the reading, do not depend on how the input was cut.

The laws ask for three things: symbols can be taken in one after the other or together,
a reader counts what it still needs, and it cannot go on for ever without any input.
-/

namespace ExchangeClient

universe u

variable {α β ε : Type*} {σ τ υ : Type u}

/-! ### Readers -/

/-- `need` is what the present field still needs, `absorb` takes in a part of it and
`finish` acts on a complete field. -/
structure FieldReader (β ε α σ : Type*) where
  need : σ → Nat
  absorb : σ → List β → Except ε σ
  finish : σ → Emission ε α σ
  rank : σ → Nat

namespace FieldReader

open Emission

variable (R : FieldReader β ε α σ)

/-- The laws of a reader, for the states with the property `Inv`. -/
structure Lawful (Inv : σ → Prop) : Prop where
  absorb_nil : ∀ {s}, Inv s → R.absorb s [] = .ok s
  absorb_append : ∀ {s a b}, Inv s → a.length + b.length ≤ R.need s →
    R.absorb s (a ++ b) = R.absorb s a >>= fun s => R.absorb s b
  absorb_ok : ∀ {s a s'}, Inv s → a.length ≤ R.need s → R.absorb s a = .ok s' →
    Inv s' ∧ R.need s' + a.length = R.need s
  finish_ok : ∀ {s s'}, Inv s → R.need s = 0 → (R.finish s).2 = .ok s' →
    Inv s' ∧ R.rank s' < R.rank s

def settleWithin : Nat → σ → Emission ε α σ
  | 0, s => pure s
  | fuel + 1, s => if R.need s = 0 then (R.finish s).andThen (settleWithin fuel) else pure s

/-- Act as long as the present field needs nothing. -/
def settle (s : σ) : Emission ε α σ := R.settleWithin (R.rank s + 1) s

/-- Read symbol by symbol. -/
def read (s : σ) : List β → Emission ε α σ
  | [] => R.settle s
  | b :: rest =>
      (R.settle s).andThen fun s => (ofExcept (R.absorb s [b])).andThen fun s => read s rest

variable {R} {Inv : σ → Prop}

theorem settleWithin_eq (h : R.Lawful Inv) :
    ∀ {fuel fuel' : Nat} {s : σ}, Inv s → R.rank s < fuel → R.rank s < fuel' →
      R.settleWithin fuel s = R.settleWithin fuel' s := by
  intro fuel
  induction fuel with
  | zero => intro fuel' s _ hrank _; exact absurd hrank (Nat.not_lt_zero _)
  | succ fuel ih =>
      intro fuel' s hs hrank hrank'
      obtain ⟨n, rfl⟩ := Nat.exists_eq_succ_of_ne_zero (Nat.ne_zero_of_lt hrank')
      simp only [settleWithin]
      split
      · next hneed =>
          apply andThen_congr
          intro s' hs'
          obtain ⟨hinv, hlt⟩ := h.finish_ok hs hneed hs'
          exact ih hinv (Nat.lt_of_lt_of_le hlt (Nat.lt_succ_iff.mp hrank))
            (Nat.lt_of_lt_of_le hlt (Nat.lt_succ_iff.mp hrank'))
      · rfl

theorem settle_complete (h : R.Lawful Inv) {s : σ} (hs : Inv s) (hneed : R.need s = 0) :
    R.settle s = (R.finish s).andThen R.settle := by
  rw [settle, settleWithin, if_pos hneed]
  apply andThen_congr
  intro s' hs'
  obtain ⟨hinv, hlt⟩ := h.finish_ok hs hneed hs'
  exact settleWithin_eq h hinv hlt (Nat.lt_succ_self _)

theorem settle_waiting {s : σ} (hneed : 0 < R.need s) : R.settle s = pure s := by
  rw [settle, settleWithin, if_neg (Nat.ne_of_gt hneed)]

theorem settleWithin_ok (h : R.Lawful Inv) : ∀ {fuel : Nat} {s s' : σ}, Inv s → R.rank s < fuel →
    (R.settleWithin fuel s).2 = .ok s' → Inv s' ∧ 0 < R.need s' := by
  intro fuel
  induction fuel with
  | zero => intro s s' _ hrank _; exact absurd hrank (Nat.not_lt_zero _)
  | succ fuel ih =>
      intro s s' hs hrank hok
      simp only [settleWithin] at hok
      split at hok
      · next hneed =>
          rcases hfinish : R.finish s with ⟨out, e | t⟩
          · rw [hfinish] at hok
            cases hok
          · rw [hfinish] at hok
            obtain ⟨hinv, hlt⟩ := h.finish_ok hs hneed (congrArg Prod.snd hfinish)
            exact ih hinv (Nat.lt_of_lt_of_le hlt (Nat.lt_succ_iff.mp hrank)) hok
      · next hneed =>
          obtain rfl := Except.ok.inj hok
          exact ⟨hs, Nat.pos_of_ne_zero hneed⟩

theorem settle_ok (h : R.Lawful Inv) {s s' : σ} (hs : Inv s) (hok : (R.settle s).2 = .ok s') :
    Inv s' ∧ 0 < R.need s' :=
  settleWithin_ok h hs (Nat.lt_succ_self _) hok

theorem settle_settle (h : R.Lawful Inv) {s : σ} (hs : Inv s) (k : σ → Emission ε α τ) :
    ((R.settle s).andThen fun s => (R.settle s).andThen k) = (R.settle s).andThen k := by
  apply andThen_congr
  intro s' hs'
  rw [settle_waiting (settle_ok h hs hs').2, pure_andThen]

/-! ### Reading field by field -/

theorem read_complete (h : R.Lawful Inv) {s : σ} (hs : Inv s) (hneed : R.need s = 0)
    (input : List β) : R.read s input = (R.finish s).andThen fun s => R.read s input := by
  cases input with
  | nil => exact settle_complete h hs hneed
  | cons b rest =>
      rw [read, settle_complete h hs hneed, andThen_assoc]
      rfl

/-- What a field can take in may be taken in together. -/
theorem read_absorb (h : R.Lawful Inv) {a : List β} :
    ∀ {s : σ}, Inv s → a.length ≤ R.need s → ∀ rest : List β,
      R.read s (a ++ rest) = (ofExcept (R.absorb s a)).andThen fun s => R.read s rest := by
  induction a with
  | nil =>
      intro s hs _ rest
      rw [h.absorb_nil hs]
      rfl
  | cons b a ih =>
      intro s hs hlen rest
      have hone : a.length + [b].length ≤ R.need s := hlen
      have hneed : 0 < R.need s := Nat.lt_of_lt_of_le (Nat.succ_pos _) hlen
      have hsplit : R.absorb s (b :: a) = R.absorb s [b] >>= fun s => R.absorb s a :=
        h.absorb_append hs (Nat.add_comm _ _ ▸ hone)
      rw [List.cons_append, read, settle_waiting hneed, pure_andThen, hsplit, ofExcept_bind,
        andThen_assoc]
      apply andThen_congr
      intro t ht
      obtain ⟨hinv, hcount⟩ := h.absorb_ok hs (Nat.le_trans (Nat.le_add_left _ _) hone) ht
      exact ih hinv (Nat.le_of_add_le_add_right (hcount.symm ▸ hone)) rest

/-- A whole field is taken in, then the reader acts. -/
theorem read_field (h : R.Lawful Inv) {s : σ} (hs : Inv s) {a : List β}
    (hlen : a.length = R.need s) (rest : List β) :
    R.read s (a ++ rest) = (ofExcept (R.absorb s a)).andThen fun s =>
      (R.finish s).andThen fun s => R.read s rest := by
  rw [read_absorb h hs (Nat.le_of_eq hlen)]
  apply andThen_congr
  intro t ht
  obtain ⟨hinv, hcount⟩ := h.absorb_ok hs (Nat.le_of_eq hlen) ht
  exact read_complete h hinv (Nat.add_eq_right.mp (hcount.trans hlen.symm)) rest

/-- What happened to the present field when enough input for it was read. -/
theorem of_read_ok (h : R.Lawful Inv) {s t : σ} (hs : Inv s) {input : List β} {out : List α}
    (hlen : R.need s ≤ input.length) (hread : R.read s input = (out, .ok t)) :
    ∃ mid first next more, R.absorb s (input.take (R.need s)) = .ok mid ∧
      R.finish mid = (first, .ok next) ∧ R.read next (input.drop (R.need s)) = (more, .ok t) ∧
      Inv next ∧ out = first ++ more := by
  have hfield := read_field h hs (List.length_take_of_le hlen) (input.drop (R.need s))
  rw [List.take_append_drop, hread] at hfield
  obtain ⟨_, mid, _, hpure, hrest, rfl⟩ := of_andThen_ok hfield.symm
  obtain ⟨first, next, more, hfinish, hmore, rfl⟩ := of_andThen_ok hrest
  change ([], R.absorb s (input.take (R.need s))) = _ at hpure
  obtain ⟨rfl, habsorb⟩ := Prod.mk.inj hpure
  obtain ⟨hmid, hcount⟩ :=
    h.absorb_ok hs (Nat.le_of_eq (List.length_take_of_le hlen)) habsorb
  rw [List.length_take_of_le hlen, Nat.add_eq_right] at hcount
  exact ⟨mid, first, next, more, habsorb, hfinish, hmore,
    (h.finish_ok hmid hcount (congrArg Prod.snd hfinish)).1, rfl⟩

/-- A part of a field leaves the reader inside of it. -/
theorem read_part (h : R.Lawful Inv) {s : σ} (hs : Inv s) {a : List β}
    (hlen : a.length < R.need s) : R.read s a = ofExcept (R.absorb s a) := by
  have hread := read_absorb h hs (Nat.le_of_lt hlen) []
  rw [List.append_nil] at hread
  rw [hread, ← andThen_pure (ofExcept (R.absorb s a)), andThen_assoc]
  apply andThen_congr
  intro t ht
  obtain ⟨-, hcount⟩ := h.absorb_ok hs (Nat.le_of_lt hlen) ht
  rw [pure_andThen]
  apply settle_waiting
  rw [← hcount] at hlen
  exact Nat.pos_of_lt_add_left hlen

theorem read_ok (h : R.Lawful Inv) {input : List β} : ∀ {s s' : σ}, Inv s →
    (R.read s input).2 = .ok s' → Inv s' ∧ 0 < R.need s' := by
  induction input with
  | nil =>
      intro s s' hs hok
      exact settle_ok h hs hok
  | cons b rest ih =>
      intro s s' hs hok
      obtain ⟨_, mid, _, hsettle, hrest, -⟩ := of_andThen_ok (Prod.ext rfl hok)
      obtain ⟨hmid, hneed⟩ := settle_ok h hs (congrArg Prod.snd hsettle)
      obtain ⟨_, next, _, habsorb, hread, -⟩ := of_andThen_ok hrest
      obtain ⟨hnext, -⟩ := h.absorb_ok (a := [b]) hmid hneed (congrArg Prod.snd habsorb)
      exact ih hnext (congrArg Prod.snd hread)

/-! ### Invariants -/

section Invariant

variable {Good : σ → Prop} {Q : α → Prop}

/-- Taking in and acting keep `Good`, and what is given away has the property `Q`. -/
structure Keeps (R : FieldReader β ε α σ) (Inv Good : σ → Prop) (Q : α → Prop) : Prop where
  absorb : ∀ {s a s'}, Inv s → Good s → a.length ≤ R.need s → R.absorb s a = .ok s' → Good s'
  finish : ∀ {s}, Inv s → Good s → R.need s = 0 → (R.finish s).All Q Good

theorem Keeps.settleWithin (hkeeps : R.Keeps Inv Good Q) (h : R.Lawful Inv) : ∀ {fuel : Nat} {s : σ},
    Inv s → Good s → (R.settleWithin fuel s).All Q Good := by
  intro fuel
  induction fuel with
  | zero => intro s _ hgood; exact .pure hgood
  | succ fuel ih =>
      intro s hs hgood
      simp only [FieldReader.settleWithin]
      split
      · next hneed =>
          exact (hkeeps.finish hs hgood hneed).andThen fun s' hs' hgood' =>
            ih (h.finish_ok hs hneed hs').1 hgood'
      · exact .pure hgood

/-- The rule for reading: what every step keeps holds at the end, and of all that is
given away on the way. -/
theorem Keeps.read (hkeeps : R.Keeps Inv Good Q) (h : R.Lawful Inv) {input : List β} : ∀ {s : σ},
    Inv s → Good s → (R.read s input).All Q Good := by
  induction input with
  | nil => intro s hs hgood; exact hkeeps.settleWithin h hs hgood
  | cons b rest ih =>
      intro s hs hgood
      refine (hkeeps.settleWithin h hs hgood).andThen fun mid hmid hgood' => ?_
      obtain ⟨hinv, hneed⟩ := settle_ok h hs hmid
      have habsorb : (ofExcept (R.absorb mid [b]) : Emission ε α σ).All Q Good :=
        .ofExcept fun next hnext => hkeeps.absorb (a := [b]) hinv hgood' hneed hnext
      exact habsorb.andThen fun next hnext hgood'' =>
        ih (h.absorb_ok (a := [b]) hinv hneed hnext).1 hgood''

end Invariant

/-! ### Input in pieces -/

/-- Cutting the input changes nothing. -/
theorem read_append (h : R.Lawful Inv) {a b : List β} : ∀ {s : σ}, Inv s →
    R.read s (a ++ b) = (R.read s a).andThen fun s => R.read s b := by
  induction a with
  | nil =>
      intro s hs
      cases b with
      | nil =>
          rw [List.append_nil, read]
          conv_lhs => rw [← andThen_pure (R.settle s)]
          apply andThen_congr
          intro mid hmid
          exact (settle_waiting (settle_ok h hs hmid).2).symm
      | cons b rest => exact (settle_settle h hs _).symm
  | cons x a ih =>
      intro s hs
      rw [List.cons_append, read, read, andThen_assoc]
      apply andThen_congr
      intro mid hmid
      obtain ⟨hinv, hneed⟩ := settle_ok h hs hmid
      rw [andThen_assoc]
      apply andThen_congr
      intro next hnext
      exact ih (h.absorb_ok (a := [x]) hinv hneed hnext).1

end FieldReader

end ExchangeClient
