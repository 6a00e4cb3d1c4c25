import Mathlib.Data.List.Basic
import Mathlib.Data.List.Forall2
import Mathlib.Tactic.Basic

/-!
# Splitting a concatenation back into its parts

A message that is glued together from parts without a length field can be taken
apart again only if something in the parts marks where one ends and the next
begins. Three such marks are used: the first symbol outside a class of symbols,
the last occurrence of a delimiter, and a prefix-free family of leading words.
The lemmas are about lists over an arbitrary alphabet.
-/

namespace ExchangeClient.Splitting

variable {α κ : Type*}

/-! ### The first symbol outside a class -/

def StopsAt (p : α → Prop) (rest : List α) : Prop :=
  ∀ a ∈ rest.head?, ¬ p a

@[simp] theorem stopsAt_nil (p : α → Prop) : StopsAt p ([] : List α) := by
  simp [StopsAt]

@[simp] theorem stopsAt_cons (p : α → Prop) (a : α) (rest : List α) :
    StopsAt p (a :: rest) ↔ ¬ p a := by
  simp [StopsAt]

/-- Two runs of symbols of one class, each followed by a symbol outside it, are
equal when the whole lists are. -/
theorem append_inj_of_stopsAt {p : α → Prop} :
    ∀ {run run' rest rest' : List α},
      (∀ a ∈ run, p a) → (∀ a ∈ run', p a) → StopsAt p rest → StopsAt p rest' →
      run ++ rest = run' ++ rest' → run = run' ∧ rest = rest' := by
  intro run
  induction run with
  | nil =>
      intro run' rest rest' _ hrun' hrest _ heq
      cases run' with
      | nil => exact ⟨rfl, heq⟩
      | cons b run' =>
          simp only [List.nil_append, List.cons_append] at heq
          subst heq
          exact absurd (hrun' b (by simp)) (by simpa using hrest)
  | cons a run ih =>
      intro run' rest rest' hrun hrun' hrest hrest' heq
      cases run' with
      | nil =>
          simp only [List.nil_append, List.cons_append] at heq
          subst heq
          exact absurd (hrun a (by simp)) (by simpa using hrest')
      | cons b run' =>
          simp only [List.cons_append, List.cons.injEq] at heq
          obtain ⟨hhead, htail⟩ := heq
          obtain ⟨htail, hrest⟩ := ih (fun c hc => hrun c (by simp [hc]))
            (fun c hc => hrun' c (by simp [hc])) hrest hrest' htail
          exact ⟨by rw [hhead, htail], hrest⟩

/-! ### Delimiters -/

/-- What stands before the first `d` of a list is determined by the list. -/
theorem append_cons_inj_of_notMem_left {d : α} {left left' right right' : List α}
    (hleft : d ∉ left) (hleft' : d ∉ left')
    (heq : left ++ d :: right = left' ++ d :: right') :
    left = left' ∧ right = right' := by
  obtain ⟨hl, hr⟩ := append_inj_of_stopsAt (p := (· ≠ d))
    (fun a ha had => hleft (had ▸ ha)) (fun a ha had => hleft' (had ▸ ha))
    (by simp) (by simp) heq
  exact ⟨hl, (List.cons.inj hr).2⟩

/-- What follows the last `d` of a list is determined by the list. -/
theorem append_cons_inj_of_notMem_right {d : α} {left left' right right' : List α}
    (hright : d ∉ right) (hright' : d ∉ right')
    (heq : left ++ d :: right = left' ++ d :: right') :
    left = left' ∧ right = right' := by
  have hreverse : right.reverse ++ d :: left.reverse =
      right'.reverse ++ d :: left'.reverse := by
    simpa using congrArg List.reverse heq
  obtain ⟨hr, hl⟩ := append_cons_inj_of_notMem_left
    (by simpa using hright) (by simpa using hright') hreverse
  exact ⟨List.reverse_injective hl, List.reverse_injective hr⟩

/-- A list without `d` that begins like one with `d` ends before the `d`. -/
theorem prefix_of_notMem {d : α} {left left' right right' : List α} (h : d ∉ left)
    (heq : left ++ right = left' ++ d :: right') : left <+: left' := by
  rcases List.append_eq_append_iff.mp heq with ⟨more, hmore, -⟩ | ⟨more, hmore, hright⟩
  · exact ⟨more, hmore.symm⟩
  · cases more with
    | nil => exact ⟨[], by simpa using hmore⟩
    | cons a more =>
        obtain ⟨rfl, -⟩ := List.cons.inj hright
        exact absurd (by simp [hmore]) h

/-! ### Prefix-free families of leading words -/

/-- No word of the family is a prefix of another one. -/
def PrefixFree (word : κ → List α) : Prop :=
  ∀ left right, word left <+: word right → left = right

theorem PrefixFree.append_inj {word : κ → List α} (hfree : PrefixFree word)
    {left right : κ} {rest rest' : List α} (heq : word left ++ rest = word right ++ rest') :
    left = right ∧ rest = rest' := by
  have hleft : word left <+: word right ++ rest' := heq ▸ List.prefix_append _ _
  have hright : word right <+: word right ++ rest' := List.prefix_append _ _
  have hkey : left = right := by
    rcases List.prefix_or_prefix_of_prefix hleft hright with h | h
    · exact hfree left right h
    · exact (hfree right left h).symm
  subst hkey
  exact ⟨rfl, List.append_cancel_left heq⟩

section Decoder

variable [DecidableEq α]

def splitFirst (d : α) : List α → Option (List α × List α)
  | [] => none
  | a :: rest =>
      if a = d then some ([], rest)
      else (splitFirst d rest).map fun parts => (a :: parts.1, parts.2)

theorem splitFirst_append {d : α} {left : List α} (h : d ∉ left) (right : List α) :
    splitFirst d (left ++ d :: right) = some (left, right) := by
  induction left with
  | nil => simp [splitFirst]
  | cons a left ih =>
      rw [List.mem_cons, not_or] at h
      simp [splitFirst, ih h.2, Ne.symm h.1]

theorem append_of_splitFirst {d : α} : ∀ {text left right : List α},
    splitFirst d text = some (left, right) → text = left ++ d :: right ∧ d ∉ left := by
  intro text
  induction text with
  | nil =>
      intro left right h
      cases h
  | cons a text ih =>
      intro left right h
      simp only [splitFirst] at h
      split at h
      · next had =>
          obtain ⟨rfl, rfl⟩ := Prod.mk.inj (Option.some.inj h)
          exact ⟨by rw [had, List.nil_append], List.not_mem_nil⟩
      · next had =>
          obtain ⟨parts, hparts, heq⟩ := Option.map_eq_some_iff.mp h
          obtain ⟨rfl, rfl⟩ := Prod.mk.inj heq
          obtain ⟨htext, hnotMem⟩ := ih hparts
          refine ⟨by rw [htext, List.cons_append], ?_⟩
          rw [List.mem_cons, not_or]
          exact ⟨Ne.symm had, hnotMem⟩

/-- What is left of `text` after the word `lead`, if it starts with it. -/
def dropWord : List α → List α → Option (List α)
  | [], text => some text
  | _ :: _, [] => none
  | a :: lead, b :: text => if a = b then dropWord lead text else none

@[simp] theorem dropWord_append (lead rest : List α) :
    dropWord lead (lead ++ rest) = some rest := by
  induction lead with
  | nil => rfl
  | cons a lead ih => simpa [dropWord] using ih

theorem append_of_dropWord : ∀ {lead text rest : List α},
    dropWord lead text = some rest → text = lead ++ rest := by
  intro lead
  induction lead with
  | nil =>
      intro text rest h
      simpa [dropWord] using h
  | cons a lead ih =>
      intro text rest h
      cases text with
      | nil => simp [dropWord] at h
      | cons b text =>
          simp only [dropWord] at h
          split at h
          · next hab => rw [ih h, hab, List.cons_append]
          · cases h

/-- Read the leading word: the first key of `keys` whose word starts the text,
with the remaining text. -/
def readWord (word : κ → List α) : List κ → List α → Option (κ × List α)
  | [], _ => none
  | key :: keys, text =>
      match dropWord (word key) text with
      | some rest => some (key, rest)
      | none => readWord word keys text

/-- The reader finds the word a text was written with, wherever it stands in the
list of keys. -/
theorem readWord_append {word : κ → List α} (hfree : PrefixFree word) :
    ∀ {keys : List κ} {key : κ} (rest : List α), key ∈ keys →
      readWord word keys (word key ++ rest) = some (key, rest) := by
  intro keys
  induction keys with
  | nil => intro key rest h; cases h
  | cons other keys ih =>
      intro key rest hmem
      simp only [readWord]
      rcases hdrop : dropWord (word other) (word key ++ rest) with _ | rest'
      · rcases List.mem_cons.mp hmem with rfl | hmem
        · simp at hdrop
        · exact ih rest hmem
      · obtain ⟨hkey, hrest⟩ := hfree.append_inj (append_of_dropWord hdrop)
        rw [hkey, hrest]

end Decoder

end ExchangeClient.Splitting
