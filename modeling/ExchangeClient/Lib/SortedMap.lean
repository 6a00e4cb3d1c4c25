import Mathlib.Data.List.Basic
import Mathlib.Tactic.Basic

/-!
# Association lists in key order

The contents of an ordered map, as the list of its entries in increasing key
order. Two insertions are provided: `emplace` keeps an entry that is already
there, `assign` overwrites its value.
-/

namespace ExchangeClient.SortedMap

variable {κ ν : Type*} [Ord κ]

def Sorted (entries : List (κ × ν)) : Prop :=
  entries.Pairwise fun left right => compare left.1 right.1 = .lt

theorem sorted_iff_keys {entries : List (κ × ν)} :
    Sorted entries ↔ (entries.map Prod.fst).Pairwise fun left right => compare left right = .lt := by
  rw [Sorted, List.pairwise_map]

/-- Insert an entry unless the key is present. -/
def emplace (key : κ) (value : ν) : List (κ × ν) → List (κ × ν)
  | [] => [(key, value)]
  | entry :: rest =>
      match compare key entry.1 with
      | .lt => (key, value) :: entry :: rest
      | .eq => entry :: rest
      | .gt => entry :: emplace key value rest

/-- Insert an entry, or overwrite the value of the key if it is present. -/
def assign (key : κ) (value : ν) : List (κ × ν) → List (κ × ν)
  | [] => [(key, value)]
  | entry :: rest =>
      match compare key entry.1 with
      | .lt => (key, value) :: entry :: rest
      | .eq => (entry.1, value) :: rest
      | .gt => entry :: assign key value rest

def find (key : κ) : List (κ × ν) → Option ν
  | [] => none
  | entry :: rest => if compare key entry.1 = .eq then some entry.2 else find key rest

theorem mem_emplace {key : κ} {value : ν} {entries : List (κ × ν)} {e : κ × ν}
    (he : e ∈ emplace key value entries) : e ∈ entries ∨ e = (key, value) := by
  induction entries with
  | nil => exact Or.inr (List.mem_singleton.mp he)
  | cons entry rest ih =>
      rw [emplace] at he
      split at he
      · rcases List.mem_cons.mp he with rfl | he
        · exact Or.inr rfl
        · exact Or.inl he
      · exact Or.inl he
      · rcases List.mem_cons.mp he with rfl | he
        · exact Or.inl List.mem_cons_self
        · rcases ih he with h | h
          · exact Or.inl (List.mem_cons_of_mem _ h)
          · exact Or.inr h

/-- An entry that is overwritten keeps the key that was there first. -/
theorem mem_assign {key : κ} {value : ν} {entries : List (κ × ν)} {e : κ × ν}
    (he : e ∈ assign key value entries) :
    e ∈ entries ∨ e.2 = value ∧ (e.1 = key ∨ e.1 ∈ entries.map Prod.fst) := by
  induction entries with
  | nil =>
      obtain rfl := List.mem_singleton.mp he
      exact .inr ⟨rfl, .inl rfl⟩
  | cons entry rest ih =>
      rw [assign] at he
      split at he
      · rcases List.mem_cons.mp he with rfl | he
        · exact .inr ⟨rfl, .inl rfl⟩
        · exact .inl he
      · rcases List.mem_cons.mp he with rfl | he
        · exact .inr ⟨rfl, .inr List.mem_cons_self⟩
        · exact .inl (List.mem_cons_of_mem _ he)
      · rcases List.mem_cons.mp he with rfl | he
        · exact .inl List.mem_cons_self
        · rcases ih he with hold | ⟨hvalue, hkey⟩
          · exact .inl (List.mem_cons_of_mem _ hold)
          · exact .inr ⟨hvalue, hkey.imp_right (List.mem_cons_of_mem _)⟩

section Order

variable [Std.TransOrd κ]

theorem sorted_emplace {key : κ} {value : ν} {entries : List (κ × ν)}
    (hs : Sorted entries) : Sorted (emplace key value entries) := by
  induction entries with
  | nil => simp [emplace, Sorted]
  | cons entry rest ih =>
      obtain ⟨hhead, hrest⟩ := List.pairwise_cons.mp hs
      rw [emplace]
      split
      · next hlt =>
        refine List.pairwise_cons.mpr ⟨fun e he => ?_, hs⟩
        rcases List.mem_cons.mp he with rfl | he
        · exact hlt
        · exact Std.TransCmp.lt_trans hlt (hhead e he)
      · exact hs
      · next hgt =>
        refine List.pairwise_cons.mpr ⟨fun e he => ?_, ih hrest⟩
        rcases mem_emplace he with he | rfl
        · exact hhead e he
        · exact Std.OrientedCmp.lt_of_gt hgt

theorem sorted_assign {key : κ} {value : ν} {entries : List (κ × ν)}
    (hs : Sorted entries) : Sorted (assign key value entries) := by
  induction entries with
  | nil => exact List.pairwise_singleton _ _
  | cons entry rest ih =>
      obtain ⟨hhead, hrest⟩ := List.pairwise_cons.mp hs
      rw [assign]
      split
      · next hlt =>
        refine List.pairwise_cons.mpr ⟨fun e he => ?_, hs⟩
        rcases List.mem_cons.mp he with rfl | he
        · exact hlt
        · exact Std.TransCmp.lt_trans hlt (hhead e he)
      · exact List.pairwise_cons.mpr ⟨hhead, hrest⟩
      · next hgt =>
        have hlt : compare entry.1 key = .lt := Std.OrientedCmp.lt_of_gt hgt
        refine List.pairwise_cons.mpr ⟨fun e he => ?_, ih hrest⟩
        rcases mem_assign he with hold | ⟨-, hkey | hkey⟩
        · exact hhead e hold
        · rwa [hkey]
        · obtain ⟨old, hold, heq⟩ := List.mem_map.mp hkey
          rw [← heq]
          exact hhead old hold

theorem assign_eq_append {key : κ} {value : ν} {entries : List (κ × ν)}
    (habove : ∀ e ∈ entries, compare e.1 key = .lt) :
    assign key value entries = entries ++ [(key, value)] := by
  induction entries with
  | nil => rfl
  | cons entry rest ih =>
      have hgt : compare key entry.1 = .gt :=
        Std.OrientedCmp.gt_of_lt (habove entry List.mem_cons_self)
      rw [assign, hgt]
      rw [ih fun e he => habove e (List.mem_cons_of_mem _ he), List.cons_append]

end Order

end ExchangeClient.SortedMap
