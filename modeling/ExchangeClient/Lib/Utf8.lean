import Mathlib.Data.List.Forall2
import ExchangeClient.Lib.Bytes

/-!
# UTF-8 octet sequences

The syntax of RFC 3629: a first octet determines how many octets follow and in
which range each of them lies. One table carries the whole grammar, so that a
machine that accepts UTF-8 has to be compared with it at one place only.
-/

namespace ExchangeClient.Utf8

abbrev Range := UInt8 × UInt8

def Range.Holds (r : Range) (b : UInt8) : Prop := r.1 ≤ b ∧ b ≤ r.2

instance (r : Range) (b : UInt8) : Decidable (r.Holds b) := by
  unfold Range.Holds; infer_instance

/-- The ranges of the octets that follow a first octet, or `none` for an octet
that no character starts with. -/
def tails (lead : UInt8) : Option (List Range) :=
  if lead ≤ 0x7F then some []
  else if 0xC2 ≤ lead ∧ lead ≤ 0xDF then some [(0x80, 0xBF)]
  else if lead = 0xE0 then some [(0xA0, 0xBF), (0x80, 0xBF)]
  else if 0xE1 ≤ lead ∧ lead ≤ 0xEC then some [(0x80, 0xBF), (0x80, 0xBF)]
  else if lead = 0xED then some [(0x80, 0x9F), (0x80, 0xBF)]
  else if 0xEE ≤ lead ∧ lead ≤ 0xEF then some [(0x80, 0xBF), (0x80, 0xBF)]
  else if lead = 0xF0 then some [(0x90, 0xBF), (0x80, 0xBF), (0x80, 0xBF)]
  else if 0xF1 ≤ lead ∧ lead ≤ 0xF3 then some [(0x80, 0xBF), (0x80, 0xBF), (0x80, 0xBF)]
  else if lead = 0xF4 then some [(0x80, 0x8F), (0x80, 0xBF), (0x80, 0xBF)]
  else none

/-- A sequence of characters. -/
inductive Valid : Bytes → Prop
  | nil : Valid []
  | char {lead : UInt8} {ranges : List Range} {octets rest : Bytes} :
      tails lead = some ranges → List.Forall₂ Range.Holds ranges octets → Valid rest →
      Valid (lead :: (octets ++ rest))

theorem tails_ascii {b : UInt8} (hb : b ≤ 0x7F) : tails b = some [] := if_pos hb

theorem valid_cons_ascii {b : UInt8} {s : Bytes} (hb : b ≤ 0x7F) (hs : Valid s) :
    Valid (b :: s) :=
  @Valid.char b [] [] s (tails_ascii hb) .nil hs

theorem valid_of_ascii {s : Bytes} (hs : s.all (· ≤ 0x7F) = true) : Valid s := by
  induction s with
  | nil => exact .nil
  | cons b s ih =>
      simp only [List.all_cons, Bool.and_eq_true, decide_eq_true_eq] at hs
      exact valid_cons_ascii hs.1 (ih hs.2)

theorem Valid.append {s t : Bytes} (hs : Valid s) (ht : Valid t) : Valid (s ++ t) := by
  induction hs with
  | nil => exact ht
  | char hlead hoctets _ ih =>
      rw [List.cons_append, List.append_assoc]
      exact .char hlead hoctets ih

/-- The right-hand sides of the grammar: what may have to follow a first octet. -/
def rows : List (List Range) :=
  [[], [(0x80, 0xBF)], [(0xA0, 0xBF), (0x80, 0xBF)], [(0x80, 0xBF), (0x80, 0xBF)],
    [(0x80, 0x9F), (0x80, 0xBF)], [(0x90, 0xBF), (0x80, 0xBF), (0x80, 0xBF)],
    [(0x80, 0xBF), (0x80, 0xBF), (0x80, 0xBF)], [(0x80, 0x8F), (0x80, 0xBF), (0x80, 0xBF)]]

theorem tails_mem_rows {lead : UInt8} {ranges : List Range} (h : tails lead = some ranges) :
    ranges ∈ rows := by
  unfold tails at h
  repeat' split at h
  all_goals cases h
  all_goals decide

/-- Every following octet is at least `0x80`, so none of them is an ASCII
character. -/
theorem tails_range_low {lead : UInt8} {ranges : List Range} (h : tails lead = some ranges) :
    ∀ r ∈ ranges, 0x80 ≤ r.1 := by
  have hrows : ∀ row ∈ rows, row.all (fun r => 0x80 ≤ r.1) = true := by decide
  simpa using hrows ranges (tails_mem_rows h)

/-! ### Reading octet by octet -/

/-- What has to follow after one more octet, from the ranges that had to follow
before it. -/
def advance : List Range → UInt8 → Option (List Range)
  | [], b => tails b
  | r :: ranges, b => if r.Holds b then some ranges else none

def scan (ranges : List Range) (s : Bytes) : Option (List Range) := s.foldlM advance ranges

@[simp] theorem scan_nil (ranges : List Range) : scan ranges [] = some ranges := rfl

theorem scan_cons (ranges : List Range) (b : UInt8) (s : Bytes) :
    scan ranges (b :: s) = (advance ranges b).bind fun ranges => scan ranges s := rfl

theorem scan_append (ranges : List Range) (s t : Bytes) :
    scan ranges (s ++ t) = (scan ranges s).bind fun ranges => scan ranges t :=
  List.foldlM_append ..

theorem scan_octets {ranges : List Range} {octets : Bytes}
    (h : List.Forall₂ Range.Holds ranges octets) (rest : Bytes) :
    scan ranges (octets ++ rest) = scan [] rest := by
  induction h with
  | nil => rfl
  | cons hoctet _ ih => rw [List.cons_append, scan_cons, advance, if_pos hoctet, Option.bind_some, ih]

theorem octets_of_scan {s : Bytes} : ∀ {ranges : List Range}, scan ranges s = some [] →
    ∃ octets rest, s = octets ++ rest ∧ List.Forall₂ Range.Holds ranges octets ∧ Valid rest := by
  induction s with
  | nil =>
      intro ranges h
      obtain rfl := Option.some.inj h
      exact ⟨[], [], rfl, .nil, .nil⟩
  | cons b s ih =>
      intro ranges h
      obtain ⟨next, hnext, hrest⟩ := Option.bind_eq_some_iff.mp h
      obtain ⟨octets, rest, rfl, hoctets, hvalid⟩ := ih hrest
      cases ranges with
      | nil => exact ⟨[], b :: (octets ++ rest), rfl, .nil, .char hnext hoctets hvalid⟩
      | cons r ranges =>
          simp only [advance, Option.ite_none_right_eq_some, Option.some.injEq] at hnext
          obtain ⟨hb, rfl⟩ := hnext
          exact ⟨b :: octets, rest, rfl, .cons hb hoctets, hvalid⟩

theorem scan_valid {s : Bytes} (h : Valid s) : scan [] s = some [] := by
  induction h with
  | nil => rfl
  | char hlead hoctets _ ih =>
      rw [scan_cons, advance, hlead, Option.bind_some, scan_octets hoctets, ih]

/-- Reading ends between two characters exactly on the sequences of characters. -/
theorem scan_eq_nil_iff {s : Bytes} : scan [] s = some [] ↔ Valid s := by
  constructor
  · intro h
    obtain ⟨octets, rest, rfl, hoctets, hvalid⟩ := octets_of_scan h
    cases hoctets
    exact hvalid
  · exact scan_valid

theorem advance_mem_rows {ranges next : List Range} {b : UInt8} (hranges : ranges ∈ rows)
    (h : advance ranges b = some next) : next ∈ rows := by
  cases ranges with
  | nil => exact tails_mem_rows h
  | cons r ranges =>
      have htail : ∀ row ∈ rows, row.tail ∈ rows := by decide
      simp only [advance, Option.ite_none_right_eq_some, Option.some.injEq] at h
      obtain ⟨-, rfl⟩ := h
      exact htail _ hranges

theorem scan_mem_rows {s : Bytes} : ∀ {ranges next : List Range}, ranges ∈ rows →
    scan ranges s = some next → next ∈ rows := by
  induction s with
  | nil =>
      intro ranges next hranges h
      obtain rfl := Option.some.inj h
      exact hranges
  | cons b s ih =>
      intro ranges next hranges h
      obtain ⟨mid, hmid, hrest⟩ := Option.bind_eq_some_iff.mp h
      exact ih (advance_mem_rows hranges hmid) hrest

/-- Reading goes through exactly as long as the octets begin a sequence of characters. -/
theorem scan_isSome_iff {s : Bytes} : (scan [] s).isSome = true ↔ ∃ t, Valid (s ++ t) := by
  constructor
  · intro h
    obtain ⟨ranges, hranges⟩ := Option.isSome_iff_exists.mp h
    have hrow : ranges ∈ rows := scan_mem_rows (by decide) hranges
    have hlow : ∀ row ∈ rows, List.Forall₂ Range.Holds row (row.map Prod.fst) := by
      have hle : ∀ row ∈ rows, row.all (fun r => r.1 ≤ r.2) = true := by decide
      intro row hmem
      rw [List.forall₂_map_right_iff, List.forall₂_same]
      intro r hr
      have hr := List.all_eq_true.mp (hle row hmem) r hr
      exact ⟨UInt8.le_refl _, by simpa using hr⟩
    refine ⟨ranges.map Prod.fst, scan_eq_nil_iff.mp ?_⟩
    have hrest := scan_octets (hlow ranges hrow) []
    rw [List.append_nil] at hrest
    rw [scan_append, hranges, Option.bind_some, hrest, scan_nil]
  · rintro ⟨t, ht⟩
    have hscan := scan_valid ht
    rw [scan_append] at hscan
    exact Option.isSome_of_mem (Option.bind_eq_some_iff.mp hscan).choose_spec.1

end ExchangeClient.Utf8
