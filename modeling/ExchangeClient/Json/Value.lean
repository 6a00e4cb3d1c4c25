import ExchangeClient.Lib.SortedMap
import ExchangeClient.Lib.Utf8

/-!
# JSON values

The value type of `json.hpp` and the two ways the clients build values with it:
the initializer-list constructor, which turns a list of pairs into an object, and
`push_back` of an initializer list. An object is the list of its members in key
order, as `std::map` iterates over them.
-/

namespace ExchangeClient

/-- A JSON value over a type `F` of floating-point numbers. `number_integer` and
`number_unsigned` are one constructor: they compare equal when they hold the same
number and are written alike. -/
inductive Json (F : Type) where
  | null
  | boolean (value : Bool)
  | numberInteger (value : Int)
  | numberFloat (value : F)
  | string (value : Bytes)
  | array (elements : List (Json F))
  | object (members : List (Bytes × Json F))

structure JsonException where
  id : Nat
  what : Bytes
deriving DecidableEq, Repr

/-- `type_error::create`. -/
def JsonException.typeError (id : Nat) (whatArg : Bytes) : JsonException :=
  ⟨id, ascii "[json.exception.type_error." ++ Decimal.decimalNat id ++ ascii "] " ++ whatArg⟩

namespace Json

variable {F : Type}

def typeName : Json F → Bytes
  | .null => ascii "null"
  | .object _ => ascii "object"
  | .array _ => ascii "array"
  | .string _ => ascii "string"
  | .boolean _ => ascii "boolean"
  | .numberInteger _ | .numberFloat _ => ascii "number"

/-! ### Members -/

def member (key : Bytes) : Json F → Option (Json F)
  | .object members => SortedMap.find key members
  | _ => none

def stringMember (key : Bytes) (self : Json F) : Option Bytes :=
  match self.member key with
  | some (.string value) => some value
  | _ => none

/-! ### Initializer lists -/

/-- `is_array() and size() == 2 and [0].is_string()`. -/
def isPair : Json F → Bool
  | .array [.string _, _] => true
  | _ => false

/-- Move one pair of an initializer list into the object being built. -/
def emplacePair (members : List (Bytes × Json F)) : Json F → List (Bytes × Json F)
  | .array [.string key, value] => SortedMap.emplace key value members
  | _ => members

/-- The constructor from an initializer list, with type deduction: an object if
every element is a pair that starts with a string, an array otherwise. -/
def ofInitList (init : List (Json F)) : Json F :=
  if init.all isPair then .object (init.foldl emplacePair []) else .array init

/-- `push_back(initializer_list_t)`: on an object, a list of two elements of which
the first is a string becomes a member of that object. Anything else is appended
as one value, which only null and arrays allow. -/
def pushBack (self : Json F) (init : List (Json F)) : Except JsonException (Json F) :=
  match self, init with
  | .object members, [.string key, value] =>
      .ok (.object (SortedMap.emplace key value members))
  | .null, init => .ok (.array [ofInitList init])
  | .array elements, init => .ok (.array (elements ++ [ofInitList init]))
  | self, _ =>
      .error (.typeError 308 (ascii "cannot use push_back() with " ++ self.typeName))

/-! ### Well-formed values -/

mutual

/-- The values the library can hold and write, over the floating-point numbers in
`P`: integers of 64 bits, strings of UTF-8, objects with their members in key
order. -/
def WellFormed (P : F → Prop) : Json F → Prop
  | .numberInteger value => -2 ^ 63 ≤ value ∧ value < 2 ^ 64
  | .numberFloat value => P value
  | .string value => Utf8.Valid value
  | .array elements => WellFormedElements P elements
  | .object members => SortedMap.Sorted members ∧ WellFormedMembers P members
  | .null | .boolean _ => True

def WellFormedElements (P : F → Prop) : List (Json F) → Prop
  | [] => True
  | element :: elements => WellFormed P element ∧ WellFormedElements P elements

def WellFormedMembers (P : F → Prop) : List (Bytes × Json F) → Prop
  | [] => True
  | (key, value) :: members =>
      Utf8.Valid key ∧ WellFormed P value ∧ WellFormedMembers P members

end

variable {P : F → Prop}

theorem wellFormedElements_iff {elements : List (Json F)} :
    WellFormedElements P elements ↔ ∀ element ∈ elements, element.WellFormed P := by
  induction elements with
  | nil => simp [WellFormedElements]
  | cons element elements ih => simp [WellFormedElements, ih]

theorem wellFormedMembers_iff {members : List (Bytes × Json F)} :
    WellFormedMembers P members ↔
      ∀ member ∈ members, Utf8.Valid member.1 ∧ member.2.WellFormed P := by
  induction members with
  | nil => simp [WellFormedMembers]
  | cons member members ih => simp [WellFormedMembers, ih, and_assoc]

theorem wellFormed_emplace {members : List (Bytes × Json F)} {key : Bytes} {value : Json F}
    (hmembers : (object members).WellFormed P) (hkey : Utf8.Valid key)
    (hvalue : value.WellFormed P) :
    (object (SortedMap.emplace key value members)).WellFormed P := by
  rw [WellFormed, wellFormedMembers_iff] at hmembers ⊢
  refine ⟨SortedMap.sorted_emplace hmembers.1, ?_⟩
  intro member hmember
  rcases SortedMap.mem_emplace hmember with h | rfl
  · exact hmembers.2 member h
  · exact ⟨hkey, hvalue⟩

theorem wellFormed_emplacePair {members : List (Bytes × Json F)} {pair : Json F}
    (hmembers : (object members).WellFormed P) (hpair : pair.WellFormed P) :
    (object (emplacePair members pair)).WellFormed P := by
  unfold emplacePair
  split
  · rw [WellFormed, wellFormedElements_iff] at hpair
    simp only [List.forall_mem_cons] at hpair
    exact wellFormed_emplace hmembers (by simpa [WellFormed] using hpair.1) hpair.2.1
  · exact hmembers

theorem wellFormed_ofInitList {init : List (Json F)} (h : ∀ value ∈ init, value.WellFormed P) :
    (ofInitList init).WellFormed P := by
  have hfold : ∀ {init : List (Json F)} {members : List (Bytes × Json F)},
      (∀ value ∈ init, value.WellFormed P) → (object members).WellFormed P →
        (object (init.foldl emplacePair members)).WellFormed P := by
    intro init
    induction init with
    | nil =>
        intro members _ hmembers
        exact hmembers
    | cons value init ih =>
        intro members hinit hmembers
        rw [List.forall_mem_cons] at hinit
        exact ih hinit.2 (wellFormed_emplacePair hmembers hinit.1)
  unfold ofInitList
  split
  · apply hfold h
    simp [WellFormed, WellFormedMembers, SortedMap.Sorted]
  · rw [WellFormed, wellFormedElements_iff]
    exact h

theorem wellFormed_pushBack {self result : Json F} {init : List (Json F)}
    (hself : self.WellFormed P) (hinit : ∀ value ∈ init, value.WellFormed P)
    (h : self.pushBack init = .ok result) : result.WellFormed P := by
  unfold pushBack at h
  split at h
  · cases h
    simp only [List.forall_mem_cons] at hinit
    exact wellFormed_emplace hself (by simpa [WellFormed] using hinit.1) hinit.2.1
  · cases h
    simp only [WellFormed, WellFormedElements, and_true]
    exact wellFormed_ofInitList hinit
  · cases h
    rw [WellFormed, wellFormedElements_iff] at hself ⊢
    intro value hvalue
    rcases List.mem_append.mp hvalue with hin | hin
    · exact hself value hin
    · rw [List.mem_singleton.mp hin]
      exact wellFormed_ofInitList hinit
  · cases h

theorem wellFormed_pair {key : Bytes} {value : Json F} (hkey : Utf8.Valid key)
    (hvalue : value.WellFormed P) : (ofInitList [.string key, value]).WellFormed P := by
  apply wellFormed_ofInitList
  simp [WellFormed, hkey, hvalue]

end Json

end ExchangeClient
