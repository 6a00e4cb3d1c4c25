import ExchangeClient.Lib.Loop
import ExchangeClient.Json.Value

/-!
# Number tokens

`dump_integer` writes two digits at a time from the right; it is proved to write
the decimal numeral. `to_chars` formats the shortest digits of a finite double.
The digits themselves come from Grisu2 and reading back is `strtod`; both are
parameters, so doubles are an abstract type.
-/

namespace ExchangeClient

open Decimal

/-! ### Integers -/

def digitsTo99 (index : Nat) : Bytes := [digitByte (index / 10), digitByte (index % 10)]

/-- One round of the loop that fills the number buffer from the right. -/
def dumpDigitsBody : Nat × Bytes → (Nat × Bytes) ⊕ Bytes
  | (absValue, buffer) =>
      if absValue ≥ 100 then .inl (absValue / 100, digitsTo99 (absValue % 100) ++ buffer)
      else if absValue ≥ 10 then .inr (digitsTo99 absValue ++ buffer)
      else .inr (digitByte absValue :: buffer)

theorem dumpDigitsBody_decreases : Loop.Decreases dumpDigitsBody Prod.fst := by
  rintro ⟨absValue, buffer⟩ s' h
  simp only [dumpDigitsBody] at h
  split at h
  · cases h
    exact Nat.div_lt_self (by omega) (by decide)
  · split at h <;> cases h

def dumpInteger (x : Int) : Bytes :=
  if x = 0 then [digitByte 0]
  else if x < 0 then
    0x2D :: Loop.iterate dumpDigitsBody Prod.fst dumpDigitsBody_decreases (x.natAbs, [])
  else Loop.iterate dumpDigitsBody Prod.fst dumpDigitsBody_decreases (x.natAbs, [])

theorem decimalNat_of_lt_ten {n : Nat} (hn : n < 10) : decimalNat n = [digitByte n] := by
  by_cases h : n = 0
  · simp [decimalNat, h]
  · simp [decimalNat, h, Nat.digits_of_lt 10 n h hn]

theorem decimalNat_of_ge_ten {n : Nat} (hn : 10 ≤ n) :
    decimalNat n = decimalNat (n / 10) ++ [digitByte (n % 10)] := by
  have hdiv : n / 10 ≠ 0 := by omega
  have hne : n ≠ 0 := by omega
  simp [decimalNat, hdiv, hne, Nat.digits_eq_cons_digits_div (by decide : 1 < 10) hne]

theorem decimalNat_of_ge_hundred {n : Nat} (hn : 100 ≤ n) :
    decimalNat n = decimalNat (n / 100) ++ digitsTo99 (n % 100) := by
  rw [decimalNat_of_ge_ten (by omega : 10 ≤ n), decimalNat_of_ge_ten (by omega : 10 ≤ n / 10),
    Nat.div_div_eq_div_mul, List.append_assoc]
  have hhigh : n % 100 / 10 = n / 10 % 10 := by omega
  have hlow : n % 100 % 10 = n % 10 := by omega
  simp [digitsTo99, hhigh, hlow]

theorem digitsTo99_eq_decimalNat {n : Nat} (hlow : 10 ≤ n) (hhigh : n < 100) :
    digitsTo99 n = decimalNat n := by
  rw [decimalNat_of_ge_ten hlow, decimalNat_of_lt_ten (by omega : n / 10 < 10)]
  rfl

theorem iterate_dumpDigitsBody (n : Nat) (buffer : Bytes) :
    Loop.iterate dumpDigitsBody Prod.fst dumpDigitsBody_decreases (n, buffer) =
      decimalNat n ++ buffer := by
  refine Loop.iterate_invariant dumpDigitsBody_decreases
    (fun s => decimalNat s.1 ++ s.2 = decimalNat n ++ buffer)
    (fun out => out = decimalNat n ++ buffer) ?_ ?_ rfl
  · rintro ⟨absValue, out⟩ s' hinv h
    simp only [dumpDigitsBody] at h
    split at h
    · next hge =>
      cases h
      rw [← hinv, decimalNat_of_ge_hundred hge, List.append_assoc]
    · split at h <;> cases h
  · rintro ⟨absValue, out⟩ a hinv h
    simp only [dumpDigitsBody] at h
    split at h
    · cases h
    · split at h <;> cases h
      · rw [← hinv, digitsTo99_eq_decimalNat (by omega) (by omega)]
      · rw [← hinv, decimalNat_of_lt_ten (by omega)]
        rfl

@[simp] theorem dumpInteger_eq_decimal (x : Int) : dumpInteger x = decimal x := by
  unfold dumpInteger decimal
  by_cases hzero : x = 0
  · subst hzero; rfl
  · rw [if_neg hzero]
    simp only [iterate_dumpDigitsBody, List.append_nil]

/-! ### Doubles -/

/-- What the library uses of the type `double`. `grisu2` gives the digits of the
absolute value of a finite nonzero number and the decimal exponent of the last of
them. -/
structure DoubleFormat (F : Type) where
  isfinite : F → Bool
  signbit : F → Bool
  isZero : F → Bool
  grisu2 : F → List (Fin 10) × Int
  strtod : Bytes → F

/-- `append_exponent`: a sign and at least two digits. -/
def appendExponent (e : Int) : Bytes :=
  let k := e.natAbs
  (if e < 0 then 0x2D else 0x2B) ::
    (if k < 10 then [0x30, digitByte k]
     else if k < 100 then [digitByte (k / 10), digitByte (k % 10)]
     else [digitByte (k / 100), digitByte (k % 100 / 10), digitByte (k % 100 % 10)])

/-- `format_buffer`: positional notation if the decimal point falls between
`minExp` and `maxExp`, an exponent otherwise. -/
def formatBuffer (buf : Bytes) (decimalExponent minExp maxExp : Int) : Bytes :=
  let k : Int := buf.length
  let n : Int := k + decimalExponent
  if k ≤ n ∧ n ≤ maxExp then
    buf ++ List.replicate (n - k).toNat 0x30 ++ [0x2E, 0x30]
  else if 0 < n ∧ n ≤ maxExp then
    buf.take n.toNat ++ 0x2E :: buf.drop n.toNat
  else if minExp < n ∧ n ≤ 0 then
    0x30 :: 0x2E :: (List.replicate (-n).toNat 0x30 ++ buf)
  else if k = 1 then
    buf ++ 0x65 :: appendExponent (n - 1)
  else
    buf.take 1 ++ 0x2E :: (buf.drop 1 ++ 0x65 :: appendExponent (n - 1))

namespace DoubleFormat

variable {F : Type} (fmt : DoubleFormat F)

def buffer (value : F) : Bytes := (fmt.grisu2 value).1.map fun d => digitByte d.val

def toChars (value : F) : Bytes :=
  let sign : Bytes := if fmt.signbit value then [0x2D] else []
  if fmt.isZero value then sign ++ [0x30, 0x2E, 0x30]
  else sign ++ formatBuffer (fmt.buffer value) (fmt.grisu2 value).2 (-4) 15

def dumpFloat (value : F) : Bytes :=
  if fmt.isfinite value then fmt.toChars value else ascii "null"

/-- Distinct finite numbers have distinct tokens, in which no comma and no closing
brace occurs. -/
structure DistinctTokens : Prop where
  injective : ∀ x y, fmt.isfinite x = true → fmt.isfinite y = true →
    fmt.toChars x = fmt.toChars y → x = y
  separatorFree : ∀ x, fmt.isfinite x = true → 0x2C ∉ fmt.toChars x ∧ 0x7D ∉ fmt.toChars x

/-- The documented contract of Grisu2: a nonempty buffer without a leading zero, an
exponent that `append_exponent` accepts, and a text that `strtod` reads back as the
number. -/
structure RoundTrips : Prop where
  leading : ∀ x, fmt.isfinite x = true → fmt.isZero x = false →
    ∃ d ds, (fmt.grisu2 x).1 = d :: ds ∧ d ≠ 0
  exponent : ∀ x, fmt.isfinite x = true → fmt.isZero x = false →
    ((fmt.grisu2 x).1.length + (fmt.grisu2 x).2 - 1).natAbs < 1000
  strtod_toChars : ∀ x, fmt.isfinite x = true → fmt.strtod (fmt.toChars x) = x

end DoubleFormat

/-- Three values of the type `double`. -/
inductive SampleDouble where
  | ten
  | hundredth
  | nan
deriving DecidableEq, Repr

def SampleDouble.format : DoubleFormat SampleDouble where
  isfinite x := decide (x ≠ .nan)
  signbit _ := false
  isZero _ := false
  grisu2
    | .ten => ([1], 1)
    | .hundredth => ([1], -2)
    | .nan => ([], 0)
  strtod text :=
    if text = ascii "10.0" then .ten else if text = ascii "0.01" then .hundredth else .nan

theorem SampleDouble.distinctTokens : SampleDouble.format.DistinctTokens where
  injective x y := by cases x <;> cases y <;> decide
  separatorFree x := by cases x <;> decide

theorem SampleDouble.roundTrips : SampleDouble.format.RoundTrips where
  leading x hfinite _ := by
    cases x with
    | ten | hundredth => exact ⟨1, [], rfl, by decide⟩
    | nan => cases hfinite
  exponent x := by cases x <;> decide
  strtod_toChars x := by cases x <;> decide

end ExchangeClient
