import Mathlib.Data.Nat.Digits.Lemmas
import ExchangeClient.Lib.Splitting

/-!
# Byte strings and decimal numerals

A `std::string` is a list of bytes, with no restriction on the bytes: the zero
byte and bytes outside ASCII are ordinary elements. The second half fixes the
decimal numeral of an integer, the text `operator<<` and `std::to_string` write
for it in the "C" locale, and reads it back.
-/

namespace ExchangeClient

/-- The contents of a `std::string`. -/
abbrev Bytes := List UInt8

/-- A string literal, whose characters are ASCII. -/
def ascii (text : String) : Bytes := text.toList.map fun c => UInt8.ofNat c.toNat

/-- The bytes before the first zero, which is all that `c_str()` shows to a function
that takes a C string. -/
def cStr (s : Bytes) : Bytes := s.takeWhile fun b => b ≠ 0

/-- A statement about every byte, checked on the numbers below 256. -/
theorem forall_uint8 {P : UInt8 → Prop} (h : ∀ n, n < 256 → P (UInt8.ofNat n)) (b : UInt8) :
    P b := by
  have hb := h b.toNat b.toNat_lt
  rwa [UInt8.ofNat_toNat] at hb

namespace Decimal

open Splitting

def isDigit (b : UInt8) : Bool := decide (0x30 ≤ b) && decide (b ≤ 0x39)

def digitByte (d : Nat) : UInt8 := UInt8.ofNat (0x30 + d)

def digitValue (b : UInt8) : Nat := b.toNat - 0x30

theorem digitValue_digitByte : ∀ {d : Nat}, d < 10 → digitValue (digitByte d) = d := by
  decide

theorem isDigit_digitByte : ∀ {d : Nat}, d < 10 → isDigit (digitByte d) = true := by
  decide

/-- The numeral of a natural number, most significant digit first. -/
def decimalNat (n : Nat) : Bytes :=
  if n = 0 then [digitByte 0] else (Nat.digits 10 n).reverse.map digitByte

/-- The numeral of an integer: a minus sign before the digits of a negative one. -/
def decimal (i : Int) : Bytes :=
  if i < 0 then 0x2D :: decimalNat i.natAbs else decimalNat i.natAbs

def natOfDecimal (digits : Bytes) : Nat :=
  digits.foldl (fun acc b => acc * 10 + digitValue b) 0

theorem natOfDecimal_reverse_map {ds : List Nat} (hds : ∀ d ∈ ds, d < 10) :
    natOfDecimal (ds.reverse.map digitByte) = Nat.ofDigits 10 ds := by
  induction ds with
  | nil => rfl
  | cons d ds ih =>
      have hd : d < 10 := hds d (by simp)
      have htail := ih (fun e he => hds e (by simp [he]))
      simp only [natOfDecimal] at htail ⊢
      simp only [List.reverse_cons, List.map_append, List.map_cons, List.map_nil,
        List.foldl_append, List.foldl_cons, List.foldl_nil, htail,
        digitValue_digitByte hd, Nat.ofDigits_cons]
      omega

@[simp] theorem natOfDecimal_decimalNat (n : Nat) : natOfDecimal (decimalNat n) = n := by
  unfold decimalNat
  split
  · next h => subst h; decide
  · rw [natOfDecimal_reverse_map fun d hd => Nat.digits_lt_base (by decide) hd,
      Nat.ofDigits_digits]

theorem decimalNat_injective : Function.Injective decimalNat := by
  intro m n h
  have := congrArg natOfDecimal h
  simpa using this

theorem isDigit_of_mem_decimalNat {n : Nat} {b : UInt8} (hb : b ∈ decimalNat n) :
    isDigit b = true := by
  unfold decimalNat at hb
  split at hb
  · rw [List.mem_singleton.mp hb]; decide
  · obtain ⟨d, hd, rfl⟩ := List.mem_map.mp hb
    exact isDigit_digitByte (Nat.digits_lt_base (by decide) (List.mem_reverse.mp hd))

theorem decimalNat_head (n : Nat) :
    decimalNat n = [0x30] ∨
      ∃ b digits, decimalNat n = b :: digits ∧ isDigit b = true ∧ b ≠ 0x30 := by
  by_cases hn : n = 0
  · exact Or.inl (by simp [decimalNat, hn, digitByte])
  · right
    have hne : Nat.digits 10 n ≠ [] := Nat.digits_ne_nil_iff_ne_zero.mpr hn
    have hlast := Nat.getLast_digit_ne_zero 10 hn
    have hlt : (Nat.digits 10 n).getLast hne < 10 :=
      Nat.digits_lt_base (by decide) (List.getLast_mem hne)
    refine ⟨digitByte ((Nat.digits 10 n).getLast hne),
      ((Nat.digits 10 n).dropLast.reverse.map digitByte), ?_, isDigit_digitByte hlt, ?_⟩
    · simp only [decimalNat, if_neg hn]
      conv_lhs => rw [← List.dropLast_append_getLast hne]
      simp
    · intro hzero
      have := congrArg digitValue hzero
      rw [digitValue_digitByte hlt] at this
      exact hlast this

theorem mem_decimal {i : Int} {b : UInt8} (hb : b ∈ decimal i) :
    b = 0x2D ∨ isDigit b = true := by
  unfold decimal at hb
  split at hb
  · rcases List.mem_cons.mp hb with rfl | hb
    · exact Or.inl rfl
    · exact Or.inr (isDigit_of_mem_decimalNat hb)
  · exact Or.inr (isDigit_of_mem_decimalNat hb)

theorem minus_notMem_decimalNat (n : Nat) : (0x2D : UInt8) ∉ decimalNat n := by
  intro h
  exact absurd (isDigit_of_mem_decimalNat h) (by decide)

theorem decimal_ne_nil (i : Int) : decimal i ≠ [] := by
  unfold decimal
  split
  · simp
  · rcases decimalNat_head i.natAbs with h | ⟨b, digits, h, -⟩ <;> simp [h]

theorem decimal_injective : Function.Injective decimal := by
  intro i j h
  unfold decimal at h
  split at h <;> split at h
  · have := decimalNat_injective (List.cons.inj h).2
    omega
  · exact absurd (by rw [← h]; simp) (minus_notMem_decimalNat j.natAbs)
  · exact absurd (by rw [h]; simp) (minus_notMem_decimalNat i.natAbs)
  · have := decimalNat_injective h
    omega

/-- A numeral followed by something that is neither a digit nor a minus sign can
be cut off again. -/
theorem decimal_append_inj {i j : Int} {rest rest' : Bytes}
    (hrest : StopsAt (fun b => b = 0x2D ∨ isDigit b = true) rest)
    (hrest' : StopsAt (fun b => b = 0x2D ∨ isDigit b = true) rest')
    (heq : decimal i ++ rest = decimal j ++ rest') : i = j ∧ rest = rest' := by
  obtain ⟨hnum, hr⟩ := append_inj_of_stopsAt (fun _ h => mem_decimal h)
    (fun _ h => mem_decimal h) hrest hrest' heq
  exact ⟨decimal_injective hnum, hr⟩

end Decimal

end ExchangeClient
