import ExchangeClient.Lib.Bytes

/-!
# Hexadecimal text

Two digits for each byte, the high one first, in lower case. The decoder reads either
case. Encoding and decoding undo each other, where the text is in lower case and has
an even length.
-/

namespace ExchangeClient.Hex

def digit (n : Nat) : UInt8 := UInt8.ofNat (if n < 10 then 0x30 + n else 0x57 + n)

def encode (data : Bytes) : Bytes :=
  data.flatMap fun b => [digit (b.toNat / 16), digit (b.toNat % 16)]

@[simp] theorem encode_nil : encode [] = [] := rfl

theorem encode_append (left right : Bytes) : encode (left ++ right) = encode left ++ encode right :=
  List.flatMap_append

@[simp] theorem length_encode (data : Bytes) : (encode data).length = 2 * data.length := by
  induction data with
  | nil => rfl
  | cons b data ih =>
      rw [encode] at ih
      rw [encode, List.flatMap_cons, List.length_append, ih, List.length_cons]
      simp only [List.length_cons, List.length_nil]
      omega

/-- `c` is one of the characters of lower-case hexadecimal text. -/
def IsDigit (c : UInt8) : Prop := (0x30 ≤ c ∧ c ≤ 0x39) ∨ (0x61 ≤ c ∧ c ≤ 0x66)

instance (c : UInt8) : Decidable (IsDigit c) := by unfold IsDigit; infer_instance

theorem isDigit_digit : ∀ {n : Nat}, n < 16 → IsDigit (digit n) := by decide

theorem isDigit_of_mem_encode {data : Bytes} {c : UInt8} (hc : c ∈ encode data) : IsDigit c := by
  obtain ⟨b, -, hb⟩ := List.mem_flatMap.mp hc
  have hlt := b.toNat_lt
  rcases List.mem_cons.mp hb with rfl | hb
  · exact isDigit_digit (by omega)
  · rw [List.mem_singleton.mp hb]
    exact isDigit_digit (by omega)

/-! ### Decoding -/

def value (c : UInt8) : Option Nat :=
  if 0x30 ≤ c ∧ c ≤ 0x39 then some (c.toNat - 0x30)
  else if 0x61 ≤ c ∧ c ≤ 0x66 then some (c.toNat - 0x57)
  else if 0x41 ≤ c ∧ c ≤ 0x46 then some (c.toNat - 0x37)
  else none

def decode : Bytes → Option Bytes
  | [] => some []
  | [_] => none
  | high :: low :: rest => do
      let high ← value high
      let low ← value low
      return UInt8.ofNat (16 * high + low) :: (← decode rest)

theorem value_digit : ∀ {n : Nat}, n < 16 → value (digit n) = some n := by decide

/-- A lower-case digit is the digit of its value. -/
theorem value_of_isDigit {c : UInt8} (h : IsDigit c) :
    ∃ n < 16, value c = some n ∧ digit n = c := by
  revert h
  exact forall_uint8 (P := fun c => IsDigit c → ∃ n < 16, value c = some n ∧ digit n = c)
    (by decide +kernel) c

theorem decode_cons {high low : UInt8} {h l : Nat} (hhigh : value high = some h)
    (hlow : value low = some l) (rest : Bytes) :
    decode (high :: low :: rest) = (decode rest).map (UInt8.ofNat (16 * h + l) :: ·) := by
  rw [decode, hhigh, hlow]
  cases decode rest <;> rfl

theorem decode_encode (data : Bytes) : decode (encode data) = some data := by
  induction data with
  | nil => rfl
  | cons b data ih =>
      have hlt := b.toNat_lt
      have hsum : 16 * (b.toNat / 16) + b.toNat % 16 = b.toNat := Nat.div_add_mod b.toNat 16
      have htext : encode (b :: data) =
          digit (b.toNat / 16) :: digit (b.toNat % 16) :: encode data := rfl
      rw [htext, decode_cons (value_digit (by omega)) (value_digit (by omega)), ih, hsum,
        UInt8.ofNat_toNat]
      rfl

theorem encode_injective : Function.Injective encode := by
  intro data data' h
  have hdecode := decode_encode data
  rw [h, decode_encode] at hdecode
  exact (Option.some.inj hdecode).symm

theorem encode_cons_ofNat {high low : Nat} (hhigh : high < 16) (hlow : low < 16) (data : Bytes) :
    encode (UInt8.ofNat (16 * high + low) :: data) = digit high :: digit low :: encode data := by
  have hbyte : (UInt8.ofNat (16 * high + low)).toNat = 16 * high + low :=
    UInt8.toNat_ofNat_of_lt (by rw [UInt8.size]; omega)
  have hdiv : (16 * high + low) / 16 = high := by omega
  have hmod : (16 * high + low) % 16 = low := by omega
  change digit _ :: digit _ :: encode data = _
  rw [hbyte, hdiv, hmod]

/-- Lower-case text of even length is the text of the bytes it is decoded to. -/
theorem encode_of_decode : ∀ {text : Bytes}, Even text.length → (∀ c ∈ text, IsDigit c) →
    ∃ data, decode text = some data ∧ encode data = text := by
  intro text
  induction text using decode.induct with
  | case1 =>
      intro _ _
      exact ⟨[], rfl, rfl⟩
  | case2 c =>
      intro heven _
      have hodd : ¬ Even 1 := by decide
      exact absurd heven hodd
  | case3 high low rest ih =>
      intro heven hdigits
      rw [List.forall_mem_cons, List.forall_mem_cons] at hdigits
      obtain ⟨hhigh, hlow, hrest⟩ := hdigits
      obtain ⟨h, hh, hvalue, hdigit⟩ := value_of_isDigit hhigh
      obtain ⟨l, hl, hvalue', hdigit'⟩ := value_of_isDigit hlow
      have hrestEven : Even rest.length := by
        rw [List.length_cons, List.length_cons] at heven
        simpa [Nat.even_add_one] using heven
      obtain ⟨data, hdecode, hencode⟩ := ih hrestEven hrest
      refine ⟨UInt8.ofNat (16 * h + l) :: data, ?_, ?_⟩
      · rw [decode_cons hvalue hvalue', hdecode]
        rfl
      · rw [encode_cons_ofNat hh hl, hdigit, hdigit', hencode]

end ExchangeClient.Hex
