import ExchangeClient.Json.Lexer

/-!
# Number tokens are read back as they were written

The machine of `scan_number` on the two kinds of text the writer produces: the
numeral of an integer, and the three layouts of `format_buffer`. A number in a
document is followed by a comma or a closing bracket, which ends it.
-/

namespace ExchangeClient

open Decimal Lexer

variable {F : Type}

/-- What stands behind a value: nothing, a comma or a closing bracket. -/
def Delimited (rest : Bytes) : Prop :=
  ∀ c ∈ rest.head?, c = 0x2C ∨ c = 0x5D ∨ c = 0x7D

theorem delimited_nil : Delimited [] := by simp [Delimited]

theorem delimited_cons {c : UInt8} (hc : c = 0x2C ∨ c = 0x5D ∨ c = 0x7D) (rest : Bytes) :
    Delimited (c :: rest) := by
  simpa [Delimited] using hc

def Digits (ds : Bytes) : Prop := ∀ c ∈ ds, isDigit c = true

theorem Digits.append {ds es : Bytes} (hds : Digits ds) (hes : Digits es) : Digits (ds ++ es) := by
  intro c hc
  rcases List.mem_append.mp hc with h | h
  · exact hds c h
  · exact hes c h

theorem digits_cons {c : UInt8} {ds : Bytes} : Digits (c :: ds) ↔ isDigit c = true ∧ Digits ds := by
  simp [Digits]

theorem digits_replicate_zero (n : Nat) : Digits (List.replicate n 0x30) := by
  intro c hc
  rw [(List.mem_replicate.mp hc).2]
  decide

/-! ### Steps of the machine -/

/-- More bytes in front of those that were added. -/
def prepend (ds : Bytes) (result : Bytes × NumberType × Bytes) : Bytes × NumberType × Bytes :=
  (ds ++ result.1, result.2)

theorem scanNumberFrom_step {state state' : NumberState} {c : UInt8} (type : NumberType)
    (input : Bytes) (h : state.next c = some state') :
    scanNumberFrom state type (c :: input) =
      (scanNumberFrom state' (state'.enter type) input).map (prepend [c]) := by
  simp only [scanNumberFrom, h]
  rcases scanNumberFrom state' (state'.enter type) input with _ | ⟨added, type', rest⟩ <;> rfl

theorem scanNumberFrom_delimited {state : NumberState} (type : NumberType) {rest : Bytes}
    (hstate : state.error = none) (hrest : Delimited rest) :
    scanNumberFrom state type rest = .ok ([], type, rest) := by
  cases rest with
  | nil => simp only [scanNumberFrom, numberDone, hstate]
  | cons c rest =>
      have hnext : state.next c = none := by
        have hc : c = 0x2C ∨ c = 0x5D ∨ c = 0x7D := hrest c rfl
        rcases hc with rfl | rfl | rfl <;> cases state <;> rfl
      simp only [scanNumberFrom, hnext, numberDone, hstate]

def Lexer.NumberState.Loops (state : NumberState) : Prop :=
  state = .any1 ∨ state = .decimal2 ∨ state = .any2

theorem Lexer.NumberState.Loops.next {state : NumberState} (h : state.Loops) {c : UInt8}
    (hc : isDigit c = true) : state.next c = some state := by
  rcases h with rfl | rfl | rfl <;> simp [NumberState.next, hc]

theorem scanNumberFrom_digits {state : NumberState} (hloop : state.Loops) (type : NumberType)
    (more : Bytes) : ∀ {ds : Bytes}, Digits ds →
      scanNumberFrom state type (ds ++ more) =
        (scanNumberFrom state type more).map (prepend ds) := by
  intro ds
  induction ds with
  | nil =>
      intro _
      rcases h : scanNumberFrom state type more with _ | ⟨added, type', rest⟩
      · rw [List.nil_append, h]; rfl
      · rw [List.nil_append, h]; rfl
  | cons c ds ih =>
      intro hds
      obtain ⟨hc, hds⟩ := digits_cons.mp hds
      have henter : state.enter type = type := by rcases hloop with rfl | rfl | rfl <;> rfl
      rw [List.cons_append, scanNumberFrom_step type (ds ++ more) (hloop.next hc), henter, ih hds]
      rcases scanNumberFrom state type more with _ | ⟨added, type', rest⟩ <;> rfl

/-! ### Integers -/

def afterDigit (c : UInt8) : NumberState := if c = 0x30 then .zero else .any1

theorem numberStart_digit {c : UInt8} (hc : isDigit c = true) : numberStart c = afterDigit c := by
  have hne : c ≠ 0x2D := by rintro rfl; exact absurd hc (by decide)
  simp only [numberStart, afterDigit, if_neg hne]

theorem minus_next {c : UInt8} (hc : isDigit c = true) :
    NumberState.minus.next c = some (afterDigit c) := by
  unfold afterDigit
  by_cases h : c = 0x30
  · simp [NumberState.next, h]
  · simp [NumberState.next, h, hc]

/-- The machine reads the rest of a numeral after its first digit. -/
theorem scanNumberFrom_decimalNat (n : Nat) :
    ∃ c ds, decimalNat n = c :: ds ∧ isDigit c = true ∧
      ∀ (type : NumberType) {rest : Bytes}, Delimited rest →
        scanNumberFrom (afterDigit c) type (ds ++ rest) = .ok (ds, type, rest) := by
  rcases decimalNat_head n with h | ⟨c, ds, h, hc, hne⟩
  · exact ⟨0x30, [], h, by decide, fun type rest hrest => scanNumberFrom_delimited type rfl hrest⟩
  · have hds : Digits ds := fun d hd => isDigit_of_mem_decimalNat (n := n) (by rw [h]; simp [hd])
    refine ⟨c, ds, h, hc, fun type rest hrest => ?_⟩
    rw [afterDigit, if_neg hne, scanNumberFrom_digits (Or.inl rfl) type rest hds,
      scanNumberFrom_delimited type rfl hrest]
    simp [Except.map, prepend]

theorem scanNumber_decimalNat (fmt : DoubleFormat F) {n : Nat} (hn : n < 2 ^ 64) {rest : Bytes}
    (hrest : Delimited rest) :
    ∃ c ds, decimalNat n ++ rest = c :: ds ∧ isDigit c = true ∧
      scanNumber fmt c ds = (.valueUnsigned n, rest) := by
  obtain ⟨c, ds, hdecimal, hc, hscan⟩ := scanNumberFrom_decimalNat n
  refine ⟨c, ds ++ rest, by rw [hdecimal, List.cons_append], hc, ?_⟩
  have henter : (afterDigit c).enter .unsigned = .unsigned := by
    unfold afterDigit; split <;> rfl
  simp only [scanNumber, numberStart_digit hc, henter, hscan .unsigned hrest, convertNumber,
    ← hdecimal, natOfDecimal_decimalNat, if_pos hn]

theorem scanNumber_negative (fmt : DoubleFormat F) {n : Nat} (hn : n ≤ 2 ^ 63) {rest : Bytes}
    (hrest : Delimited rest) :
    scanNumber fmt 0x2D (decimalNat n ++ rest) = (.valueInteger (-n), rest) := by
  obtain ⟨c, ds, hdecimal, hc, hscan⟩ := scanNumberFrom_decimalNat n
  have henter : (afterDigit c).enter .integer = .integer := by
    unfold afterDigit; split <;> rfl
  have hstart : numberStart 0x2D = .minus := rfl
  have hbound : (-2 ^ 63 : Int) ≤ -(n : Int) := by omega
  rw [scanNumber, hstart, hdecimal, List.cons_append, scanNumberFrom_step _ _ (minus_next hc),
    show NumberState.minus.enter .unsigned = .integer from rfl, henter, hscan .integer hrest]
  simp only [Except.map, prepend, convertNumber, List.cons_append, List.nil_append, List.tail_cons]
  simp only [← hdecimal, natOfDecimal_decimalNat, if_pos hbound]

/-! ### Doubles -/

/-- `tail` finishes a floating-point number that started with the digit `c`. -/
def FloatTail (c : UInt8) (tail : Bytes) : Prop :=
  isDigit c = true ∧ ∀ (type : NumberType) {rest : Bytes}, Delimited rest →
    scanNumberFrom (afterDigit c) type (tail ++ rest) = .ok (tail, .float, rest)

theorem scanNumberFrom_fraction {ds : Bytes} (hds : Digits ds) (hne : ds ≠ []) (more : Bytes) :
    scanNumberFrom .decimal1 .float (ds ++ more) =
      (scanNumberFrom .decimal2 .float more).map (prepend ds) := by
  cases ds with
  | nil => exact absurd rfl hne
  | cons c ds =>
      obtain ⟨hc, hds⟩ := digits_cons.mp hds
      have hnext : NumberState.decimal1.next c = some .decimal2 := by
        simp [NumberState.next, hc]
      rw [List.cons_append, scanNumberFrom_step _ _ hnext,
        show NumberState.decimal2.enter .float = .float from rfl,
        scanNumberFrom_digits (Or.inr (Or.inl rfl)) .float more hds]
      rcases scanNumberFrom .decimal2 .float more with _ | ⟨added, type', rest⟩ <;> rfl

theorem isDigit_digitByte_mod (k : Nat) : isDigit (digitByte (k % 10)) = true :=
  isDigit_digitByte (Nat.mod_lt _ (by decide))

theorem appendExponent_shape {e : Int} (he : e.natAbs < 1000) :
    ∃ s d ds, appendExponent e = s :: d :: ds ∧ (s = 0x2B ∨ s = 0x2D) ∧
      isDigit d = true ∧ Digits ds := by
  have hsign : (if e < 0 then (0x2D : UInt8) else 0x2B) = 0x2B ∨
      (if e < 0 then (0x2D : UInt8) else 0x2B) = 0x2D := by
    split
    · exact Or.inr rfl
    · exact Or.inl rfl
  unfold appendExponent
  by_cases hten : e.natAbs < 10
  · exact ⟨_, 0x30, [digitByte e.natAbs], by simp only [if_pos hten], hsign, by decide,
      by simpa [Digits] using isDigit_digitByte hten⟩
  · by_cases hhundred : e.natAbs < 100
    · exact ⟨_, digitByte (e.natAbs / 10), [digitByte (e.natAbs % 10)],
        by simp only [if_neg hten, if_pos hhundred], hsign, isDigit_digitByte (by omega),
        by simpa [Digits] using isDigit_digitByte_mod e.natAbs⟩
    · exact ⟨_, digitByte (e.natAbs / 100),
        [digitByte (e.natAbs % 100 / 10), digitByte (e.natAbs % 100 % 10)],
        by simp only [if_neg hten, if_neg hhundred], hsign, isDigit_digitByte (by omega),
        by simpa [Digits] using
          ⟨isDigit_digitByte (by omega : e.natAbs % 100 / 10 < 10), isDigit_digitByte (by omega)⟩⟩

theorem scanNumberFrom_exponent {e : Int} (he : e.natAbs < 1000) (type : NumberType)
    {rest : Bytes} (hrest : Delimited rest) :
    scanNumberFrom .exponent type (appendExponent e ++ rest) =
      .ok (appendExponent e, type, rest) := by
  obtain ⟨s, d, ds, hshape, hs, hd, hds⟩ := appendExponent_shape he
  have hsign : NumberState.exponent.next s = some .sign := by
    rcases hs with rfl | rfl <;> decide
  have hdigit : NumberState.sign.next d = some .any2 := by simp [NumberState.next, hd]
  rw [hshape, List.cons_append, scanNumberFrom_step _ _ hsign, List.cons_append,
    scanNumberFrom_step _ _ hdigit, scanNumberFrom_digits (Or.inr (Or.inr rfl)) _ _ hds,
    scanNumberFrom_delimited _ rfl hrest]
  simp [Except.map, prepend, NumberState.enter]

theorem scanNumberFrom_point (state : NumberState) (type : NumberType)
    (hstate : state.next 0x2E = some .decimal1) (ds : Bytes) (hds : Digits ds)
    (hne : ds ≠ []) {rest : Bytes} (hrest : Delimited rest) :
    scanNumberFrom state type (0x2E :: (ds ++ rest)) = .ok (0x2E :: ds, .float, rest) := by
  rw [scanNumberFrom_step _ _ hstate]
  simp only [NumberState.enter]
  rw [scanNumberFrom_fraction hds hne, scanNumberFrom_delimited _ rfl hrest]
  simp [Except.map, prepend]

/-! The four shapes of `format_buffer`: `dig.its`, `0.digits`, `dE+123` and
`d.igitsE+123`. -/

theorem floatTail_digits {b : UInt8} {ds fs : Bytes} (hb : isDigit b = true) (hne : b ≠ 0x30)
    (hds : Digits ds) (hfs : Digits fs) (hnil : fs ≠ []) : FloatTail b (ds ++ 0x2E :: fs) := by
  refine ⟨hb, fun type rest hrest => ?_⟩
  have hafter : afterDigit b = .any1 := if_neg hne
  rw [hafter, List.append_assoc, scanNumberFrom_digits (Or.inl rfl) type _ hds, List.cons_append,
    scanNumberFrom_point .any1 type (by decide) fs hfs hnil hrest]
  rfl

theorem floatTail_zero {fs : Bytes} (hfs : Digits fs) (hnil : fs ≠ []) :
    FloatTail 0x30 (0x2E :: fs) := by
  refine ⟨by decide, fun type rest hrest => ?_⟩
  have hafter : afterDigit 0x30 = .zero := rfl
  rw [hafter, List.cons_append]
  exact scanNumberFrom_point .zero type (by decide) fs hfs hnil hrest

theorem floatTail_exponent {b : UInt8} (hb : isDigit b = true) (hne : b ≠ 0x30) {e : Int}
    (he : e.natAbs < 1000) : FloatTail b (0x65 :: appendExponent e) := by
  refine ⟨hb, fun type rest hrest => ?_⟩
  have hafter : afterDigit b = .any1 := if_neg hne
  have hnext : NumberState.any1.next 0x65 = some .exponent := by decide
  rw [hafter, List.cons_append, scanNumberFrom_step _ _ hnext, scanNumberFrom_exponent he _ hrest]
  rfl

theorem floatTail_fraction_exponent {b : UInt8} {ds : Bytes} (hb : isDigit b = true)
    (hne : b ≠ 0x30) (hds : Digits ds) (hnil : ds ≠ []) {e : Int} (he : e.natAbs < 1000) :
    FloatTail b (0x2E :: (ds ++ 0x65 :: appendExponent e)) := by
  refine ⟨hb, fun type rest hrest => ?_⟩
  have hafter : afterDigit b = .any1 := if_neg hne
  have hpoint : NumberState.any1.next 0x2E = some .decimal1 := by decide
  have hnext : NumberState.decimal2.next 0x65 = some .exponent := by decide
  rw [hafter, List.cons_append, scanNumberFrom_step _ _ hpoint, List.append_assoc]
  simp only [NumberState.enter]
  rw [scanNumberFrom_fraction hds hnil, List.cons_append, scanNumberFrom_step _ _ hnext,
    scanNumberFrom_exponent he _ hrest]
  rfl

theorem formatBuffer_floatTail {b : UInt8} {bs : Bytes} (hb : isDigit b = true) (hne : b ≠ 0x30)
    (hbs : Digits bs) {exp : Int} (hexp : (((b :: bs).length : Int) + exp - 1).natAbs < 1000) :
    ∃ c tail, formatBuffer (b :: bs) exp (-4) 15 = c :: tail ∧ FloatTail c tail := by
  unfold formatBuffer
  simp only
  split
  · -- digits[000].0
    refine ⟨b, bs ++ List.replicate _ 0x30 ++ [0x2E, 0x30], rfl, ?_⟩
    have hzero : Digits [0x30] := by simp [Digits, isDigit]
    exact floatTail_digits hb hne (hbs.append (digits_replicate_zero _)) hzero (by simp)
  · split
    · next hn hn' =>
      -- dig.its
      obtain ⟨m, hm⟩ : ∃ m : Nat, ((b :: bs).length + exp : Int).toNat = m + 1 :=
        ⟨((b :: bs).length + exp : Int).toNat - 1, by omega⟩
      have hlt : m < bs.length := by
        simp only [List.length_cons] at hn hn' hm
        omega
      rw [hm, List.take_succ_cons, List.drop_succ_cons]
      refine ⟨b, bs.take m ++ 0x2E :: bs.drop m, rfl, ?_⟩
      exact floatTail_digits hb hne (fun c hc => hbs c (List.mem_of_mem_take hc))
        (fun c hc => hbs c (List.mem_of_mem_drop hc)) (by simpa using hlt)
    · split
      · -- 0.[000]digits
        refine ⟨0x30, 0x2E :: (List.replicate _ 0x30 ++ b :: bs), rfl, ?_⟩
        exact floatTail_zero ((digits_replicate_zero _).append (digits_cons.mpr ⟨hb, hbs⟩)) (by simp)
      · split
        · next hk =>
          -- dE+123
          have hnil : bs = [] := by simpa using hk
          subst hnil
          exact ⟨b, 0x65 :: appendExponent _, rfl, floatTail_exponent hb hne hexp⟩
        · next hk =>
          -- d.igitsE+123
          have hnil : bs ≠ [] := by simpa using hk
          exact ⟨b, 0x2E :: (bs ++ 0x65 :: appendExponent _), rfl,
            floatTail_fraction_exponent hb hne hbs hnil hexp⟩

namespace DoubleFormat

variable {fmt : DoubleFormat F}

/-- The text of a finite number: an optional sign and a floating-point number. -/
theorem RoundTrips.toChars_shape (h : fmt.RoundTrips) {x : F} (hx : fmt.isfinite x = true) :
    ∃ c tail, FloatTail c tail ∧
      (fmt.toChars x = c :: tail ∨ fmt.toChars x = 0x2D :: c :: tail) := by
  obtain ⟨c, tail, htext, htail⟩ : ∃ c tail,
      (if fmt.isZero x then [0x30, 0x2E, 0x30]
        else formatBuffer (fmt.buffer x) (fmt.grisu2 x).2 (-4) 15) = c :: tail ∧
      FloatTail c tail := by
    by_cases hz : fmt.isZero x = true
    · rw [if_pos hz]
      have hzero : Digits [0x30] := by simp [Digits, isDigit]
      exact ⟨0x30, [0x2E, 0x30], rfl, floatTail_zero hzero (by simp)⟩
    · rw [if_neg hz]
      rw [Bool.not_eq_true] at hz
      obtain ⟨d, ds, hgrisu, hd⟩ := h.leading x hx hz
      have hbuffer : fmt.buffer x = digitByte d.val :: ds.map fun e => digitByte e.val := by
        simp [buffer, hgrisu]
      have hexp := h.exponent x hx hz
      have hlead : ∀ e : Fin 10, e ≠ 0 → digitByte e.val ≠ 0x30 := by decide
      rw [hbuffer]
      refine formatBuffer_floatTail (isDigit_digitByte d.isLt) (hlead d hd) ?_ ?_
      · intro c hc
        obtain ⟨e, -, rfl⟩ := List.mem_map.mp hc
        exact isDigit_digitByte e.isLt
      · rw [hgrisu] at hexp
        simpa using hexp
  refine ⟨c, tail, htail, ?_⟩
  rw [← htext]
  unfold toChars
  by_cases hs : fmt.signbit x = true <;> by_cases hz : fmt.isZero x = true <;> simp [hs, hz]

/-- `scan_number` on the text of a finite number. -/
theorem RoundTrips.scanNumber_toChars (h : fmt.RoundTrips) {x : F} (hx : fmt.isfinite x = true)
    {rest : Bytes} (hrest : Delimited rest) :
    ∃ c input, fmt.toChars x ++ rest = c :: input ∧ (c = 0x2D ∨ isDigit c = true) ∧
      scanNumber fmt c input = (.valueFloat x, rest) := by
  obtain ⟨c, tail, ⟨hc, hscan⟩, htext⟩ := h.toChars_shape hx
  rcases htext with htext | htext
  · refine ⟨c, tail ++ rest, by rw [htext, List.cons_append], Or.inr hc, ?_⟩
    rw [scanNumber, numberStart_digit hc, hscan _ hrest]
    simp only [convertNumber, ← htext, h.strtod_toChars x hx]
  · refine ⟨0x2D, c :: (tail ++ rest), by rw [htext]; rfl, Or.inl rfl, ?_⟩
    rw [scanNumber, show numberStart 0x2D = .minus from rfl,
      scanNumberFrom_step _ _ (minus_next hc), hscan _ hrest]
    simp only [Except.map, prepend, convertNumber, List.cons_append, List.nil_append, ← htext,
      h.strtod_toChars x hx]

end DoubleFormat

end ExchangeClient
