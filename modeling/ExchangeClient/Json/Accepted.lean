import ExchangeClient.Json.RoundTrip

/-!
# What is accepted is well formed

Whatever the text is, a value that `json::parse` returns has strings of UTF-8, integers of
64 bits, finite numbers and objects in key order. The invariant of the loop is that the
token in hand and every container that is still open are well formed.
-/

namespace ExchangeClient

open Lexer

variable {F : Type}

/-! ### Strings -/

section Octets

variable {c : Nat}

theorem and_63 (n : Nat) : n &&& 0x3F = n % 64 := Nat.and_two_pow_sub_one_eq_mod n 6

theorem advance_continuation (n : Nat) (ranges : List Utf8.Range) :
    Utf8.advance ((0x80, 0xBF) :: ranges) (UInt8.ofNat (0x80 ||| (n &&& 0x3F))) = some ranges := by
  have hall : ∀ m, m < 64 → Utf8.Range.Holds (0x80, 0xBF) (UInt8.ofNat (0x80 ||| m)) := by decide
  exact if_pos (hall _ (Nat.lt_succ_of_le Nat.and_le_right))

/-- One continuation byte completes the character. -/
theorem scan_last {lead : Bytes} (h : Utf8.scan [] lead = some [(0x80, 0xBF)]) (n : Nat) :
    Utf8.scan [] (lead ++ [UInt8.ofNat (0x80 ||| (n &&& 0x3F))]) = some [] := by
  rw [Utf8.scan_append, h, Option.bind_some, Utf8.scan_cons, advance_continuation]
  rfl

theorem scan_twoOctets (hlow : 0x80 ≤ c) (hhigh : c ≤ 0x7FF) :
    Utf8.scan [] [UInt8.ofNat (0xC0 ||| (c >>> 6)), UInt8.ofNat (0x80 ||| (c &&& 0x3F))] =
      some [] := by
  have hall : ∀ n : Fin 32, 2 ≤ n.val →
      Utf8.scan [] [UInt8.ofNat (0xC0 ||| n.val)] = some [(0x80, 0xBF)] := by decide
  have hlead := hall ⟨c >>> 6, by rw [Nat.shiftRight_eq_div_pow]; omega⟩
    (by simp only [Nat.shiftRight_eq_div_pow]; omega)
  exact scan_last hlead c

theorem scan_threeOctets (hlow : 0x7FF < c) (hhigh : c ≤ 0xFFFF)
    (hsurrogate : c < 0xD800 ∨ 0xDFFF < c) :
    Utf8.scan [] [UInt8.ofNat (0xE0 ||| (c >>> 12)), UInt8.ofNat (0x80 ||| ((c >>> 6) &&& 0x3F)),
      UInt8.ofNat (0x80 ||| (c &&& 0x3F))] = some [] := by
  -- the second octet is restricted behind `E0` and `ED`
  have hall : ∀ (n : Fin 16) (m : Fin 64), (n.val ≠ 0 ∨ 32 ≤ m.val) → (n.val ≠ 13 ∨ m.val < 32) →
      Utf8.scan [] [UInt8.ofNat (0xE0 ||| n.val), UInt8.ofNat (0x80 ||| m.val)] =
        some [(0x80, 0xBF)] := by
    decide +kernel
  have hlead := hall ⟨c >>> 12, by rw [Nat.shiftRight_eq_div_pow]; omega⟩
    ⟨(c >>> 6) &&& 0x3F, Nat.lt_succ_of_le Nat.and_le_right⟩
    (by simp only [and_63, Nat.shiftRight_eq_div_pow]; omega)
    (by simp only [and_63, Nat.shiftRight_eq_div_pow]; omega)
  exact scan_last hlead c

theorem scan_fourOctets (hlow : 0xFFFF < c) (hhigh : c < 0x110000) :
    Utf8.scan [] [UInt8.ofNat (0xF0 ||| (c >>> 18)), UInt8.ofNat (0x80 ||| ((c >>> 12) &&& 0x3F)),
      UInt8.ofNat (0x80 ||| ((c >>> 6) &&& 0x3F)), UInt8.ofNat (0x80 ||| (c &&& 0x3F))] =
        some [] := by
  -- the second octet is restricted behind `F0` and `F4`
  have hall : ∀ (n : Fin 5) (m : Fin 64), (n.val ≠ 0 ∨ 16 ≤ m.val) → (n.val ≠ 4 ∨ m.val < 16) →
      Utf8.scan [] [UInt8.ofNat (0xF0 ||| n.val), UInt8.ofNat (0x80 ||| m.val)] =
        some [(0x80, 0xBF), (0x80, 0xBF)] := by
    decide +kernel
  have hlead := hall ⟨c >>> 18, by rw [Nat.shiftRight_eq_div_pow]; omega⟩
    ⟨(c >>> 12) &&& 0x3F, Nat.lt_succ_of_le Nat.and_le_right⟩
    (by simp only [and_63, Nat.shiftRight_eq_div_pow]; omega)
    (by simp only [and_63, Nat.shiftRight_eq_div_pow]; omega)
  have hthird : Utf8.scan [] ([UInt8.ofNat (0xF0 ||| (c >>> 18)),
      UInt8.ofNat (0x80 ||| ((c >>> 12) &&& 0x3F))] ++
      [UInt8.ofNat (0x80 ||| ((c >>> 6) &&& 0x3F))]) = some [(0x80, 0xBF)] := by
    rw [Utf8.scan_append, hlead, Option.bind_some, Utf8.scan_cons, advance_continuation]
    rfl
  exact scan_last hthird c

/-- The octets of a code point are a character, unless it is a surrogate. -/
theorem valid_encodeCodepoint (hc : c < 0x110000) (hsurrogate : c < 0xD800 ∨ 0xDFFF < c) :
    Utf8.Valid (encodeCodepoint c) := by
  rw [← Utf8.scan_eq_nil_iff]
  unfold encodeCodepoint
  by_cases hone : c < 0x80
  · have hall : ∀ n, n < 0x80 → Utf8.scan [] [UInt8.ofNat n] = some [] := by decide
    rw [if_pos hone]
    exact hall c hone
  · rw [if_neg hone]
    by_cases htwo : c ≤ 0x7FF
    · rw [if_pos htwo]
      exact scan_twoOctets (Nat.le_of_not_lt hone) htwo
    · rw [if_neg htwo]
      by_cases hthree : c ≤ 0xFFFF
      · rw [if_pos hthree]
        exact scan_threeOctets (Nat.lt_of_not_le htwo) hthree hsurrogate
      · rw [if_neg hthree]
        exact scan_fourOctets (Nat.lt_of_not_le hthree) hc

end Octets

theorem hexValue_lt {c : UInt8} {value : Nat} (h : hexValue c = some value) : value < 16 := by
  have hall : ∀ c : UInt8, (hexValue c).all (· < 16) = true := forall_uint8 (by decide +kernel)
  have hvalue := hall c
  rw [h, Option.all_some] at hvalue
  exact of_decide_eq_true hvalue

theorem getCodepointLoop_le {factors : List Nat} : ∀ {start codepoint : Nat} {input rest : Bytes},
    getCodepointLoop factors start input = some (codepoint, rest) →
    codepoint ≤ start + (factors.map (15 <<< ·)).sum := by
  induction factors with
  | nil =>
      intro start codepoint input rest h
      obtain ⟨rfl, -⟩ := Prod.mk.inj (Option.some.inj h)
      exact Nat.le_refl _
  | cons factor factors ih =>
      intro start codepoint input rest h
      cases input with
      | nil => cases h
      | cons c input =>
          simp only [getCodepointLoop] at h
          split at h
          · next value hvalue =>
              have hdigit : value <<< factor ≤ 15 <<< factor := by
                rw [Nat.shiftLeft_eq, Nat.shiftLeft_eq]
                exact Nat.mul_le_mul_right _ (Nat.le_of_lt_succ (hexValue_lt hvalue))
              have hrest := ih h
              rw [List.map_cons, List.sum_cons]
              omega
          · cases h

theorem getCodepoint_lt {input rest : Bytes} {codepoint : Nat}
    (h : getCodepoint input = some (codepoint, rest)) : codepoint < 0x10000 := by
  have hsum : 0 + ([12, 8, 4, 0].map (15 <<< ·)).sum = 0xFFFF := by
    simp [Nat.shiftLeft_eq]
  rw [getCodepoint] at h
  have hle := getCodepointLoop_le h
  rw [hsum] at hle
  exact Nat.lt_of_le_of_lt hle (by decide)

theorem scanUnicode_valid {input added rest : Bytes} (h : scanUnicode input = .ok (added, rest)) :
    Utf8.Valid added := by
  unfold scanUnicode at h
  split at h
  · cases h
  · next codepoint1 input1 hfirst =>
      split at h
      · next hhigh =>
          split at h
          · next input2 =>
              split at h
              · cases h
              · next codepoint2 input3 hsecond =>
                  split at h
                  · next hlow =>
                      obtain ⟨rfl, -⟩ := Prod.mk.inj (Except.ok.inj h)
                      -- a pair of surrogates makes a code point above all of them
                      apply valid_encodeCodepoint
                      · rw [Nat.shiftLeft_eq]
                        omega
                      · rw [Nat.shiftLeft_eq]
                        omega
                  · cases h
          · cases h
      · next hhigh =>
          split at h
          · cases h
          · next hlow =>
              cases h
              have hbound := getCodepoint_lt hfirst
              apply valid_encodeCodepoint
              · omega
              · omega

theorem scanEscape_valid {input added rest : Bytes} (h : scanEscape input = .ok (added, rest)) :
    Utf8.Valid added := by
  cases input with
  | nil => cases h
  | cons c input =>
      simp only [scanEscape] at h
      split at h
      · exact scanUnicode_valid h
      · split at h
        · next value hvalue =>
            cases h
            have hall : ∀ c : UInt8, (simpleEscape c).all (· ≤ 0x7F) = true :=
              forall_uint8 (by decide +kernel)
            have hascii := hall c
            rw [hvalue, Option.all_some] at hascii
            exact Utf8.valid_cons_ascii (of_decide_eq_true hascii) .nil
        · cases h

theorem nextByteInRange_holds {ranges : List Utf8.Range} : ∀ {input octets rest : Bytes},
    nextByteInRange ranges input = some (octets, rest) → List.Forall₂ Utf8.Range.Holds ranges octets := by
  induction ranges with
  | nil =>
      intro input octets rest h
      obtain ⟨rfl, -⟩ := Prod.mk.inj (Option.some.inj h)
      exact .nil
  | cons r ranges ih =>
      intro input octets rest h
      cases input with
      | nil => cases h
      | cons b input =>
          simp only [nextByteInRange] at h
          split at h
          · next hb =>
              obtain ⟨⟨tail, rest'⟩, htail, heq⟩ := Option.map_eq_some_iff.mp h
              obtain ⟨rfl, -⟩ := Prod.mk.inj heq
              exact .cons hb (ih htail)
          · cases h

theorem scanCharacter_valid {c : UInt8} {input added rest : Bytes}
    (h : scanCharacter c input = .ok (added, rest)) : Utf8.Valid added := by
  unfold scanCharacter at h
  split at h
  · exact scanEscape_valid h
  · split at h
    · cases h
    · split at h
      · cases h
      · next ranges hranges =>
          split at h
          · cases h
          · next octets rest' hoctets =>
              cases h
              have hchar : Utf8.Valid (c :: (octets ++ [])) :=
                .char hranges (nextByteInRange_holds hoctets) .nil
              rwa [List.append_nil] at hchar

/-- A string that has been read is UTF-8. -/
theorem scanString_valid {input value rest : Bytes} (h : scanString input = .ok (value, rest)) :
    Utf8.Valid value := by
  refine Loop.iterate_invariant scanStringBody_decreases (fun s => Utf8.Valid s.1)
    (fun result => ∀ value rest, result = .ok (value, rest) → Utf8.Valid value) ?_ ?_ .nil value rest h
  · rintro ⟨buffer, left⟩ s' hvalid hbody
    obtain ⟨c, input, added, rest, -, hchar, rfl⟩ := scanStringBody_inl hbody
    exact Utf8.Valid.append hvalid (scanCharacter_valid hchar)
  · rintro ⟨buffer, left⟩ result hvalid hbody value rest rfl
    obtain ⟨-, rfl⟩ := scanStringBody_inr hbody
    exact hvalid

/-! ### Tokens -/

/-- The value in a token is one that the library can hold. -/
def Token.WellFormed : Token F → Prop
  | .valueString value => Utf8.Valid value
  | .valueUnsigned value => value < 2 ^ 64
  | .valueInteger value => -2 ^ 63 ≤ value ∧ value < 2 ^ 64
  | _ => True

theorem wellFormed_convertNumber (fmt : DoubleFormat F) (type : NumberType) (buffer : Bytes) :
    (convertNumber fmt type buffer).WellFormed := by
  unfold convertNumber
  cases type with
  | unsigned =>
      simp only
      split
      · next hbound => exact hbound
      · exact trivial
  | integer =>
      simp only
      split
      · next hbound => exact ⟨hbound, by omega⟩
      · exact trivial
  | float => exact trivial

theorem wellFormed_scanNumber (fmt : DoubleFormat F) (c : UInt8) (input : Bytes) :
    (scanNumber fmt c input).1.WellFormed := by
  unfold scanNumber
  split
  · exact trivial
  · exact wellFormed_convertNumber fmt _ _

theorem wellFormed_stringToken (input : Bytes) :
    (stringToken (scanString input) : Token F × Bytes).1.WellFormed := by
  cases hscan : scanString input with
  | error message => exact trivial
  | ok result => exact scanString_valid hscan

theorem wellFormed_scanLiteral {letters : Bytes} {token : Token F} (h : token.WellFormed)
    (input : Bytes) : (scanLiteral letters token input).1.WellFormed := by
  unfold scanLiteral
  split
  · exact h
  · exact trivial

theorem wellFormed_ite {p : Prop} [Decidable p] {left right : Token F × Bytes}
    (hleft : left.1.WellFormed) (hright : right.1.WellFormed) :
    (if p then left else right).1.WellFormed := by
  split
  · exact hleft
  · exact hright

theorem wellFormed_scan (fmt : DoubleFormat F) (input : Bytes) :
    (scan fmt input).1.WellFormed := by
  rw [scan]
  cases input.dropWhile isWhitespace with
  | nil => exact trivial
  | cons c input =>
      rw [scanToken]
      repeat' apply wellFormed_ite
      all_goals first
        | exact trivial
        | exact wellFormed_scanLiteral (by exact trivial) _
        | exact wellFormed_stringToken _
        | exact wellFormed_scanNumber fmt c _

/-! ### Values -/

namespace Parser

variable {fmt : DoubleFormat F}

/-- A container that is open holds well-formed values. -/
def Frame.WellFormed (P : F → Prop) : Frame F → Prop
  | .inArray elements => (Json.array elements).WellFormed P
  | .inObject members key => (Json.object members).WellFormed P ∧ Utf8.Valid key

def State.WellFormed (P : F → Prop) : State F → Prop
  | .value stack lastToken _ => (∀ frame ∈ stack, frame.WellFormed P) ∧ lastToken.WellFormed
  | .evaluate stack parsed _ => (∀ frame ∈ stack, frame.WellFormed P) ∧ parsed.WellFormed P

variable {P : F → Prop}

theorem wellFormed_nextValue {stack : List (Frame F)} (h : ∀ frame ∈ stack, frame.WellFormed P)
    (input : Bytes) : (nextValue fmt stack input).WellFormed P :=
  ⟨h, wellFormed_scan fmt input⟩

theorem wellFormed_emptyObject : (Json.object [] : Json F).WellFormed P := by
  rw [Json.WellFormed]
  exact ⟨List.Pairwise.nil, trivial⟩

theorem wellFormed_assign {members : List (Bytes × Json F)} {key : Bytes} {v : Json F}
    (hmembers : (Json.object members).WellFormed P) (hkey : Utf8.Valid key)
    (hv : v.WellFormed P) : (Json.object (SortedMap.assign key v members)).WellFormed P := by
  rw [Json.WellFormed, Json.wellFormedMembers_iff] at hmembers ⊢
  refine ⟨SortedMap.sorted_assign hmembers.1, ?_⟩
  intro member hmember
  rcases SortedMap.mem_assign hmember with hold | ⟨hvalue, hnew | hold⟩
  · exact hmembers.2 member hold
  · rw [hvalue, hnew]
    exact ⟨hkey, hv⟩
  · obtain ⟨old, hmem, heq⟩ := List.mem_map.mp hold
    rw [hvalue, ← heq]
    exact ⟨(hmembers.2 old hmem).1, hv⟩

theorem wellFormed_concat {elements : List (Json F)} {v : Json F}
    (helements : (Json.array elements).WellFormed P) (hv : v.WellFormed P) :
    (Json.array (elements ++ [v])).WellFormed P := by
  rw [Json.WellFormed, Json.wellFormedElements_iff] at helements ⊢
  intro element hmem
  rcases List.mem_append.mp hmem with hold | hnew
  · exact helements element hold
  · rw [List.mem_singleton.mp hnew]
    exact hv

theorem wellFormed_parseKey {stack : List (Frame F)} {members : List (Bytes × Json F)}
    {input : Bytes} {s' : State F} (hstack : ∀ frame ∈ stack, frame.WellFormed P)
    (hmembers : (Json.object members).WellFormed P)
    (h : parseKey fmt stack members (scan fmt input) = .inl s') : s'.WellFormed P := by
  have hkey := wellFormed_scan fmt input
  unfold parseKey at h
  split at h
  · next key rest heq =>
      rw [heq] at hkey
      split at h
      · cases h
        have hframe : (Frame.inObject members key).WellFormed P := ⟨hmembers, hkey⟩
        exact wellFormed_nextValue (List.forall_mem_cons.mpr ⟨hframe, hstack⟩) _
      · cases h
  · cases h

theorem wellFormed_parseValue {stack : List (Frame F)} {rest : Bytes} {token : Token F}
    {s' : State F} (hstack : ∀ frame ∈ stack, frame.WellFormed fun x => fmt.isfinite x = true)
    (htoken : token.WellFormed) (h : parseValue fmt stack rest token = .inl s') :
    s'.WellFormed fun x => fmt.isfinite x = true := by
  cases token with
  | beginObject =>
      simp only [parseValue] at h
      split at h
      · cases h
        exact ⟨hstack, wellFormed_emptyObject⟩
      · exact wellFormed_parseKey hstack wellFormed_emptyObject h
  | beginArray =>
      have hempty : (Json.array [] : Json F).WellFormed fun x => fmt.isfinite x = true := by
        rw [Json.WellFormed]
        exact trivial
      have hnext := wellFormed_scan fmt rest
      simp only [parseValue] at h
      split at h
      · cases h
        exact ⟨hstack, hempty⟩
      · next token rest' _ heq =>
          rw [heq] at hnext
          cases h
          exact ⟨List.forall_mem_cons.mpr ⟨hempty, hstack⟩, hnext⟩
  | valueFloat value =>
      simp only [parseValue] at h
      split at h
      · next hfinite =>
          cases h
          refine ⟨hstack, ?_⟩
          rwa [Json.WellFormed]
      · cases h
  | valueString value =>
      cases h
      refine ⟨hstack, ?_⟩
      rw [Json.WellFormed]
      exact htoken
  | valueUnsigned value =>
      cases h
      have hbound : value < 2 ^ 64 := htoken
      refine ⟨hstack, ?_⟩
      rw [Json.WellFormed]
      omega
  | valueInteger value =>
      cases h
      refine ⟨hstack, ?_⟩
      rw [Json.WellFormed]
      exact htoken
  | literalTrue | literalFalse | literalNull =>
      cases h
      refine ⟨hstack, ?_⟩
      rw [Json.WellFormed]
      exact trivial
  | endArray | endObject | nameSeparator | valueSeparator | parseError _ | endOfInput => cases h

theorem wellFormed_evaluateState {stack : List (Frame F)} {parsed : Json F} {rest : Bytes}
    {s' : State F} (hstack : ∀ frame ∈ stack, frame.WellFormed P) (hparsed : parsed.WellFormed P)
    (h : evaluateState fmt stack parsed rest = .inl s') : s'.WellFormed P := by
  cases stack with
  | nil => cases h
  | cons frame stack =>
      have hframe := hstack frame List.mem_cons_self
      replace hstack := fun frame hmem => hstack frame (List.mem_cons_of_mem _ hmem)
      cases frame with
      | inArray elements =>
          have hmore : (Frame.inArray (elements ++ [parsed])).WellFormed P :=
            wellFormed_concat hframe hparsed
          simp only [evaluateState] at h
          split at h
          · cases h
            exact wellFormed_nextValue (List.forall_mem_cons.mpr ⟨hmore, hstack⟩) _
          · cases h
            exact ⟨hstack, hmore⟩
          · cases h
      | inObject members key =>
          have hmore := wellFormed_assign hframe.1 hframe.2 hparsed
          simp only [evaluateState] at h
          split at h
          · exact wellFormed_parseKey hstack hmore h
          · cases h
            exact ⟨hstack, hmore⟩
          · cases h

theorem wellFormed_of_saxParseInternal {input rest : Bytes} {v : Json F}
    (h : saxParseInternal fmt input = .ok (v, rest)) :
    v.WellFormed fun x => fmt.isfinite x = true := by
  have hstart : (nextValue fmt [] input).WellFormed fun x => fmt.isfinite x = true :=
    wellFormed_nextValue (List.forall_mem_nil _) input
  refine Loop.iterate_invariant (parserBody_decreases fmt)
    (fun s => s.WellFormed fun x => fmt.isfinite x = true)
    (fun result => ∀ v rest, result = .ok (v, rest) →
      v.WellFormed fun x => fmt.isfinite x = true) ?_ ?_ hstart v rest h
  · rintro (⟨stack, lastToken, left⟩ | ⟨stack, parsed, left⟩) s' ⟨hstack, hcurrent⟩ hbody
    · exact wellFormed_parseValue hstack hcurrent hbody
    · exact wellFormed_evaluateState hstack hcurrent hbody
  · rintro (⟨stack, lastToken, left⟩ | ⟨stack, parsed, left⟩) result ⟨hstack, hcurrent⟩ hbody v rest rfl
    · exact absurd hbody (parseValue_ne_ok fmt)
    · obtain ⟨-, hout⟩ := evaluateState_ok fmt hbody
      cases hout
      exact hcurrent

end Parser

namespace Json

variable {fmt : DoubleFormat F}

theorem wellFormed_of_parse {input : Bytes} {v : Json F} (h : parse fmt input = .ok v) :
    v.WellFormed fun x => fmt.isfinite x = true := by
  unfold parse at h
  split at h
  · cases h
  · split at h
    · cases h
    · next parsed rest hloop =>
        split at h
        · obtain rfl := Except.ok.inj h
          exact Parser.wellFormed_of_saxParseInternal hloop
        · cases h

mutual

/-- Finite numbers are written as they are. -/
theorem asWritten_of_finite :
    ∀ {v : Json F}, v.WellFormed (fun x => fmt.isfinite x = true) → v.asWritten fmt = v
  | .numberFloat value, hwf => by
      rw [WellFormed] at hwf
      rw [asWritten, if_pos hwf]
  | .array elements, hwf => by
      rw [WellFormed] at hwf
      rw [asWritten, asWrittenElements_of_finite hwf]
  | .object members, hwf => by
      rw [WellFormed] at hwf
      rw [asWritten, asWrittenMembers_of_finite hwf.2]
  | .null, _ | .boolean _, _ | .numberInteger _, _ | .string _, _ => by rw [asWritten]

theorem asWrittenElements_of_finite :
    ∀ {elements : List (Json F)}, WellFormedElements (fun x => fmt.isfinite x = true) elements →
      asWrittenElements fmt elements = elements
  | [], _ => rfl
  | element :: elements, hwf => by
      rw [WellFormedElements] at hwf
      rw [asWrittenElements, asWritten_of_finite hwf.1, asWrittenElements_of_finite hwf.2]

theorem asWrittenMembers_of_finite :
    ∀ {members : List (Bytes × Json F)},
      WellFormedMembers (fun x => fmt.isfinite x = true) members →
      asWrittenMembers fmt members = members
  | [], _ => rfl
  | (key, value) :: members, hwf => by
      rw [WellFormedMembers] at hwf
      rw [asWrittenMembers, asWritten_of_finite hwf.2.1, asWrittenMembers_of_finite hwf.2.2]

end

/-- Whatever is accepted is well formed, and it can be written and is read back as the same
value: the text that is written is a normal form of the text that was read. -/
theorem parse_normalizes (h : fmt.RoundTrips) {input : Bytes} {v : Json F}
    (hparse : parse fmt input = .ok v) :
    v.WellFormed (fun x => fmt.isfinite x = true) ∧
      ∃ text, v.dump fmt = .ok text ∧ parse fmt text = .ok v := by
  have hv := wellFormed_of_parse hparse
  obtain ⟨text, hdump, hreads⟩ := dump_reads (fun x _ => reads_numberFloat h x) v hv
  rw [asWritten_of_finite hv] at hreads
  exact ⟨hv, text, hdump, hreads.parse⟩

theorem parse_normalizes_example :
    let v : Json SampleDouble := .object [(ascii "a", .numberInteger 2), (ascii "b", .boolean true)]
    v.WellFormed (fun x => SampleDouble.format.isfinite x = true) ∧
      ∃ text, v.dump SampleDouble.format = .ok text ∧ parse SampleDouble.format text = .ok v := by
  intro v
  have hparse : parse SampleDouble.format
      (ascii "\x7b \"b\":true, \"a\":1, \"a\" : 2\x7d") = .ok v := by rfl
  exact parse_normalizes SampleDouble.roundTrips hparse

end Json

end ExchangeClient
