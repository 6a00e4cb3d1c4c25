import ExchangeClient.Json.Number

/-!
# Reading JSON: the scanner

`lexer::scan` and the functions under it, over the bytes that have not been read
yet. `scan_string` is a loop whose body reads one character of the literal;
`scan_number` is the state machine of the source with one constructor for each
label. A scanner error keeps the message of the source.
-/

namespace ExchangeClient

open Decimal

/-- The tokens, with the value the scanner keeps for them. -/
inductive Token (F : Type) where
  | literalTrue
  | literalFalse
  | literalNull
  | valueString (value : Bytes)
  | valueUnsigned (value : Nat)
  | valueInteger (value : Int)
  | valueFloat (value : F)
  | beginArray
  | beginObject
  | endArray
  | endObject
  | nameSeparator
  | valueSeparator
  | parseError (message : Bytes)
  | endOfInput

def Token.stops {F : Type} : Token F → Bool
  | .parseError _ | .endOfInput => true
  | _ => false

namespace Lexer

variable {F : Type}

/-! ### Strings -/

def hexValue (c : UInt8) : Option Nat :=
  if 0x30 ≤ c ∧ c ≤ 0x39 then some (c.toNat - 0x30)
  else if 0x41 ≤ c ∧ c ≤ 0x46 then some (c.toNat - 0x37)
  else if 0x61 ≤ c ∧ c ≤ 0x66 then some (c.toNat - 0x57)
  else none

/-- The loop of `get_codepoint` over the shift of each of the four digits. -/
def getCodepointLoop : List Nat → Nat → Bytes → Option (Nat × Bytes)
  | [], codepoint, input => some (codepoint, input)
  | _ :: _, _, [] => none
  | factor :: factors, codepoint, c :: input =>
      match hexValue c with
      | some value => getCodepointLoop factors (codepoint + (value <<< factor)) input
      | none => none

/-- `get_codepoint`, after `\u` has been read. -/
def getCodepoint (input : Bytes) : Option (Nat × Bytes) :=
  getCodepointLoop [12, 8, 4, 0] 0 input

/-- `next_byte_in_range`: the bytes that were added, and the rest. -/
def nextByteInRange : List Utf8.Range → Bytes → Option (Bytes × Bytes)
  | [], input => some ([], input)
  | _ :: _, [] => none
  | r :: ranges, b :: input =>
      if r.1 ≤ b ∧ b ≤ r.2 then
        (nextByteInRange ranges input).map fun (octets, rest) => (b :: octets, rest)
      else none

def encodeCodepoint (codepoint : Nat) : Bytes :=
  if codepoint < 0x80 then [UInt8.ofNat codepoint]
  else if codepoint ≤ 0x7FF then
    [UInt8.ofNat (0xC0 ||| (codepoint >>> 6)), UInt8.ofNat (0x80 ||| (codepoint &&& 0x3F))]
  else if codepoint ≤ 0xFFFF then
    [UInt8.ofNat (0xE0 ||| (codepoint >>> 12)),
      UInt8.ofNat (0x80 ||| ((codepoint >>> 6) &&& 0x3F)),
      UInt8.ofNat (0x80 ||| (codepoint &&& 0x3F))]
  else
    [UInt8.ofNat (0xF0 ||| (codepoint >>> 18)),
      UInt8.ofNat (0x80 ||| ((codepoint >>> 12) &&& 0x3F)),
      UInt8.ofNat (0x80 ||| ((codepoint >>> 6) &&& 0x3F)),
      UInt8.ofNat (0x80 ||| (codepoint &&& 0x3F))]

def missingQuote : Bytes := ascii "invalid string: missing closing quote"
def fourHexDigits : Bytes := ascii "invalid string: '\\u' must be followed by 4 hex digits"
def lowSurrogateExpected : Bytes :=
  ascii "invalid string: surrogate U+DC00..U+DFFF must be followed by U+DC00..U+DFFF"
def highSurrogateExpected : Bytes :=
  ascii "invalid string: surrogate U+DC00..U+DFFF must follow U+D800..U+DBFF"
def forbiddenEscape : Bytes := ascii "invalid string: forbidden character after backslash"
def illFormedByte : Bytes := ascii "invalid string: ill-formed UTF-8 byte"

def controlNames : List String :=
  ["NUL", "SOH", "STX", "ETX", "EOT", "ENQ", "ACK", "BEL", "BS", "HT", "LF", "VT", "FF", "CR",
    "SO", "SI", "DLE", "DC1", "DC2", "DC3", "DC4", "NAK", "SYN", "ETB", "CAN", "EM", "SUB",
    "ESC", "FS", "GS", "RS", "US"]

def controlCode (c : UInt8) : Bytes :=
  let digit (n : Nat) : UInt8 := UInt8.ofNat (if n < 10 then 0x30 + n else 0x37 + n)
  [digit (c.toNat / 16), digit (c.toNat % 16)]

/-- The message about an unescaped control character. Five of them have a short
escape, which the message offers too. -/
def controlCharacter (c : UInt8) : Bytes :=
  ascii "invalid string: control character U+00" ++ controlCode c ++ ascii " (" ++
    ascii (controlNames.getD c.toNat "") ++ ascii ") must be escaped to \\u00" ++ controlCode c ++
    (if c = 0x08 then ascii " or \\b" else if c = 0x09 then ascii " or \\t"
     else if c = 0x0A then ascii " or \\n" else if c = 0x0C then ascii " or \\f"
     else if c = 0x0D then ascii " or \\r" else [])

def simpleEscape (c : UInt8) : Option UInt8 :=
  if c = 0x22 then some 0x22
  else if c = 0x5C then some 0x5C
  else if c = 0x2F then some 0x2F
  else if c = 0x62 then some 0x08
  else if c = 0x66 then some 0x0C
  else if c = 0x6E then some 0x0A
  else if c = 0x72 then some 0x0D
  else if c = 0x74 then some 0x09
  else none

/-- The case `\u`: the bytes to add and the rest of the input. -/
def scanUnicode (input : Bytes) : Except Bytes (Bytes × Bytes) :=
  match getCodepoint input with
  | none => .error fourHexDigits
  | some (codepoint1, input) =>
      if 0xD800 ≤ codepoint1 ∧ codepoint1 ≤ 0xDBFF then
        match input with
        | 0x5C :: 0x75 :: input =>
            match getCodepoint input with
            | none => .error fourHexDigits
            | some (codepoint2, input) =>
                if 0xDC00 ≤ codepoint2 ∧ codepoint2 ≤ 0xDFFF then
                  .ok (encodeCodepoint ((codepoint1 <<< 10) + codepoint2 - 0x35FDC00), input)
                else .error lowSurrogateExpected
        | _ => .error lowSurrogateExpected
      else if 0xDC00 ≤ codepoint1 ∧ codepoint1 ≤ 0xDFFF then .error highSurrogateExpected
      else .ok (encodeCodepoint codepoint1, input)

def scanEscape : Bytes → Except Bytes (Bytes × Bytes)
  | [] => .error forbiddenEscape
  | c :: input =>
      if c = 0x75 then scanUnicode input
      else
        match simpleEscape c with
        | some value => .ok ([value], input)
        | none => .error forbiddenEscape

/-- One character of a string literal: what is added to `token_buffer`, and the
rest. The case labels for unescaped characters are the rows of `Utf8.tails`. -/
def scanCharacter (c : UInt8) (input : Bytes) : Except Bytes (Bytes × Bytes) :=
  if c = 0x5C then scanEscape input
  else if c ≤ 0x1F then .error (controlCharacter c)
  else
    match Utf8.tails c with
    | none => .error illFormedByte
    | some ranges =>
        match nextByteInRange ranges input with
        | none => .error illFormedByte
        | some (octets, rest) => .ok (c :: octets, rest)

/-- The body of the loop of `scan_string`, over `token_buffer` and the input. -/
def scanStringBody : Bytes × Bytes → (Bytes × Bytes) ⊕ Except Bytes (Bytes × Bytes)
  | (_, []) => .inr (.error missingQuote)
  | (buffer, c :: input) =>
      if c = 0x22 then .inr (.ok (buffer, input))
      else
        match scanCharacter c input with
        | .error message => .inr (.error message)
        | .ok (added, rest) => .inl (buffer ++ added, rest)

/-! What a character of the literal costs: the input that was read contains no
zero byte, and it is at least as long as what it adds to the buffer. -/

/-- `rest` is what is left of `input` after reading something that adds `added`. -/
def Consumes (input added rest : Bytes) : Prop :=
  ∃ read, input = read ++ rest ∧ (0 : UInt8) ∉ read ∧ added.length ≤ read.length

theorem Consumes.length {input added rest : Bytes} (h : Consumes input added rest) :
    added.length + rest.length ≤ input.length := by
  obtain ⟨read, rfl, -, hlen⟩ := h
  rw [List.length_append]
  omega

theorem zero_notMem_cons {c : UInt8} {read : Bytes} (hc : c ≠ 0) (h : (0 : UInt8) ∉ read) :
    (0 : UInt8) ∉ c :: read := by
  rw [List.mem_cons, not_or]
  exact ⟨Ne.symm hc, h⟩

theorem Consumes.cons {input added rest : Bytes} (h : Consumes input added rest) {c d : UInt8}
    (hc : c ≠ 0) : Consumes (c :: input) (d :: added) rest := by
  obtain ⟨read, rfl, hzero, hlen⟩ := h
  exact ⟨c :: read, rfl, zero_notMem_cons hc hzero, by simpa using hlen⟩

theorem Consumes.skip {input added rest : Bytes} (h : Consumes input added rest) {c : UInt8}
    (hc : c ≠ 0) : Consumes (c :: input) added rest := by
  obtain ⟨read, rfl, hzero, hlen⟩ := h
  exact ⟨c :: read, rfl, zero_notMem_cons hc hzero, by rw [List.length_cons]; omega⟩

theorem hexValue_ne_zero {c : UInt8} {value : Nat} (h : hexValue c = some value) : c ≠ 0 := by
  rintro rfl
  exact absurd h (by simp [hexValue])

theorem getCodepointLoop_consumes : ∀ {factors : List Nat} {start : Nat} {input : Bytes}
    {codepoint : Nat} {rest : Bytes},
    getCodepointLoop factors start input = some (codepoint, rest) →
    ∃ read, input = read ++ rest ∧ (0 : UInt8) ∉ read ∧ read.length = factors.length := by
  intro factors
  induction factors with
  | nil =>
      intro start input codepoint rest h
      simp only [getCodepointLoop, Option.some.injEq, Prod.mk.injEq] at h
      exact ⟨[], by rw [List.nil_append, h.2], by simp, rfl⟩
  | cons factor factors ih =>
      intro start input codepoint rest h
      cases input with
      | nil => simp [getCodepointLoop] at h
      | cons c input =>
          simp only [getCodepointLoop] at h
          split at h
          · next value hvalue =>
            obtain ⟨read, rfl, hzero, hlen⟩ := ih h
            exact ⟨c :: read, rfl, zero_notMem_cons (hexValue_ne_zero hvalue) hzero, by simp [hlen]⟩
          · cases h

theorem length_encodeCodepoint (codepoint : Nat) : (encodeCodepoint codepoint).length ≤ 4 := by
  unfold encodeCodepoint
  split
  · simp
  · split
    · simp
    · split <;> simp

theorem scanUnicode_consumes {input added rest : Bytes}
    (h : scanUnicode input = .ok (added, rest)) : Consumes input added rest := by
  unfold scanUnicode at h
  split at h
  · cases h
  · next codepoint1 input1 hfirst =>
    obtain ⟨read1, rfl, hzero1, hlen1⟩ := getCodepointLoop_consumes hfirst
    split at h
    · split at h
      · next input2 =>
        split at h
        · cases h
        · next codepoint2 input3 hsecond =>
          obtain ⟨read2, rfl, hzero2, hlen2⟩ := getCodepointLoop_consumes hsecond
          split at h
          · simp only [Except.ok.injEq, Prod.mk.injEq] at h
            obtain ⟨rfl, rfl⟩ := h
            refine ⟨read1 ++ 0x5C :: 0x75 :: read2, by simp, by simp [hzero1, hzero2], ?_⟩
            have := length_encodeCodepoint ((codepoint1 <<< 10) + codepoint2 - 0x35FDC00)
            simp only [List.length_append, List.length_cons, hlen1]
            simp only [List.length_nil]
            omega
          · cases h
      · cases h
    · split at h
      · cases h
      · cases h
        refine ⟨read1, rfl, hzero1, ?_⟩
        rw [hlen1]
        exact length_encodeCodepoint codepoint1

theorem scanEscape_consumes {input added rest : Bytes}
    (h : scanEscape input = .ok (added, rest)) : Consumes input added rest := by
  cases input with
  | nil => cases h
  | cons c input =>
      simp only [scanEscape] at h
      split at h
      · next hu =>
        subst hu
        exact (scanUnicode_consumes h).skip (by decide)
      · split at h
        · next value hvalue =>
          cases h
          have hc : c ≠ 0 := by
            rintro rfl
            cases hvalue.symm.trans (rfl : simpleEscape 0 = none)
          exact Consumes.cons ⟨[], rfl, by simp, Nat.le_refl _⟩ hc
        · cases h

theorem nextByteInRange_consumes : ∀ {ranges : List Utf8.Range} {input octets rest : Bytes},
    (∀ r ∈ ranges, 0x80 ≤ r.1) → nextByteInRange ranges input = some (octets, rest) →
    Consumes input octets rest := by
  intro ranges
  induction ranges with
  | nil =>
      intro input octets rest _ h
      simp only [nextByteInRange, Option.some.injEq, Prod.mk.injEq] at h
      exact ⟨[], by simp [h.2], by simp, by simp [← h.1]⟩
  | cons r ranges ih =>
      intro input octets rest hlow h
      cases input with
      | nil => simp [nextByteInRange] at h
      | cons b input =>
          simp only [nextByteInRange] at h
          split at h
          · next hb =>
            rw [Option.map_eq_some_iff] at h
            obtain ⟨⟨tail, rest'⟩, htail, heq⟩ := h
            cases heq
            have hb0 : b ≠ 0 := by
              rintro rfl
              exact absurd (UInt8.le_trans (hlow r List.mem_cons_self) hb.1) (by decide)
            exact (ih (fun r hr => hlow r (List.mem_cons_of_mem _ hr)) htail).cons hb0
          · cases h

/-- A character is an escape, or a lead byte that is followed by the octets it asks for. -/
theorem scanCharacter_cases {c : UInt8} {input added rest : Bytes}
    (h : scanCharacter c input = .ok (added, rest)) :
    (c = 0x5C ∧ scanEscape input = .ok (added, rest)) ∨
      (c ≠ 0 ∧ ∃ octets, added = c :: octets ∧ Consumes input octets rest) := by
  unfold scanCharacter at h
  split at h
  · next hc => exact Or.inl ⟨hc, h⟩
  · right
    split at h
    · cases h
    · next hcontrol =>
      split at h
      · cases h
      · next ranges hranges =>
        split at h
        · cases h
        · next octets rest' hoctets =>
          cases h
          refine ⟨?_, octets, rfl, nextByteInRange_consumes (Utf8.tails_range_low hranges) hoctets⟩
          rintro rfl
          exact hcontrol (by decide)

theorem scanCharacter_consumes {c : UInt8} {input added rest : Bytes}
    (h : scanCharacter c input = .ok (added, rest)) : Consumes (c :: input) added rest := by
  rcases scanCharacter_cases h with ⟨rfl, hescape⟩ | ⟨hc, octets, rfl, hoctets⟩
  · exact (scanEscape_consumes hescape).skip (by decide)
  · exact hoctets.cons hc

theorem scanCharacter_length {c : UInt8} {input added rest : Bytes}
    (h : scanCharacter c input = .ok (added, rest)) : rest.length < (c :: input).length := by
  rw [List.length_cons]
  rcases scanCharacter_cases h with ⟨-, hescape⟩ | ⟨-, octets, -, hoctets⟩
  · have hlen := (scanEscape_consumes hescape).length
    omega
  · have hlen := hoctets.length
    omega

/-- The loop goes on behind a character. -/
theorem scanStringBody_inl {buffer left : Bytes} {s' : Bytes × Bytes}
    (h : scanStringBody (buffer, left) = .inl s') :
    ∃ c input added rest, left = c :: input ∧ scanCharacter c input = .ok (added, rest) ∧
      s' = (buffer ++ added, rest) := by
  cases left with
  | nil => cases h
  | cons c input =>
      simp only [scanStringBody] at h
      split at h
      · cases h
      · split at h
        · cases h
        · next added rest hchar =>
          cases h
          exact ⟨c, input, added, rest, rfl, hchar, rfl⟩

/-- It ends well only at a quotation mark. -/
theorem scanStringBody_inr {buffer left value rest : Bytes}
    (h : scanStringBody (buffer, left) = .inr (.ok (value, rest))) :
    left = 0x22 :: rest ∧ value = buffer := by
  cases left with
  | nil => cases h
  | cons c input =>
      simp only [scanStringBody] at h
      split at h
      · next hc =>
        cases h
        exact ⟨by rw [hc], rfl⟩
      · split at h <;> cases h

theorem scanStringBody_decreases :
    Loop.Decreases scanStringBody fun s => s.2.length := by
  rintro ⟨buffer, left⟩ s' h
  obtain ⟨c, input, added, rest, rfl, hchar, rfl⟩ := scanStringBody_inl h
  exact scanCharacter_length hchar

/-- `scan_string`, after the opening quotation mark: the contents of the literal
and what follows the closing one. -/
def scanString (input : Bytes) : Except Bytes (Bytes × Bytes) :=
  Loop.iterate scanStringBody (fun s => s.2.length) scanStringBody_decreases ([], input)

theorem scanString_consumes {input value rest : Bytes}
    (h : scanString input = .ok (value, rest)) : Consumes input value (0x22 :: rest) := by
  have hpost := Loop.iterate_invariant scanStringBody_decreases
    (fun s => Consumes input s.1 s.2)
    (fun result => ∀ value rest, result = .ok (value, rest) →
      Consumes input value (0x22 :: rest)) ?_ ?_ (s := ([], input))
    ⟨[], rfl, by simp, Nat.le_refl _⟩
  · exact hpost value rest h
  · rintro ⟨buffer, left⟩ s' ⟨read, hread, hzero, hlen⟩ hbody
    obtain ⟨c, left', added, rest', rfl, hchar, rfl⟩ := scanStringBody_inl hbody
    obtain ⟨read', hread', hzero', hlen'⟩ := scanCharacter_consumes hchar
    refine ⟨read ++ read', ?_, by simp [hzero, hzero'], ?_⟩
    · rw [hread, hread', List.append_assoc]
    · simp only [List.length_append] at hlen ⊢
      omega
  · rintro ⟨buffer, left⟩ result hinv hbody value rest rfl
    obtain ⟨rfl, rfl⟩ := scanStringBody_inr hbody
    exact hinv

/-! ### Numbers -/

/-- The labels of `scan_number`. -/
inductive NumberState where
  | minus
  | zero
  | any1
  | decimal1
  | decimal2
  | exponent
  | sign
  | any2
deriving DecidableEq, Repr

inductive NumberType where
  | unsigned
  | integer
  | float
deriving DecidableEq, Repr

def NumberState.enter : NumberState → NumberType → NumberType
  | .minus, _ => .integer
  | .decimal1, _ | .exponent, _ => .float
  | _, type => type

/-- The cases of the `switch` at a label that add the byte and jump. -/
def NumberState.next (c : UInt8) : NumberState → Option NumberState
  | .minus => if c = 0x30 then some .zero else if isDigit c then some .any1 else none
  | .zero =>
      if c = 0x2E then some .decimal1
      else if c = 0x65 ∨ c = 0x45 then some .exponent else none
  | .any1 =>
      if isDigit c then some .any1 else if c = 0x2E then some .decimal1
      else if c = 0x65 ∨ c = 0x45 then some .exponent else none
  | .decimal1 => if isDigit c then some .decimal2 else none
  | .decimal2 =>
      if isDigit c then some .decimal2
      else if c = 0x65 ∨ c = 0x45 then some .exponent else none
  | .exponent =>
      if c = 0x2B ∨ c = 0x2D then some .sign else if isDigit c then some .any2 else none
  | .sign => if isDigit c then some .any2 else none
  | .any2 => if isDigit c then some .any2 else none

/-- The message of the `default` case where it is an error. At the other labels
the number is done. -/
def NumberState.error : NumberState → Option Bytes
  | .minus => some (ascii "invalid number; expected digit after '-'")
  | .decimal1 => some (ascii "invalid number; expected digit after '.'")
  | .exponent => some (ascii "invalid number; expected '+', '-', or digit after exponent")
  | .sign => some (ascii "invalid number; expected digit after exponent sign")
  | .zero | .any1 | .decimal2 | .any2 => none

def numberDone (state : NumberState) (type : NumberType) (rest : Bytes) :
    Except Bytes (Bytes × NumberType × Bytes) :=
  match state.error with
  | some message => .error message
  | none => .ok ([], type, rest)

/-- The machine from a label on: the bytes added to `token_buffer`, the type of
the number, and the rest of the input, to which the byte that ended the number
has been given back. -/
def scanNumberFrom (state : NumberState) (type : NumberType) :
    Bytes → Except Bytes (Bytes × NumberType × Bytes)
  | [] => numberDone state type []
  | c :: input =>
      match state.next c with
      | none => numberDone state type (c :: input)
      | some state' => do
          let (added, type', rest) ← scanNumberFrom state' (state'.enter type) input
          return (c :: added, type', rest)

def numberStart (c : UInt8) : NumberState :=
  if c = 0x2D then .minus else if c = 0x30 then .zero else .any1

/-- The conversion after the label `scan_number_done`. An integer out of range is
read as a double. -/
def convertNumber (fmt : DoubleFormat F) (type : NumberType) (buffer : Bytes) : Token F :=
  match type with
  | .unsigned =>
      let x := natOfDecimal buffer
      if x < 2 ^ 64 then .valueUnsigned x else .valueFloat (fmt.strtod buffer)
  | .integer =>
      let x : Int := -(natOfDecimal buffer.tail : Int)
      if -2 ^ 63 ≤ x then .valueInteger x else .valueFloat (fmt.strtod buffer)
  | .float => .valueFloat (fmt.strtod buffer)

/-- `scan_number`, whose first byte is `c`. -/
def scanNumber (fmt : DoubleFormat F) (c : UInt8) (input : Bytes) : Token F × Bytes :=
  match scanNumberFrom (numberStart c) ((numberStart c).enter .unsigned) input with
  | .error message => (.parseError message, [])
  | .ok (added, type, rest) => (convertNumber fmt type (c :: added), rest)

theorem scanNumberFrom_length : ∀ {input : Bytes} {state : NumberState} {type type' : NumberType}
    {added rest : Bytes}, scanNumberFrom state type input = .ok (added, type', rest) →
    rest.length ≤ input.length := by
  intro input
  induction input with
  | nil =>
      intro state type type' added rest h
      simp only [scanNumberFrom, numberDone] at h
      split at h <;> cases h
      exact Nat.le_refl _
  | cons c input ih =>
      intro state type type' added rest h
      simp only [scanNumberFrom] at h
      split at h
      · simp only [numberDone] at h
        split at h <;> cases h
        exact Nat.le_refl _
      · next state' _ =>
        rcases hrec : scanNumberFrom state' (state'.enter type) input with _ | ⟨a, t, r⟩
        · rw [hrec] at h; cases h
        · rw [hrec] at h
          cases h
          exact Nat.le_trans (ih hrec) (Nat.le_succ _)

theorem scanNumber_length (fmt : DoubleFormat F) (c : UInt8) (input : Bytes) :
    (scanNumber fmt c input).2.length ≤ input.length := by
  unfold scanNumber
  split
  · exact Nat.zero_le _
  · next h => exact scanNumberFrom_length h

/-! ### Tokens -/

def isWhitespace (c : UInt8) : Bool := c = 0x20 || c = 0x09 || c = 0x0A || c = 0x0D

def invalidLiteral : Bytes := ascii "invalid literal"

/-- `scan_literal`, after the first letter. -/
def scanLiteral (letters : Bytes) (token : Token F) (input : Bytes) : Token F × Bytes :=
  match Splitting.dropWord letters input with
  | some rest => (token, rest)
  | none => (.parseError invalidLiteral, [])

def stringToken : Except Bytes (Bytes × Bytes) → Token F × Bytes
  | .ok (value, rest) => (.valueString value, rest)
  | .error message => (.parseError message, [])

/-- The `switch` of `scan`, on the first byte that is not whitespace. -/
def scanToken (fmt : DoubleFormat F) : Bytes → Token F × Bytes
  | [] => (.endOfInput, [])
  | c :: input =>
      if c = 0x5B then (.beginArray, input)
      else if c = 0x5D then (.endArray, input)
      else if c = 0x7B then (.beginObject, input)
      else if c = 0x7D then (.endObject, input)
      else if c = 0x3A then (.nameSeparator, input)
      else if c = 0x2C then (.valueSeparator, input)
      else if c = 0x74 then scanLiteral (ascii "rue") .literalTrue input
      else if c = 0x66 then scanLiteral (ascii "alse") .literalFalse input
      else if c = 0x6E then scanLiteral (ascii "ull") .literalNull input
      else if c = 0x22 then stringToken (scanString input)
      else if c = 0x2D ∨ isDigit c then scanNumber fmt c input
      -- the null byte ends the input, as when parsing from a string literal
      else if c = 0x00 then (.endOfInput, [])
      else (.parseError invalidLiteral, [])

/-- `scan`, after the byte order mark. -/
def scan (fmt : DoubleFormat F) (input : Bytes) : Token F × Bytes :=
  scanToken fmt (input.dropWhile isWhitespace)

theorem scanLiteral_length {letters : Bytes} {token : Token F} (input : Bytes) :
    (scanLiteral letters token input).2.length ≤ input.length := by
  unfold scanLiteral
  split
  · next h =>
    rw [Splitting.append_of_dropWord h, List.length_append]
    exact Nat.le_add_left _ _
  · exact Nat.zero_le _

/-- Reading a token shortened the input, or nothing more is read after it. -/
def Shortens (input : Bytes) (result : Token F × Bytes) : Prop :=
  result.2.length < input.length ∨ (result.1.stops = true ∧ result.2 = [])

theorem Shortens.ite {p : Prop} [Decidable p] {input : Bytes} {left right : Token F × Bytes}
    (hleft : Shortens input left) (hright : Shortens input right) :
    Shortens input (if p then left else right) := by
  split
  · exact hleft
  · exact hright

theorem scanToken_shortens (fmt : DoubleFormat F) (input : Bytes) :
    Shortens input (scanToken fmt input) := by
  cases input with
  | nil => exact Or.inr ⟨rfl, rfl⟩
  | cons c input =>
      have hlt : ∀ {token : Token F} {rest : Bytes}, rest.length ≤ input.length →
          Shortens (c :: input) (token, rest) := fun h => Or.inl (Nat.lt_succ_of_le h)
      have hstring : Shortens (c :: input) (stringToken (F := F) (scanString input)) := by
        rcases hscan : scanString input with _ | ⟨value, rest⟩
        · exact Or.inr ⟨rfl, rfl⟩
        · have hlen := (scanString_consumes hscan).length
          rw [List.length_cons] at hlen
          exact hlt (by omega)
      rw [scanToken]
      repeat' apply Shortens.ite
      all_goals first
        | exact hlt (Nat.le_refl _)
        | exact hlt (scanLiteral_length _)
        | exact hlt (scanNumber_length fmt c input)
        | exact Or.inr ⟨rfl, rfl⟩
        | exact hstring

theorem scan_shortens (fmt : DoubleFormat F) (input : Bytes) :
    Shortens input (scan fmt input) := by
  have hdrop : (input.dropWhile isWhitespace).length ≤ input.length :=
    (List.dropWhile_sublist _).length_le
  rcases scanToken_shortens fmt (input.dropWhile isWhitespace) with h | h
  · exact Or.inl (Nat.lt_of_lt_of_le h hdrop)
  · exact Or.inr h

def invalidBom : Bytes := ascii "invalid BOM; must be 0xEF 0xBB 0xBF if given"

def skipBom : Bytes → Option Bytes
  | 0xEF :: 0xBB :: 0xBF :: rest => some rest
  | 0xEF :: _ => none
  | input => some input

theorem skipBom_eq_some {input rest : Bytes} (h : skipBom input = some rest) :
    input = rest ∨ input = 0xEF :: 0xBB :: 0xBF :: rest := by
  unfold skipBom at h
  split at h
  · cases h
    exact Or.inr rfl
  · cases h
  · cases h
    exact Or.inl rfl

/-! ### String tokens -/

def NotString (result : Token F × Bytes) : Prop := ∀ s, result.1 ≠ .valueString s

theorem NotString.ite {p : Prop} [Decidable p] {left right : Token F × Bytes}
    (hleft : NotString left) (hright : NotString right) :
    NotString (if p then left else right) := by
  split
  · exact hleft
  · exact hright

theorem notString_scanLiteral {letters input : Bytes} {token : Token F}
    (h : ∀ s, token ≠ .valueString s) : NotString (scanLiteral letters token input) := by
  intro s
  unfold scanLiteral
  split
  · exact h s
  · simp

theorem notString_scanNumber (fmt : DoubleFormat F) (c : UInt8) (input : Bytes) :
    NotString (scanNumber fmt c input) := by
  intro s
  unfold scanNumber
  split
  · simp
  · next type _ _ =>
    unfold convertNumber
    cases type <;> dsimp only
    · split <;> simp
    · split <;> simp
    · simp

theorem scanString_of_scanToken {fmt : DoubleFormat F} {input s rest : Bytes}
    (h : scanToken fmt input = (.valueString s, rest)) :
    ∃ input', input = 0x22 :: input' ∧ scanString input' = .ok (s, rest) := by
  cases input with
  | nil => simp [scanToken] at h
  | cons c input =>
      by_cases hc : c = 0x22
      · subst hc
        refine ⟨input, rfl, ?_⟩
        change stringToken (scanString input) = _ at h
        rcases hscan : scanString input with message | ⟨value, left⟩
        · rw [hscan] at h
          cases h
        · rw [hscan] at h
          cases h
          rfl
      · have hnot : NotString (scanToken fmt (c :: input)) := by
          rw [scanToken, if_neg hc]
          repeat' apply NotString.ite
          all_goals first
            | exact notString_scanLiteral (by simp)
            | exact notString_scanNumber fmt c input
            | simp [NotString]
        exact absurd (congrArg Prod.fst h) (hnot s)

end Lexer

end ExchangeClient
