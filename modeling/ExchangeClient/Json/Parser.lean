import ExchangeClient.Json.Lexer

/-!
# Reading JSON: the parser

`parser::sax_parse_internal` driving `json_sax_dom_parser`, as `json::parse`
runs them. The source keeps a stack of the containers it is inside of; here each
entry of the stack also holds the part of the container that has been read, which
the source keeps behind `ref_stack`. One pass through the loop is the body of a
loop in two phases: a value is about to be read, or a value has just been read.

The position and the last read text, which the source adds to a message, are left
out.
-/

namespace ExchangeClient

structure ParseError where
  id : Nat
  message : Bytes
deriving DecidableEq, Repr

def Token.typeName {F : Type} : Token F → Bytes
  | .literalTrue => ascii "true literal"
  | .literalFalse => ascii "false literal"
  | .literalNull => ascii "null literal"
  | .valueString _ => ascii "string literal"
  | .valueUnsigned _ | .valueInteger _ | .valueFloat _ => ascii "number literal"
  | .beginArray => ascii "'['"
  | .beginObject => ascii "'\x7b'"
  | .endArray => ascii "']'"
  | .endObject => ascii "'\x7d'"
  | .nameSeparator => ascii "':'"
  | .valueSeparator => ascii "','"
  | .parseError _ => ascii "<parse error>"
  | .endOfInput => ascii "end of input"

namespace Parser

variable {F : Type}

/-- `exception_message`, with the names of the expected tokens. -/
def exceptionMessage (token : Token F) (expected : Option Bytes) (context : Bytes) : Bytes :=
  ascii "syntax error while parsing " ++ context ++ ascii " - " ++
    (match token with
      | .parseError message => message
      | token => ascii "unexpected " ++ token.typeName) ++
    (match expected with
      | some name => ascii "; expected " ++ name
      | none => [])

def syntaxError (token : Token F) (expected : Option Bytes) (context : Bytes) : ParseError :=
  ⟨101, exceptionMessage token expected context⟩

/-- A container that has been opened: what has been read of it, and for an object
the key whose value comes next. -/
inductive Frame (F : Type) where
  | inArray (elements : List (Json F))
  | inObject (members : List (Bytes × Json F)) (key : Bytes)

/-- The loop at the point where `last_token` starts a value, and at the point
reached after a value was parsed. -/
inductive State (F : Type) where
  | value (stack : List (Frame F)) (lastToken : Token F) (rest : Bytes)
  | evaluate (stack : List (Frame F)) (parsed : Json F) (rest : Bytes)

abbrev Result (F : Type) := Except ParseError (Json F × Bytes)

variable (fmt : DoubleFormat F)

/-- `get_token` in front of a value. -/
def nextValue (stack : List (Frame F)) (input : Bytes) : State F :=
  .value stack (Lexer.scan fmt input).1 (Lexer.scan fmt input).2

/-- A key and the separator after it, the key being the token just read. -/
def parseKey (stack : List (Frame F)) (members : List (Bytes × Json F)) :
    Token F × Bytes → State F ⊕ Result F
  | (.valueString key, rest) =>
      match Lexer.scan fmt rest with
      | (.nameSeparator, rest) => .inl (nextValue fmt (.inObject members key :: stack) rest)
      | (token, _) =>
          .inr (.error (syntaxError token (some (ascii "':'")) (ascii "object separator")))
  | (token, _) =>
      .inr (.error (syntaxError token (some (ascii "string literal")) (ascii "object key")))

/-- The `switch` over `last_token`. -/
def parseValue (stack : List (Frame F)) (rest : Bytes) : Token F → State F ⊕ Result F
  | .beginObject =>
      match Lexer.scan fmt rest with
      | (.endObject, rest) => .inl (.evaluate stack (.object []) rest)
      | next => parseKey fmt stack [] next
  | .beginArray =>
      match Lexer.scan fmt rest with
      | (.endArray, rest) => .inl (.evaluate stack (.array []) rest)
      | (token, rest) => .inl (.value (.inArray [] :: stack) token rest)
  | .valueFloat value =>
      if fmt.isfinite value then .inl (.evaluate stack (.numberFloat value) rest)
      else .inr (.error ⟨406, ascii "number overflow parsing"⟩)
  | .literalFalse => .inl (.evaluate stack (.boolean false) rest)
  | .literalNull => .inl (.evaluate stack .null rest)
  | .literalTrue => .inl (.evaluate stack (.boolean true) rest)
  | .valueInteger value => .inl (.evaluate stack (.numberInteger value) rest)
  | .valueString value => .inl (.evaluate stack (.string value) rest)
  | .valueUnsigned value => .inl (.evaluate stack (.numberInteger value) rest)
  | .parseError message =>
      .inr (.error (syntaxError (.parseError message : Token F) none (ascii "value")))
  | token =>
      .inr (.error (syntaxError token (some (ascii "'[', '\x7b', or a literal"))
        (ascii "value")))

/-- The part of the loop after a value was parsed. -/
def evaluateState (stack : List (Frame F)) (parsed : Json F) (rest : Bytes) :
    State F ⊕ Result F :=
  match stack with
  | [] => .inr (.ok (parsed, rest))
  | .inArray elements :: stack =>
      match Lexer.scan fmt rest with
      | (.valueSeparator, rest) =>
          .inl (nextValue fmt (.inArray (elements ++ [parsed]) :: stack) rest)
      | (.endArray, rest) => .inl (.evaluate stack (.array (elements ++ [parsed])) rest)
      | (token, _) => .inr (.error (syntaxError token (some (ascii "']'")) (ascii "array")))
  | .inObject members key :: stack =>
      match Lexer.scan fmt rest with
      | (.valueSeparator, rest) =>
          parseKey fmt stack (SortedMap.assign key parsed members) (Lexer.scan fmt rest)
      | (.endObject, rest) =>
          .inl (.evaluate stack (.object (SortedMap.assign key parsed members)) rest)
      | (token, _) =>
          .inr (.error (syntaxError token (some (ascii "'\x7d'")) (ascii "object")))

/-- The body of the loop of `sax_parse_internal`. -/
def parserBody : State F → State F ⊕ Result F
  | .value stack lastToken rest => parseValue fmt stack rest lastToken
  | .evaluate stack parsed rest => evaluateState fmt stack parsed rest

/-! ### The loop ends -/

/-- Twice the input that is left, and what the token that has been read is still
good for. -/
def rank : State F → Nat
  | .value _ lastToken rest => 2 * rest.length + if lastToken.stops then 1 else 2
  | .evaluate _ _ rest => 2 * rest.length

theorem rank_nextValue (stack : List (Frame F)) (input : Bytes) :
    rank (nextValue fmt stack input) < 2 * input.length + 2 := by
  rcases Lexer.scan_shortens fmt input with h | ⟨hstops, hrest⟩
  · have hbound : ∀ b : Bool, (if b then 1 else 2) ≤ 2 := by decide
    have htoken := hbound (Lexer.scan fmt input).1.stops
    simp only [nextValue, rank]
    omega
  · simp only [nextValue, rank, hstops, hrest, if_pos]
    simp only [List.length_nil]
    omega

theorem length_scan_le (input : Bytes) : (Lexer.scan fmt input).2.length ≤ input.length := by
  rcases Lexer.scan_shortens fmt input with hlt | ⟨-, hnil⟩
  · exact Nat.le_of_lt hlt
  · rw [hnil]
    exact Nat.zero_le _

theorem length_of_scan {input rest : Bytes} {token : Token F}
    (h : Lexer.scan fmt input = (token, rest)) (htoken : token.stops = false) :
    rest.length < input.length := by
  have hshort := Lexer.scan_shortens fmt input
  rw [h] at hshort
  rcases hshort with hlt | ⟨hstops, -⟩
  · exact hlt
  · exact absurd (hstops.symm.trans htoken) (by decide)

/-- Behind a closing bracket there is less input. -/
theorem rank_evaluate_of_scan {input rest : Bytes} {token : Token F} (stack : List (Frame F))
    (parsed : Json F) (h : Lexer.scan fmt input = (token, rest)) (htoken : token.stops = false) :
    rank (.evaluate stack parsed rest) < 2 * input.length := by
  have hlen := length_of_scan fmt h htoken
  simp only [rank]
  omega

theorem rank_parseKey {stack : List (Frame F)} {members : List (Bytes × Json F)}
    {next : Token F × Bytes} {s' : State F}
    (h : parseKey fmt stack members next = .inl s') : rank s' < 2 * next.2.length + 1 := by
  unfold parseKey at h
  split at h
  · next key rest =>
    split at h
    · next rest' hscan =>
      cases h
      have hlen := length_of_scan fmt hscan rfl
      have hrank := rank_nextValue fmt (.inObject members key :: stack) rest'
      change rank _ < 2 * rest.length + 1
      omega
    · cases h
  · cases h

theorem rank_parseValue {stack : List (Frame F)} {rest : Bytes} {token : Token F} {s' : State F}
    (h : parseValue fmt stack rest token = .inl s') :
    rank s' < rank (.value stack token rest) := by
  cases token with
  | beginObject =>
      change rank s' < 2 * rest.length + 2
      simp only [parseValue] at h
      split at h
      · next rest' hscan =>
        cases h
        exact Nat.lt_add_right 2 (rank_evaluate_of_scan fmt stack _ hscan rfl)
      · have hrank := rank_parseKey fmt h
        have hlen := length_scan_le fmt rest
        omega
  | beginArray =>
      change rank s' < 2 * rest.length + 2
      simp only [parseValue] at h
      split at h
      · next rest' hscan =>
        cases h
        exact Nat.lt_add_right 2 (rank_evaluate_of_scan fmt stack _ hscan rfl)
      · next token rest' _ hscan =>
        cases h
        have hrank := rank_nextValue fmt (.inArray [] :: stack) rest
        rwa [nextValue, hscan] at hrank
  | valueFloat value =>
      simp only [parseValue] at h
      split at h <;> cases h
      simp [rank, Token.stops]
  | literalTrue | literalFalse | literalNull | valueString _ | valueUnsigned _ | valueInteger _ =>
      cases h
      simp [rank, Token.stops]
  | endArray | endObject | nameSeparator | valueSeparator | parseError _ | endOfInput =>
      cases h

theorem rank_evaluateState {stack : List (Frame F)} {parsed : Json F} {rest : Bytes}
    {s' : State F} (h : evaluateState fmt stack parsed rest = .inl s') :
    rank s' < rank (.evaluate stack parsed rest) := by
  change rank s' < 2 * rest.length
  cases stack with
  | nil => cases h
  | cons frame stack =>
      cases frame with
      | inArray elements =>
          simp only [evaluateState] at h
          split at h
          · next rest' hscan =>
            cases h
            have hlen := length_of_scan fmt hscan rfl
            have hrank := rank_nextValue fmt (.inArray (elements ++ [parsed]) :: stack) rest'
            omega
          · next rest' hscan =>
            cases h
            exact rank_evaluate_of_scan fmt stack _ hscan rfl
          · cases h
      | inObject members key =>
          simp only [evaluateState] at h
          split at h
          · next rest' hscan =>
            have hlen := length_of_scan fmt hscan rfl
            have hrank := rank_parseKey fmt h
            have hlen' := length_scan_le fmt rest'
            omega
          · next rest' hscan =>
            cases h
            exact rank_evaluate_of_scan fmt stack _ hscan rfl
          · cases h

theorem parserBody_decreases : Loop.Decreases (parserBody fmt) rank := by
  intro s s' h
  cases s with
  | value stack lastToken rest => exact rank_parseValue fmt h
  | evaluate stack parsed rest => exact rank_evaluateState fmt h

/-- `sax_parse_internal`, from the first token on. -/
def saxParseInternal (input : Bytes) : Result F :=
  Loop.iterate (parserBody fmt) rank (parserBody_decreases fmt) (nextValue fmt [] input)

end Parser

namespace Json

variable {F : Type} (fmt : DoubleFormat F)

/-- `json::parse`: one value, and nothing but whitespace after it. -/
def parse (input : Bytes) : Except ParseError (Json F) :=
  match Lexer.skipBom input with
  | none =>
      .error (Parser.syntaxError (.parseError Lexer.invalidBom : Token F) none (ascii "value"))
  | some input =>
      match Parser.saxParseInternal fmt input with
      | .error e => .error e
      | .ok (parsed, rest) =>
          match Lexer.scan fmt rest with
          | (.endOfInput, _) => .ok parsed
          | (token, _) =>
              .error (Parser.syntaxError token (some (ascii "end of input")) (ascii "value"))

end Json

/-! ### A document that is a string -/

namespace Parser

variable {F : Type} (fmt : DoubleFormat F)

/-- Outside of all containers, the value in hand is the first token, and a string
that has been read is that token. -/
def TopLevel (input : Bytes) : State F → Prop
  | .value stack lastToken rest => stack ≠ [] ∨ Lexer.scan fmt input = (lastToken, rest)
  | .evaluate stack parsed rest =>
      stack ≠ [] ∨ ∀ s, parsed = .string s → Lexer.scan fmt input = (.valueString s, rest)

theorem topLevel_parseKey {input : Bytes} {stack : List (Frame F)}
    {members : List (Bytes × Json F)} {next : Token F × Bytes} {s' : State F}
    (h : parseKey fmt stack members next = .inl s') : TopLevel fmt input s' := by
  unfold parseKey at h
  split at h
  · split at h
    · cases h
      exact Or.inl (by simp)
    · cases h
  · cases h

theorem topLevel_parseValue {input rest : Bytes} {stack : List (Frame F)} {lastToken : Token F}
    {s' : State F} (hinv : stack ≠ [] ∨ Lexer.scan fmt input = (lastToken, rest))
    (h : parseValue fmt stack rest lastToken = .inl s') : TopLevel fmt input s' := by
  cases lastToken with
  | beginObject =>
      simp only [parseValue] at h
      split at h
      · cases h
        exact Or.inr fun s hs => by cases hs
      · exact topLevel_parseKey fmt h
  | beginArray =>
      simp only [parseValue] at h
      split at h
      · cases h
        exact Or.inr fun s hs => by cases hs
      · cases h
        exact Or.inl (by simp)
  | valueString value =>
      cases h
      exact hinv.imp_right fun hscan s hs => by cases hs; exact hscan
  | valueFloat value =>
      simp only [parseValue] at h
      split at h <;> cases h
      exact Or.inr fun s hs => by cases hs
  | literalTrue | literalFalse | literalNull | valueUnsigned _ | valueInteger _ =>
      cases h
      exact Or.inr fun s hs => by cases hs
  | endArray | endObject | nameSeparator | valueSeparator | parseError _ | endOfInput => cases h

theorem topLevel_evaluateState {input rest : Bytes} {stack : List (Frame F)} {parsed : Json F}
    {s' : State F} (h : evaluateState fmt stack parsed rest = .inl s') :
    TopLevel fmt input s' := by
  unfold evaluateState at h
  split at h
  · cases h
  · split at h
    · cases h
      exact Or.inl (by simp)
    · cases h
      exact Or.inr fun s hs => by cases hs
    · cases h
  · split at h
    · exact topLevel_parseKey fmt h
    · cases h
      exact Or.inr fun s hs => by cases hs
    · cases h

theorem parseKey_ne_ok {stack : List (Frame F)} {members : List (Bytes × Json F)}
    {next : Token F × Bytes} {out : Json F × Bytes} :
    parseKey fmt stack members next ≠ .inr (.ok out) := by
  unfold parseKey
  split
  · split <;> simp
  · simp

theorem parseValue_ne_ok {stack : List (Frame F)} {rest : Bytes} {lastToken : Token F}
    {out : Json F × Bytes} : parseValue fmt stack rest lastToken ≠ .inr (.ok out) := by
  cases lastToken with
  | beginObject =>
      simp only [parseValue]
      split
      · simp
      · exact parseKey_ne_ok fmt
  | beginArray =>
      simp only [parseValue]
      split <;> simp
  | valueFloat value =>
      simp only [parseValue]
      split <;> simp
  | _ => simp [parseValue]

theorem evaluateState_ok {stack : List (Frame F)} {parsed : Json F} {rest : Bytes}
    {out : Json F × Bytes} (h : evaluateState fmt stack parsed rest = .inr (.ok out)) :
    stack = [] ∧ out = (parsed, rest) := by
  unfold evaluateState at h
  split at h
  · exact ⟨rfl, (Except.ok.inj (Sum.inr.inj h)).symm⟩
  · split at h <;> cases h
  · split at h
    · exact absurd h (parseKey_ne_ok fmt)
    · cases h
    · cases h

/-- If the document is a string, the first token is all of it. -/
theorem scan_of_saxParseInternal_string {input s rest : Bytes}
    (h : saxParseInternal fmt input = .ok (.string s, rest)) :
    Lexer.scan fmt input = (.valueString s, rest) := by
  have hstart : TopLevel fmt input (nextValue fmt [] input) := Or.inr rfl
  refine Loop.iterate_invariant (parserBody_decreases fmt) (TopLevel fmt input)
    (fun result => ∀ s rest, result = .ok (.string s, rest) →
      Lexer.scan fmt input = (.valueString s, rest)) ?_ ?_ hstart s rest h
  · rintro (⟨stack, lastToken, left⟩ | ⟨stack, parsed, left⟩) s' hinv hbody
    · exact topLevel_parseValue fmt hinv hbody
    · exact topLevel_evaluateState fmt hbody
  · rintro (⟨stack, lastToken, left⟩ | ⟨stack, parsed, left⟩) result hinv hbody s rest rfl
    · exact absurd hbody (parseValue_ne_ok fmt)
    · obtain ⟨hstack, hout⟩ := evaluateState_ok fmt hbody
      cases hout
      exact hinv.resolve_left (not_not_intro hstack) s rfl

end Parser

namespace Json

variable {F : Type} (fmt : DoubleFormat F)

/-- The text of a string document: a byte order mark or nothing, whitespace, and the
literal, which is longer than the string and contains no zero byte. -/
theorem string_document_shape {input s : Bytes} (h : parse fmt input = .ok (.string s)) :
    ∃ lead read rest, input = lead ++ 0x22 :: (read ++ 0x22 :: rest) ∧ (0 : UInt8) ∉ lead ∧
      (0 : UInt8) ∉ read ∧ s.length ≤ read.length := by
  unfold parse at h
  split at h
  · cases h
  · next input' hbom =>
    split at h
    · cases h
    · next parsed rest hloop =>
      split at h
      · obtain rfl := Except.ok.inj h
        have hscan := Parser.scan_of_saxParseInternal_string fmt hloop
        obtain ⟨literal, hliteral, hstring⟩ := Lexer.scanString_of_scanToken hscan
        obtain ⟨read, hread, hzero, hlen⟩ := Lexer.scanString_consumes hstring
        have hinput : input' =
            input'.takeWhile Lexer.isWhitespace ++ 0x22 :: (read ++ 0x22 :: rest) := by
          rw [← hread, ← hliteral, List.takeWhile_append_dropWhile]
        have hspace : (0 : UInt8) ∉ input'.takeWhile Lexer.isWhitespace := fun hmem =>
          absurd (List.all_eq_true.mp List.all_takeWhile 0 hmem) (by decide)
        rcases Lexer.skipBom_eq_some hbom with hlead | hlead
        · exact ⟨_, read, rest, hlead.trans hinput, hspace, hzero, hlen⟩
        · refine ⟨0xEF :: 0xBB :: 0xBF :: input'.takeWhile Lexer.isWhitespace, read, rest, ?_,
            by simp [hspace], hzero, hlen⟩
          rw [hlead]
          exact congrArg (0xEF :: 0xBB :: 0xBF :: ·) hinput
      · cases h

end Json

end ExchangeClient
