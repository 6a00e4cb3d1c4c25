import ExchangeClient.Json.Parser
import ExchangeClient.Json.Strings
import ExchangeClient.Json.Numbers

/-!
# Documents are read back as they were written

`json::parse` undoes `json::dump`, up to the numbers that JSON cannot express:
`dump` writes `null` for a number that is not finite. The induction is on the
value; each case follows the loop of the parser over the text of that value, in
front of anything that may stand behind it.
-/

namespace ExchangeClient

open Decimal Lexer ExchangeClient.Parser

variable {F : Type}

namespace Json

mutual

/-- The value that the written document denotes. -/
def asWritten (fmt : DoubleFormat F) : Json F → Json F
  | .numberFloat value => if fmt.isfinite value then .numberFloat value else .null
  | .array elements => .array (asWrittenElements fmt elements)
  | .object members => .object (asWrittenMembers fmt members)
  | .null => .null
  | .boolean value => .boolean value
  | .numberInteger value => .numberInteger value
  | .string value => .string value

def asWrittenElements (fmt : DoubleFormat F) : List (Json F) → List (Json F)
  | [] => []
  | element :: elements => asWritten fmt element :: asWrittenElements fmt elements

def asWrittenMembers (fmt : DoubleFormat F) : List (Bytes × Json F) → List (Bytes × Json F)
  | [] => []
  | (key, value) :: members => (key, asWritten fmt value) :: asWrittenMembers fmt members

end

mutual

/-- Without floating-point numbers, every value can be expressed. -/
theorem asWritten_of_noFloats (fmt : DoubleFormat F) :
    ∀ {v : Json F}, v.WellFormed (fun _ => False) → v.asWritten fmt = v
  | .numberFloat _, hwf => by
      rw [WellFormed] at hwf
      exact hwf.elim
  | .array elements, hwf => by
      rw [WellFormed] at hwf
      rw [asWritten, asWrittenElements_of_noFloats fmt hwf]
  | .object members, hwf => by
      rw [WellFormed] at hwf
      rw [asWritten, asWrittenMembers_of_noFloats fmt hwf.2]
  | .null, _ | .boolean _, _ | .numberInteger _, _ | .string _, _ => by rw [asWritten]

theorem asWrittenElements_of_noFloats (fmt : DoubleFormat F) :
    ∀ {elements : List (Json F)}, WellFormedElements (fun _ => False) elements →
      asWrittenElements fmt elements = elements
  | [], _ => rfl
  | element :: elements, hwf => by
      rw [WellFormedElements] at hwf
      rw [asWrittenElements, asWritten_of_noFloats fmt hwf.1,
        asWrittenElements_of_noFloats fmt hwf.2]

theorem asWrittenMembers_of_noFloats (fmt : DoubleFormat F) :
    ∀ {members : List (Bytes × Json F)}, WellFormedMembers (fun _ => False) members →
      asWrittenMembers fmt members = members
  | [], _ => rfl
  | (key, value) :: members, hwf => by
      rw [WellFormedMembers] at hwf
      rw [asWrittenMembers, asWritten_of_noFloats fmt hwf.2.1,
        asWrittenMembers_of_noFloats fmt hwf.2.2]

end

theorem map_fst_asWrittenMembers (fmt : DoubleFormat F) (members : List (Bytes × Json F)) :
    (asWrittenMembers fmt members).map Prod.fst = members.map Prod.fst := by
  induction members with
  | nil => rfl
  | cons member members ih => simp [asWrittenMembers, ih]

theorem sorted_asWrittenMembers (fmt : DoubleFormat F) {members : List (Bytes × Json F)}
    (h : SortedMap.Sorted members) : SortedMap.Sorted (asWrittenMembers fmt members) := by
  rw [SortedMap.sorted_iff_keys] at h ⊢
  rwa [map_fst_asWrittenMembers]

end Json

/-! ### Tokens -/

variable (fmt : DoubleFormat F)

theorem scan_number {c : UInt8} (hc : c = 0x2D ∨ isDigit c = true) (input : Bytes) :
    scan fmt (c :: input) = scanNumber fmt c input := by
  have hall : ∀ c : UInt8, c = 0x2D ∨ isDigit c = true →
      isWhitespace c = false ∧
        c ∉ [0x5B, 0x5D, 0x7B, 0x7D, 0x3A, 0x2C, 0x74, 0x66, 0x6E, 0x22] :=
    forall_uint8 (by decide +kernel)
  obtain ⟨hspace, hne⟩ := hall c hc
  simp only [List.mem_cons, not_or] at hne
  have hdrop : (c :: input).dropWhile isWhitespace = c :: input := by simp [hspace]
  rw [scan, hdrop, scanToken]
  simp [hne, hc]

theorem scan_string (input : Bytes) :
    scan fmt (0x22 :: input) = stringToken (scanString input) := rfl

/-- `dump` of a string, and the token it becomes. -/
theorem dumpString_scan {s : Bytes} (hs : Utf8.Valid s) :
    ∃ text, Json.dumpString s = .ok text ∧
      ∀ rest, scan fmt (text ++ rest) = (.valueString s, rest) := by
  obtain ⟨out, hescaped, hout⟩ := dumpEscaped_valid hs
  refine ⟨0x22 :: (out ++ [0x22]), by rw [Json.dumpString, hout]; rfl, fun rest => ?_⟩
  rw [List.cons_append, List.append_assoc, List.singleton_append, scan_string,
    scanString_escaped hescaped]
  rfl

/-! ### Values -/

/-- The loop reads `text` as the value `v`. -/
def Reads (text : Bytes) (v : Json F) : Prop :=
  ∀ (stack : List (Frame F)) {rest : Bytes}, Delimited rest →
    Loop.Reaches (parserBody fmt) (nextValue fmt stack (text ++ rest)) (.evaluate stack v rest)

variable {fmt}

theorem reads_of_token {text : Bytes} {v : Json F} (token : Token F)
    (hscan : ∀ {rest : Bytes}, Delimited rest → scan fmt (text ++ rest) = (token, rest))
    (htoken : ∀ stack rest, parseValue fmt stack rest token = .inl (.evaluate stack v rest)) :
    Reads fmt text v := by
  intro stack rest hrest
  apply Loop.Reaches.single
  simp only [nextValue, hscan hrest, parserBody, htoken]

theorem Reads.first_continues {text : Bytes} {v : Json F} (h : Reads fmt text v) {rest : Bytes}
    (hrest : Delimited rest) {result : Result F}
    (hstop : parseValue fmt [] (scan fmt (text ++ rest)).2 (scan fmt (text ++ rest)).1 =
      .inr result) : False := by
  have hreach := h [] hrest
  simp only [nextValue] at hreach
  cases hreach with
  | head hbody _ =>
      rw [parserBody, hstop] at hbody
      cases hbody

theorem Reads.ne_endArray {text : Bytes} {v : Json F} (h : Reads fmt text v) {rest : Bytes}
    (hrest : Delimited rest) : (scan fmt (text ++ rest)).1 ≠ .endArray := by
  intro hend
  exact h.first_continues hrest (by rw [hend]; rfl)

theorem Reads.skipBom {text : Bytes} {v : Json F} (h : Reads fmt text v) :
    Lexer.skipBom text = some text := by
  cases text with
  | nil => exact (h.first_continues delimited_nil rfl).elim
  | cons c text =>
      by_cases hc : c = 0xEF
      · subst hc
        exact (h.first_continues delimited_nil rfl).elim
      · unfold Lexer.skipBom
        split <;> simp_all

/-- After the opening bracket: the elements, the commas and the closing bracket. -/
structure ReadsElements (fmt : DoubleFormat F) (text : Bytes) (elements : List (Json F)) :
    Prop where
  ne_endArray : ∀ rest, (scan fmt (text ++ 0x5D :: rest)).1 ≠ .endArray
  reaches : ∀ (stack : List (Frame F)) (read : List (Json F)) (rest : Bytes),
    Loop.Reaches (parserBody fmt) (nextValue fmt (.inArray read :: stack) (text ++ 0x5D :: rest))
      (.evaluate stack (.array (read ++ elements)) rest)

theorem Reads.singleElement {text : Bytes} {v : Json F} (h : Reads fmt text v) :
    ReadsElements fmt text [v] where
  ne_endArray rest := h.ne_endArray (delimited_cons (by decide) rest)
  reaches stack read rest :=
    (h (.inArray read :: stack) (delimited_cons (by decide) rest)).trans (.single rfl)

theorem Reads.consElement {text textElements : Bytes} {v : Json F} {elements : List (Json F)}
    (h : Reads fmt text v) (helements : ReadsElements fmt textElements elements) :
    ReadsElements fmt (text ++ 0x2C :: textElements) (v :: elements) where
  ne_endArray rest := by
    rw [List.append_assoc]
    exact h.ne_endArray (delimited_cons (by decide) _)
  reaches stack read rest := by
    rw [List.append_assoc, List.cons_append]
    refine (h (.inArray read :: stack) (delimited_cons (by decide) _)).trans (.head rfl ?_)
    rw [show read ++ v :: elements = (read ++ [v]) ++ elements by simp]
    exact helements.reaches stack (read ++ [v]) rest

theorem reads_emptyArray : Reads fmt [0x5B, 0x5D] (.array []) :=
  fun _ _ _ => .single rfl

theorem ReadsElements.array {text : Bytes} {elements : List (Json F)}
    (h : ReadsElements fmt text elements) :
    Reads fmt (0x5B :: text ++ [0x5D]) (.array elements) := by
  intro stack rest _
  refine .head ?_ (h.reaches stack [] rest)
  have hne := h.ne_endArray rest
  rw [List.append_assoc, List.singleton_append]
  change parseValue fmt stack (text ++ 0x5D :: rest) .beginArray = _
  rcases hscan : scan fmt (text ++ 0x5D :: rest) with ⟨token, rest'⟩
  rw [hscan] at hne
  simp only [parseValue, nextValue, hscan]

/-- A key, the members after it and the closing brace. -/
def ReadsMembers (fmt : DoubleFormat F) (text : Bytes) (members : List (Bytes × Json F)) : Prop :=
  ∀ (stack : List (Frame F)) (read : List (Bytes × Json F)) (rest : Bytes),
    SortedMap.Sorted (read ++ members) →
    ∃ s, parseKey fmt stack read (scan fmt (text ++ 0x7D :: rest)) = .inl s ∧
      Loop.Reaches (parserBody fmt) s (.evaluate stack (.object (read ++ members)) rest)

/-- Keys arrive in increasing order, so every one of them is new. -/
theorem assign_of_sorted {key : Bytes} {v : Json F} {read members : List (Bytes × Json F)}
    (hs : SortedMap.Sorted (read ++ (key, v) :: members)) :
    SortedMap.assign key v read = read ++ [(key, v)] :=
  SortedMap.assign_eq_append fun e he =>
    (List.pairwise_append.mp hs).2.2 e he (key, v) List.mem_cons_self

theorem reads_emptyObject : Reads fmt [0x7B, 0x7D] (.object []) :=
  fun _ _ _ => .single rfl

theorem ReadsMembers.object {text : Bytes} {members : List (Bytes × Json F)}
    (h : ReadsMembers fmt text members) (hs : SortedMap.Sorted members) :
    Reads fmt (0x7B :: text ++ [0x7D]) (.object members) := by
  intro stack rest _
  obtain ⟨s, hparse, hreach⟩ := h stack [] rest hs
  refine .head ?_ hreach
  rw [List.append_assoc, List.singleton_append]
  change parseValue fmt stack (text ++ 0x7D :: rest) .beginObject = _
  rcases hscan : scan fmt (text ++ 0x7D :: rest) with ⟨token, rest'⟩
  rw [hscan] at hparse
  simp only [parseValue, hscan]
  cases token with
  | endObject => simp [parseKey] at hparse
  | _ => exact hparse

section Members

variable {key textKey text : Bytes} {v : Json F}

theorem parseKey_text (hkey : ∀ rest, scan fmt (textKey ++ rest) = (.valueString key, rest))
    (stack : List (Frame F)) (read : List (Bytes × Json F)) (rest : Bytes) :
    parseKey fmt stack read (scan fmt (textKey ++ 0x3A :: rest)) =
      .inl (nextValue fmt (.inObject read key :: stack) rest) := by
  rw [hkey]
  rfl

theorem Reads.singleMember (hkey : ∀ rest, scan fmt (textKey ++ rest) = (.valueString key, rest))
    (h : Reads fmt text v) : ReadsMembers fmt (textKey ++ 0x3A :: text) [(key, v)] := by
  intro stack read rest hs
  refine ⟨nextValue fmt (.inObject read key :: stack) (text ++ 0x7D :: rest), ?_, ?_⟩
  · rw [List.append_assoc, List.cons_append, parseKey_text hkey]
  · refine (h (.inObject read key :: stack) (delimited_cons (by decide) rest)).trans (.single ?_)
    rw [← assign_of_sorted hs]
    rfl

theorem Reads.consMember {textMembers : Bytes} {members : List (Bytes × Json F)}
    (hkey : ∀ rest, scan fmt (textKey ++ rest) = (.valueString key, rest))
    (h : Reads fmt text v) (hmembers : ReadsMembers fmt textMembers members) :
    ReadsMembers fmt (textKey ++ 0x3A :: text ++ 0x2C :: textMembers) ((key, v) :: members) := by
  intro stack read rest hs
  have hs' : SortedMap.Sorted ((read ++ [(key, v)]) ++ members) := by
    rwa [List.append_assoc, List.singleton_append]
  obtain ⟨s, hparse, hreach⟩ := hmembers stack (read ++ [(key, v)]) rest hs'
  refine ⟨nextValue fmt (.inObject read key :: stack) (text ++ 0x2C :: (textMembers ++ 0x7D :: rest)),
    ?_, ?_⟩
  · rw [List.append_assoc, List.append_assoc, List.cons_append, List.cons_append,
      parseKey_text hkey]
  · rw [List.append_assoc, List.singleton_append] at hreach
    refine (h (.inObject read key :: stack) (delimited_cons (by decide) _)).trans
      (.head ?_ hreach)
    rw [← assign_of_sorted hs] at hparse
    exact hparse

end Members

/-! ### Numbers -/

theorem reads_numberInteger {value : Int} (hlow : -2 ^ 63 ≤ value) (hhigh : value < 2 ^ 64) :
    Reads fmt (decimal value) (.numberInteger value) := by
  by_cases hneg : value < 0
  · refine reads_of_token (.valueInteger value) (fun {rest} hrest => ?_)
      fun stack rest => rfl
    rw [decimal, if_pos hneg, List.cons_append, scan_number fmt (Or.inl rfl),
      scanNumber_negative fmt (by omega) hrest]
    rw [show -(value.natAbs : Int) = value by omega]
  · have habs : (value.natAbs : Int) = value := by omega
    refine reads_of_token (.valueUnsigned value.natAbs) (fun {rest} hrest => ?_)
      fun stack rest => by simp [parseValue, habs]
    obtain ⟨c, ds, htext, hc, hscan⟩ :=
      scanNumber_decimalNat fmt (n := value.natAbs) (by omega) hrest
    rw [decimal, if_neg hneg, htext, scan_number fmt (Or.inr hc), hscan]

theorem reads_numberFloat (h : fmt.RoundTrips) (value : F) :
    Reads fmt (fmt.dumpFloat value) (Json.asWritten fmt (.numberFloat value)) := by
  by_cases hfinite : fmt.isfinite value = true
  · rw [DoubleFormat.dumpFloat, if_pos hfinite, Json.asWritten, if_pos hfinite]
    refine reads_of_token (.valueFloat value) (fun {rest} hrest => ?_)
      fun stack rest => by simp [parseValue, hfinite]
    obtain ⟨c, input, htext, hc, hscan⟩ := h.scanNumber_toChars hfinite hrest
    rw [htext, scan_number fmt hc, hscan]
  · rw [DoubleFormat.dumpFloat, if_neg hfinite, Json.asWritten, if_neg hfinite]
    exact reads_of_token .literalNull (fun _ => rfl) fun stack rest => rfl

/-! ### The induction -/

variable {P : F → Prop}

mutual

/-- Writing a well-formed value succeeds, and the text is read as `asWritten`. -/
theorem dump_reads (h : ∀ x, P x → Reads fmt (fmt.dumpFloat x) (Json.asWritten fmt (.numberFloat x))) :
    ∀ v : Json F, v.WellFormed P →
      ∃ text, v.dump fmt = .ok text ∧ Reads fmt text (v.asWritten fmt)
  | .null, _ =>
      ⟨ascii "null", rfl,
        reads_of_token .literalNull (fun _ => rfl) fun _ _ => rfl⟩
  | .boolean true, _ =>
      ⟨ascii "true", rfl,
        reads_of_token .literalTrue (fun _ => rfl) fun _ _ => rfl⟩
  | .boolean false, _ =>
      ⟨ascii "false", rfl,
        reads_of_token .literalFalse (fun _ => rfl) fun _ _ => rfl⟩
  | .numberInteger value, hwf => by
      rw [Json.WellFormed] at hwf
      refine ⟨decimal value, ?_, reads_numberInteger hwf.1 hwf.2⟩
      rw [Json.dump, dumpInteger_eq_decimal]
      rfl
  | .numberFloat value, hwf => by
      rw [Json.WellFormed] at hwf
      exact ⟨fmt.dumpFloat value, rfl, h value hwf⟩
  | .string value, hwf => by
      rw [Json.WellFormed] at hwf
      obtain ⟨text, hdump, hscan⟩ := dumpString_scan fmt hwf
      refine ⟨text, ?_, reads_of_token (.valueString value)
        (fun {rest} _ => hscan rest) fun _ _ => rfl⟩
      rw [Json.dump, hdump]
  | .array [], _ => ⟨[0x5B, 0x5D], rfl, reads_emptyArray⟩
  | .array (element :: elements), hwf => by
      rw [Json.WellFormed] at hwf
      obtain ⟨text, hdump, helements⟩ := dumpElements_reads h (element :: elements) (by simp) hwf
      refine ⟨0x5B :: text ++ [0x5D], ?_, helements.array⟩
      rw [Json.dump, hdump]
      rfl
  | .object [], _ => ⟨[0x7B, 0x7D], rfl, reads_emptyObject⟩
  | .object (member :: members), hwf => by
      rw [Json.WellFormed] at hwf
      obtain ⟨text, hdump, hmembers⟩ :=
        dumpMembers_reads h (member :: members) (by simp) hwf.2
      refine ⟨0x7B :: text ++ [0x7D], ?_,
        hmembers.object (Json.sorted_asWrittenMembers fmt hwf.1)⟩
      rw [Json.dump, hdump]
      rfl

theorem dumpElements_reads (h : ∀ x, P x → Reads fmt (fmt.dumpFloat x) (Json.asWritten fmt (.numberFloat x))) :
    ∀ elements : List (Json F), elements ≠ [] → Json.WellFormedElements P elements →
      ∃ text, Json.dumpElements fmt elements = .ok text ∧
        ReadsElements fmt text (Json.asWrittenElements fmt elements)
  | [], hne, _ => absurd rfl hne
  | [element], _, hwf => by
      rw [Json.WellFormedElements] at hwf
      obtain ⟨text, hdump, hreads⟩ := dump_reads h element hwf.1
      exact ⟨text, by rw [Json.dumpElements, hdump], hreads.singleElement⟩
  | element :: next :: elements, _, hwf => by
      rw [Json.WellFormedElements] at hwf
      obtain ⟨text, hdump, hreads⟩ := dump_reads h element hwf.1
      obtain ⟨text', hdump', hreads'⟩ :=
        dumpElements_reads h (next :: elements) (by simp) hwf.2
      refine ⟨text ++ 0x2C :: text', ?_, hreads.consElement hreads'⟩
      rw [Json.dumpElements, hdump, hdump']
      rfl

theorem dumpMembers_reads (h : ∀ x, P x → Reads fmt (fmt.dumpFloat x) (Json.asWritten fmt (.numberFloat x))) :
    ∀ members : List (Bytes × Json F), members ≠ [] → Json.WellFormedMembers P members →
      ∃ text, Json.dumpMembers fmt members = .ok text ∧
        ReadsMembers fmt text (Json.asWrittenMembers fmt members)
  | [], hne, _ => absurd rfl hne
  | [(key, value)], _, hwf => by
      rw [Json.WellFormedMembers] at hwf
      obtain ⟨textKey, hkey, hscan⟩ := dumpString_scan fmt hwf.1
      obtain ⟨text, hdump, hreads⟩ := dump_reads h value hwf.2.1
      refine ⟨textKey ++ 0x3A :: text, ?_, hreads.singleMember hscan⟩
      rw [Json.dumpMembers, hkey, hdump]
      rfl
  | (key, value) :: next :: members, _, hwf => by
      rw [Json.WellFormedMembers] at hwf
      obtain ⟨textKey, hkey, hscan⟩ := dumpString_scan fmt hwf.1
      obtain ⟨text, hdump, hreads⟩ := dump_reads h value hwf.2.1
      obtain ⟨text', hdump', hreads'⟩ :=
        dumpMembers_reads h (next :: members) (by simp) hwf.2.2
      refine ⟨textKey ++ 0x3A :: text ++ 0x2C :: text', ?_, hreads.consMember hscan hreads'⟩
      rw [Json.dumpMembers, hkey, hdump, hdump']
      rfl

end

/-- `json::parse` of a text that the loop reads as one value. -/
theorem Reads.parse {text : Bytes} {v : Json F} (h : Reads fmt text v) :
    Json.parse fmt text = .ok v := by
  have hloop : saxParseInternal fmt text = .ok (v, []) := by
    have hreach := h [] delimited_nil
    rw [List.append_nil] at hreach
    exact Loop.iterate_of_reaches (parserBody_decreases fmt) hreach rfl
  have hend : scan fmt [] = (.endOfInput, []) := rfl
  simp only [Json.parse, h.skipBom, hloop, hend]

/-- `parse` undoes `dump`. -/
theorem Json.parse_dump (h : fmt.RoundTrips) {v : Json F} (hv : v.WellFormed fun _ => True) :
    ∃ text, v.dump fmt = .ok text ∧ Json.parse fmt text = .ok (v.asWritten fmt) := by
  obtain ⟨text, hdump, hreads⟩ := dump_reads (fun x _ => reads_numberFloat h x) v hv
  exact ⟨text, hdump, hreads.parse⟩

/-- Without floating-point numbers nothing is assumed of their texts. -/
theorem Json.parse_dump_of_noFloats (fmt : DoubleFormat F) {v : Json F}
    (hv : v.WellFormed fun _ => False) :
    ∃ text, v.dump fmt = .ok text ∧ Json.parse fmt text = .ok v := by
  obtain ⟨text, hdump, hreads⟩ := dump_reads (fun _ hx => absurd hx not_false) v hv
  rw [Json.asWritten_of_noFloats fmt hv] at hreads
  exact ⟨text, hdump, hreads.parse⟩

end ExchangeClient
