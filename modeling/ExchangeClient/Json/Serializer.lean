import ExchangeClient.Json.Number

/-!
# Writing JSON

`serializer::dump` without indentation, as `json::dump()` calls it, and under it
`dump_escaped` with the `strict` error handler and the UTF-8 decoder it drives.
Writing fails on exactly one thing here, a string that is not UTF-8.
-/

namespace ExchangeClient

open Decimal

namespace Serializer

/-! ### The UTF-8 decoder -/

def utf8Accept : Nat := 0
def utf8Reject : Nat := 1

/-- The table `utf8d`: the classes of the 256 bytes, then one row of sixteen
transitions for each state. -/
def utf8d : List Nat :=
  [0, 0, 0, 0, 0, 0, 0, 0, 0, 0, 0, 0, 0, 0, 0, 0, 0, 0, 0, 0, 0, 0, 0, 0, 0, 0, 0, 0, 0, 0, 0, 0,
   0, 0, 0, 0, 0, 0, 0, 0, 0, 0, 0, 0, 0, 0, 0, 0, 0, 0, 0, 0, 0, 0, 0, 0, 0, 0, 0, 0, 0, 0, 0, 0,
   0, 0, 0, 0, 0, 0, 0, 0, 0, 0, 0, 0, 0, 0, 0, 0, 0, 0, 0, 0, 0, 0, 0, 0, 0, 0, 0, 0, 0, 0, 0, 0,
   0, 0, 0, 0, 0, 0, 0, 0, 0, 0, 0, 0, 0, 0, 0, 0, 0, 0, 0, 0, 0, 0, 0, 0, 0, 0, 0, 0, 0, 0, 0, 0,
   1, 1, 1, 1, 1, 1, 1, 1, 1, 1, 1, 1, 1, 1, 1, 1, 9, 9, 9, 9, 9, 9, 9, 9, 9, 9, 9, 9, 9, 9, 9, 9,
   7, 7, 7, 7, 7, 7, 7, 7, 7, 7, 7, 7, 7, 7, 7, 7, 7, 7, 7, 7, 7, 7, 7, 7, 7, 7, 7, 7, 7, 7, 7, 7,
   8, 8, 2, 2, 2, 2, 2, 2, 2, 2, 2, 2, 2, 2, 2, 2, 2, 2, 2, 2, 2, 2, 2, 2, 2, 2, 2, 2, 2, 2, 2, 2,
   0xA, 0x3, 0x3, 0x3, 0x3, 0x3, 0x3, 0x3, 0x3, 0x3, 0x3, 0x3, 0x3, 0x4, 0x3, 0x3,
   0xB, 0x6, 0x6, 0x6, 0x5, 0x8, 0x8, 0x8, 0x8, 0x8, 0x8, 0x8, 0x8, 0x8, 0x8, 0x8,
   0x0, 0x1, 0x2, 0x3, 0x5, 0x8, 0x7, 0x1, 0x1, 0x1, 0x4, 0x6, 0x1, 0x1, 0x1, 0x1,
   1, 1, 1, 1, 1, 1, 1, 1, 1, 1, 1, 1, 1, 1, 1, 1, 1, 0, 1, 1, 1, 1, 1, 0, 1, 0, 1, 1, 1, 1, 1, 1,
   1, 2, 1, 1, 1, 1, 1, 2, 1, 2, 1, 1, 1, 1, 1, 1, 1, 1, 1, 1, 1, 1, 1, 2, 1, 1, 1, 1, 1, 1, 1, 1,
   1, 2, 1, 1, 1, 1, 1, 1, 1, 2, 1, 1, 1, 1, 1, 1, 1, 1, 1, 1, 1, 1, 1, 3, 1, 3, 1, 1, 1, 1, 1, 1,
   1, 3, 1, 1, 1, 1, 1, 3, 1, 3, 1, 1, 1, 1, 1, 1, 1, 3, 1, 1, 1, 1, 1, 1, 1, 1, 1, 1, 1, 1, 1, 1]

/-- `decode`: the next state and the code point read so far. -/
def decode (state codep : Nat) (byte : UInt8) : Nat × Nat :=
  let type := utf8d.getD byte.toNat 0
  (utf8d.getD (256 + state * 16 + type) 0,
    if state ≠ utf8Accept then (byte.toNat &&& 0x3F) ||| (codep <<< 6)
    else (0xFF >>> type) &&& byte.toNat)

/-! ### Escaping -/

def lowerHexDigit (n : Nat) : UInt8 := UInt8.ofNat (if n < 10 then 0x30 + n else 0x57 + n)

def upperHexDigit (n : Nat) : UInt8 := UInt8.ofNat (if n < 10 then 0x30 + n else 0x37 + n)

/-- `%04x` of a 16-bit number. -/
def hex4 (n : Nat) : Bytes :=
  [lowerHexDigit (n / 4096 % 16), lowerHexDigit (n / 256 % 16), lowerHexDigit (n / 16 % 16),
    lowerHexDigit (n % 16)]

/-- `%.2X` of a byte. -/
def hex2 (b : UInt8) : Bytes := [upperHexDigit (b.toNat / 16), upperHexDigit (b.toNat % 16)]

/-- What is written when `decode` has completed `codepoint` with `byte`. -/
def escape (ensureAscii : Bool) (codepoint : Nat) (byte : UInt8) : Bytes :=
  if codepoint = 0x08 then [0x5C, 0x62]
  else if codepoint = 0x09 then [0x5C, 0x74]
  else if codepoint = 0x0A then [0x5C, 0x6E]
  else if codepoint = 0x0C then [0x5C, 0x66]
  else if codepoint = 0x0D then [0x5C, 0x72]
  else if codepoint = 0x22 then [0x5C, 0x22]
  else if codepoint = 0x5C then [0x5C, 0x5C]
  else if codepoint ≤ 0x1F ∨ (ensureAscii = true ∧ codepoint ≥ 0x7F) then
    if codepoint ≤ 0xFFFF then 0x5C :: 0x75 :: hex4 codepoint
    else
      0x5C :: 0x75 :: (hex4 (0xD7C0 + (codepoint >>> 10)) ++
        0x5C :: 0x75 :: hex4 (0xDC00 + (codepoint &&& 0x3FF)))
  else [byte]

/-- The loop of `dump_escaped`, at index `i` with the decoder in `state`. -/
def dumpEscapedLoop (ensureAscii : Bool) (s : Bytes) :
    Nat → Nat → Nat → Bytes → Except JsonException Bytes
  | _, state, _, [] =>
      if state = utf8Accept then .ok []
      else
        .error (.typeError 316
          (ascii "incomplete UTF-8 string; last byte: 0x" ++ hex2 (s.getLastD 0)))
  | i, state, codep, byte :: rest =>
      let next := decode state codep byte
      if next.1 = utf8Accept then do
        let out ← dumpEscapedLoop ensureAscii s (i + 1) next.1 next.2 rest
        return escape ensureAscii next.2 byte ++ out
      else if next.1 = utf8Reject then
        .error (.typeError 316
          (ascii "invalid UTF-8 byte at index " ++ decimalNat i ++ ascii ": 0x" ++ hex2 byte))
      else do
        let out ← dumpEscapedLoop ensureAscii s (i + 1) next.1 next.2 rest
        return if ensureAscii then out else byte :: out

def dumpEscaped (s : Bytes) (ensureAscii : Bool) : Except JsonException Bytes :=
  dumpEscapedLoop ensureAscii s 0 utf8Accept 0 s

end Serializer

namespace Json

open Serializer

variable {F : Type} (fmt : DoubleFormat F)

def dumpString (s : Bytes) : Except JsonException Bytes := do
  return 0x22 :: (← dumpEscaped s false) ++ [0x22]

mutual

/-- `dump`, not pretty-printed. -/
def dump : Json F → Except JsonException Bytes
  | .object members => return 0x7B :: (← dumpMembers members) ++ [0x7D]
  | .array elements => return 0x5B :: (← dumpElements elements) ++ [0x5D]
  | .string value => dumpString value
  | .boolean value => return if value then ascii "true" else ascii "false"
  | .numberInteger value => return dumpInteger value
  | .numberFloat value => return fmt.dumpFloat value
  | .null => return ascii "null"

def dumpElements : List (Json F) → Except JsonException Bytes
  | [] => return []
  | [element] => dump element
  | element :: next :: elements =>
      return (← dump element) ++ 0x2C :: (← dumpElements (next :: elements))

def dumpMembers : List (Bytes × Json F) → Except JsonException Bytes
  | [] => return []
  | [(key, value)] => return (← dumpString key) ++ 0x3A :: (← dump value)
  | (key, value) :: next :: members =>
      return (← dumpString key) ++ 0x3A :: (← dump value) ++
        0x2C :: (← dumpMembers (next :: members))

end

end Json

namespace Serializer

/-! ### Valid UTF-8 passes the decoder -/

/-- The state of the decoder when octets in the given ranges have to follow. -/
def stateOf : List Utf8.Range → Nat
  | [] => 0
  | [_] => 2
  | [r, _] => if r.1 = 0xA0 then 4 else if r.2 = 0x9F then 5 else 3
  | r :: _ => if r.1 = 0x90 then 6 else if r.2 = 0x8F then 8 else 7

/-- A lower bound of the code point read so far that makes the finished one lie
outside ASCII. -/
def floorOf : List Utf8.Range → Nat
  | [] => 0x80
  | [_] => 2
  | r :: _ => if r.1 = 0x80 then 1 else 0

theorem decode_lead {lead : UInt8} {ranges : List Utf8.Range} (codep : Nat)
    (h : Utf8.tails lead = some ranges) :
    (decode utf8Accept codep lead).1 = stateOf ranges ∧
      (ranges = [] → (decode utf8Accept codep lead).2 = lead.toNat) ∧
      (ranges ≠ [] → floorOf ranges ≤ (decode utf8Accept codep lead).2) := by
  have hall : ∀ b : UInt8, ∀ row ∈ Utf8.rows, Utf8.tails b = some row →
      (decode utf8Accept 0 b).1 = stateOf row ∧
        (row = [] → (decode utf8Accept 0 b).2 = b.toNat) ∧
        (row ≠ [] → floorOf row ≤ (decode utf8Accept 0 b).2) :=
    forall_uint8 (by decide +kernel)
  exact hall lead ranges (Utf8.tails_mem_rows h) h

theorem decode_tail_state {r : Utf8.Range} {ranges : List Utf8.Range} {octet : UInt8}
    (codep : Nat) (hrow : r :: ranges ∈ Utf8.rows) (hoctet : r.Holds octet) :
    ranges ∈ Utf8.rows ∧ (decode (stateOf (r :: ranges)) codep octet).1 = stateOf ranges ∧
      (floorOf (r :: ranges) = 0 → ranges ≠ [] ∧ 2 ≤ octet.toNat &&& 0x3F) := by
  have htail : ∀ row ∈ Utf8.rows, row.tail ∈ Utf8.rows := by decide
  have hstate : ∀ b : UInt8, ∀ row ∈ Utf8.rows, row ≠ [] →
      row.head?.all (fun head => head.Holds b) = true →
      (decode (stateOf row) 0 b).1 = stateOf row.tail := forall_uint8 (by decide +kernel)
  have hfloor : ∀ b : UInt8, ∀ row ∈ Utf8.rows,
      row.head?.all (fun head => head.Holds b) = true →
      floorOf row = 0 → row.tail ≠ [] ∧ 2 ≤ b.toNat &&& 0x3F := forall_uint8 (by decide +kernel)
  have hhead : (r :: ranges).head?.all (fun head => head.Holds octet) = true := by
    simpa using hoctet
  exact ⟨htail _ hrow, hstate octet _ hrow (by simp) hhead, hfloor octet _ hrow hhead⟩

theorem decode_tail_codep {r : Utf8.Range} {ranges : List Utf8.Range} {octet : UInt8}
    {codep : Nat} (hrow : r :: ranges ∈ Utf8.rows) (hoctet : r.Holds octet)
    (hcodep : floorOf (r :: ranges) ≤ codep) :
    floorOf ranges ≤ (decode (stateOf (r :: ranges)) codep octet).2 := by
  obtain ⟨hranges, -, hzero⟩ := decode_tail_state codep hrow hoctet
  have hbound : ∀ row ∈ Utf8.rows, floorOf row ≤ 0x80 ∧ (row ≠ [] → floorOf row ≤ 2) := by
    decide
  have hstate : ∀ row ∈ Utf8.rows, row ≠ [] → stateOf row ≠ utf8Accept := by decide
  have hsecond : ∀ row ∈ Utf8.rows, row.tail = [] → row ≠ [] → floorOf row = 2 := by decide
  have hvalue : (decode (stateOf (r :: ranges)) codep octet).2 =
      (octet.toNat &&& 0x3F) ||| (codep <<< 6) := by
    simp only [decode, if_pos (hstate _ hrow (by simp))]
  have hlow : octet.toNat &&& 0x3F ≤ (octet.toNat &&& 0x3F) ||| (codep <<< 6) :=
    Nat.left_le_or
  have hhigh : codep * 64 ≤ (octet.toNat &&& 0x3F) ||| (codep <<< 6) := by
    simpa [Nat.shiftLeft_eq] using
      (Nat.right_le_or : codep <<< 6 ≤ (octet.toNat &&& 0x3F) ||| (codep <<< 6))
  rw [hvalue]
  by_cases hempty : ranges = []
  · have hfloor := hsecond _ hrow hempty (by simp)
    have := (hbound ranges hranges).1
    omega
  · have hfloor := (hbound ranges hranges).2 hempty
    by_cases hz : floorOf (r :: ranges) = 0
    · have := (hzero hz).2
      omega
    · omega

end Serializer

end ExchangeClient
