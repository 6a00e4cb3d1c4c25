import ExchangeClient.Json.Serializer
import ExchangeClient.Json.Lexer

/-!
# String literals are read back as they were written

`dump_escaped` and `scan_string` go over a string in different ways, byte by byte
through a decoder and character by character through a table of ranges. The
relation `Escaped` between a string and its literal stands between them: the
writer produces only literals related to the string, and the reader returns the
string from every one of them.
-/

namespace ExchangeClient

open Serializer Lexer

/-- `Escaped out s`: `out` spells `s`, one character after the other. An ASCII
character may be escaped, a longer one is copied. -/
inductive Escaped : Bytes → Bytes → Prop
  | nil : Escaped [] []
  | ascii {b : UInt8} {out s : Bytes} :
      b ≤ 0x7F → Escaped out s → Escaped (escape false b.toNat b ++ out) (b :: s)
  | multi {lead : UInt8} {r : Utf8.Range} {ranges : List Utf8.Range} {octets out s : Bytes} :
      Utf8.tails lead = some (r :: ranges) → List.Forall₂ Utf8.Range.Holds (r :: ranges) octets →
      Escaped out s → Escaped (lead :: (octets ++ out)) (lead :: (octets ++ s))

/-! ### Writing -/

/-- In the accepting state the code point is overwritten before it is used. -/
theorem dumpEscapedLoop_accept (s : Bytes) (i codep : Nat) (rest : Bytes) :
    dumpEscapedLoop false s i utf8Accept codep rest =
      dumpEscapedLoop false s i utf8Accept 0 rest := by
  cases rest with
  | nil => rfl
  | cons byte rest => rfl

/-- The octets after a first octet are copied, and then the decoder accepts a
code point outside ASCII, which is not escaped. -/
theorem dumpEscapedLoop_octets (s rest : Bytes) {out : Bytes}
    (hrest : ∀ i, dumpEscapedLoop false s i utf8Accept 0 rest = .ok out) :
    ∀ {ranges : List Utf8.Range} {octets : Bytes} {i codep : Nat}, ranges ∈ Utf8.rows →
      ranges ≠ [] → floorOf ranges ≤ codep → List.Forall₂ Utf8.Range.Holds ranges octets →
      dumpEscapedLoop false s i (stateOf ranges) codep (octets ++ rest) = .ok (octets ++ out) := by
  intro ranges
  -- the state says which continuation bytes are still to come
  induction ranges with
  | nil => intro octets i codep _ hne; exact absurd rfl hne
  | cons r ranges ih =>
      intro octets i codep hrow _ hfloor hoctets
      cases hoctets with
      | @cons _ octet _ octets hoctet htail =>
          obtain ⟨hranges, hstate, -⟩ := decode_tail_state codep hrow hoctet
          have hcodep := decode_tail_codep hrow hoctet hfloor
          rw [List.cons_append, dumpEscapedLoop]
          simp only [hstate]
          cases ranges with
          | nil =>
              cases htail
              have hge : 0x80 ≤ (decode (stateOf [r]) codep octet).2 := hcodep
              have hescape : escape false (decode (stateOf [r]) codep octet).2 octet = [octet] := by
                unfold escape
                repeat rw [if_neg (by omega)]
                rw [if_neg (by simp; omega)]
              rw [if_pos (by rfl), show stateOf [] = utf8Accept from rfl, List.nil_append,
                dumpEscapedLoop_accept, hrest, hescape]
              rfl
          | cons r' ranges =>
              have hstates : ∀ row ∈ Utf8.rows, row ≠ [] →
                  stateOf row ≠ utf8Accept ∧ stateOf row ≠ utf8Reject := by decide
              obtain ⟨haccept, hreject⟩ := hstates _ hranges (by simp)
              rw [if_neg haccept, if_neg hreject, ih hranges (by simp) hcodep htail]
              rfl

theorem dumpEscapedLoop_valid (s : Bytes) {rest : Bytes} (hrest : Utf8.Valid rest) :
    ∃ out, Escaped out rest ∧ ∀ i, dumpEscapedLoop false s i utf8Accept 0 rest = .ok out := by
  induction hrest with
  | nil => exact ⟨[], .nil, fun i => rfl⟩
  | @char lead ranges octets rest hlead hoctets _ ih =>
      obtain ⟨out, hout, hloop⟩ := ih
      obtain ⟨hstate, hascii, hfloor⟩ := decode_lead 0 hlead
      cases ranges with
      | nil =>
          cases hoctets
          have hle : lead ≤ 0x7F := by
            by_contra hgt
            have hnone : ∀ b : UInt8, ¬ b ≤ 0x7F → Utf8.tails b ≠ some [] :=
              forall_uint8 (by decide +kernel)
            exact hnone lead hgt hlead
          refine ⟨escape false lead.toNat lead ++ out, .ascii hle hout, fun i => ?_⟩
          rw [List.nil_append, dumpEscapedLoop]
          simp only [hstate, hascii rfl]
          rw [if_pos (by rfl), show stateOf [] = utf8Accept from rfl, dumpEscapedLoop_accept, hloop]
          rfl
      | cons r ranges =>
          refine ⟨lead :: (octets ++ out), .multi hlead hoctets hout, fun i => ?_⟩
          have hrow := Utf8.tails_mem_rows hlead
          have hstates : ∀ row ∈ Utf8.rows, row ≠ [] →
              stateOf row ≠ utf8Accept ∧ stateOf row ≠ utf8Reject := by decide
          obtain ⟨haccept, hreject⟩ := hstates _ hrow (by simp)
          rw [dumpEscapedLoop]
          simp only [hstate]
          rw [if_neg haccept, if_neg hreject,
            dumpEscapedLoop_octets s rest hloop hrow (by simp) (hfloor (by simp)) hoctets]
          rfl

theorem dumpEscaped_valid {s : Bytes} (hs : Utf8.Valid s) :
    ∃ out, Escaped out s ∧ dumpEscaped s false = .ok out := by
  obtain ⟨out, hout, hloop⟩ := dumpEscapedLoop_valid s hs
  exact ⟨out, hout, hloop 0⟩

/-! ### Reading -/

theorem hexValue_lowerHexDigit : ∀ {d : Nat}, d < 16 → hexValue (lowerHexDigit d) = some d := by
  decide

theorem getCodepoint_hex4 {n : Nat} (hn : n < 0x10000) (rest : Bytes) :
    getCodepoint (hex4 n ++ rest) = some (n, rest) := by
  have hsum : 0 + (n / 4096 % 16) <<< 12 + (n / 256 % 16) <<< 8 + (n / 16 % 16) <<< 4 +
      (n % 16) <<< 0 = n := by
    simp only [Nat.shiftLeft_eq]
    omega
  simp only [getCodepoint, hex4, List.cons_append, List.nil_append, getCodepointLoop,
    hexValue_lowerHexDigit (Nat.mod_lt _ (by decide : 0 < 16)), hsum]

theorem nextByteInRange_append {ranges : List Utf8.Range} {octets : Bytes}
    (h : List.Forall₂ Utf8.Range.Holds ranges octets) (rest : Bytes) :
    nextByteInRange ranges (octets ++ rest) = some (octets, rest) := by
  induction h with
  | nil => rfl
  | @cons r b ranges octets hr _ ih =>
      have hb : r.1 ≤ b ∧ b ≤ r.2 := hr
      rw [List.cons_append, nextByteInRange, if_pos hb, ih]
      rfl

def shortEscapes : List (UInt8 × UInt8) :=
  [(0x08, 0x62), (0x09, 0x74), (0x0A, 0x6E), (0x0C, 0x66), (0x0D, 0x72), (0x22, 0x22), (0x5C, 0x5C)]

theorem escape_cases (b : UInt8) (hb : b ≤ 0x7F) :
    (∃ e, (b, e) ∈ shortEscapes ∧ escape false b.toNat b = [0x5C, e]) ∨
      (b ≤ 0x1F ∧ escape false b.toNat b = 0x5C :: 0x75 :: hex4 b.toNat) ∨
      (¬ b ≤ 0x1F ∧ b ≠ 0x22 ∧ b ≠ 0x5C ∧ escape false b.toNat b = [b]) := by
  have hall : ∀ b : UInt8, b ≤ 0x7F →
      (∃ p ∈ shortEscapes, p.1 = b ∧ escape false b.toNat b = [0x5C, p.2]) ∨
        (b ≤ 0x1F ∧ escape false b.toNat b = 0x5C :: 0x75 :: hex4 b.toNat) ∨
        (¬ b ≤ 0x1F ∧ b ≠ 0x22 ∧ b ≠ 0x5C ∧ escape false b.toNat b = [b]) :=
    forall_uint8 (by decide +kernel)
  rcases hall b hb with ⟨⟨c, e⟩, hmem, rfl, heq⟩ | h | h
  · exact Or.inl ⟨e, hmem, heq⟩
  · exact Or.inr (Or.inl h)
  · exact Or.inr (Or.inr h)

theorem reaches_escape {b : UInt8} (hb : b ≤ 0x7F) (buffer rest : Bytes) :
    Loop.Reaches scanStringBody (buffer, escape false b.toNat b ++ rest) (buffer ++ [b], rest) := by
  apply Loop.Reaches.single
  rcases escape_cases b hb with ⟨e, hmem, heq⟩ | ⟨hcontrol, heq⟩ | ⟨hcontrol, hquote, hslash, heq⟩
  · have hsimple : shortEscapes.all (fun p => p.2 ≠ 0x75 ∧ simpleEscape p.2 = some p.1) = true := by
      decide
    obtain ⟨hu, hvalue⟩ := of_decide_eq_true (List.all_eq_true.mp hsimple _ hmem)
    rw [heq]
    simp only [List.cons_append, List.nil_append, scanStringBody]
    rw [if_neg (by decide)]
    simp only [scanCharacter, if_pos, scanEscape, if_neg hu, hvalue]
  · have hencode : ∀ b : UInt8, b ≤ 0x1F → encodeCodepoint b.toNat = [b] ∧ b.toNat < 0xD800 :=
      forall_uint8 (by decide +kernel)
    obtain ⟨hbytes, hlow⟩ := hencode b hcontrol
    rw [heq]
    simp only [List.cons_append, scanStringBody]
    rw [if_neg (by decide)]
    simp only [scanCharacter, if_pos, scanEscape, scanUnicode,
      getCodepoint_hex4 (by omega : b.toNat < 0x10000)]
    rw [if_neg (by omega), if_neg (by omega), hbytes]
  · rw [heq]
    simp only [List.cons_append, List.nil_append, scanStringBody]
    rw [if_neg hquote]
    simp only [scanCharacter, if_neg hslash, if_neg hcontrol, Utf8.tails_ascii hb,
      nextByteInRange]

theorem reaches_escaped {out s : Bytes} (h : Escaped out s) (rest : Bytes) :
    ∀ buffer, Loop.Reaches scanStringBody (buffer, out ++ rest) (buffer ++ s, rest) := by
  induction h with
  | nil =>
      intro buffer
      rw [List.append_nil]
      exact .refl _
  | @ascii b out s hb _ ih =>
      intro buffer
      rw [List.append_assoc, ← List.singleton_append, ← List.append_assoc buffer]
      exact (reaches_escape hb buffer (out ++ rest)).trans (ih (buffer ++ [b]))
  | @multi lead r ranges octets out s hlead hoctets _ ih =>
      intro buffer
      have hfacts : ∀ b : UInt8, ∀ row ∈ Utf8.rows, row ≠ [] → Utf8.tails b = some row →
          b ≠ 0x22 ∧ b ≠ 0x5C ∧ ¬ b ≤ 0x1F := forall_uint8 (by decide +kernel)
      obtain ⟨hquote, hslash, hcontrol⟩ :=
        hfacts lead _ (Utf8.tails_mem_rows hlead) (by simp) hlead
      have hstep : scanStringBody (buffer, lead :: (octets ++ (out ++ rest))) =
          .inl (buffer ++ lead :: octets, out ++ rest) := by
        simp only [scanStringBody, if_neg hquote, scanCharacter, if_neg hslash, if_neg hcontrol,
          hlead, nextByteInRange_append hoctets]
      rw [List.cons_append, List.append_assoc]
      refine (Loop.Reaches.single hstep).trans ?_
      have hrest := ih (buffer ++ lead :: octets)
      rwa [List.append_assoc, List.cons_append] at hrest

/-- `scan_string` reads a literal up to its closing quotation mark. -/
theorem scanString_escaped {out s : Bytes} (h : Escaped out s) (rest : Bytes) :
    scanString (out ++ 0x22 :: rest) = .ok (s, rest) :=
  Loop.iterate_of_reaches scanStringBody_decreases (reaches_escaped h (0x22 :: rest) [])
    (by simp [scanStringBody])

theorem escaped_append_inj {out out' s s' rest rest' : Bytes} (h : Escaped out s)
    (h' : Escaped out' s') (heq : out ++ 0x22 :: rest = out' ++ 0x22 :: rest') :
    s = s' ∧ rest = rest' := by
  have hscan := scanString_escaped h rest
  rw [heq, scanString_escaped h' rest'] at hscan
  simp only [Except.ok.injEq, Prod.mk.injEq] at hscan
  exact ⟨hscan.1.symm, hscan.2.symm⟩

end ExchangeClient
