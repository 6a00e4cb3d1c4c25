import ExchangeClient.Json.Serializer

/-!
# The UTF-8 validator

`utf8_validator.hpp`: a decoder that is fed with the parts of a text as they arrive.
Its eight live states stand for the octets that may still have to follow, so it
refuses an octet as soon as no continuation can repair the text.
-/

namespace ExchangeClient.Websocketpp

/-- `utf8_validator::validator`. -/
structure Validator where
  state : Nat
  codepoint : UInt32
deriving DecidableEq, Repr

namespace Validator

def utf8Accept : Nat := 0
def utf8Reject : Nat := 1

/-- The table `utf8d`: the classes of the 256 bytes, then one row of sixteen
transitions for each state. -/
def utf8d : List Nat :=
  [0, 0, 0, 0, 0, 0, 0, 0, 0, 0, 0, 0, 0, 0, 0, 0, 0, 0, 0, 0, 0, 0, 0, 0, 0, 0, 0, 0, 0, 0, 0, 0,
   0, 0, 0, 0, 0, 0, 0, 0, 0, 0, 0, 0, 0, 0, 0, 0, 0, 0, 0, 0, 0, 0, 0, 0, 0, 0, 0, 0, 0, 0, 0, 0,
   0, 0, 0, 0, 0, 0, 0, 0, 0, 0, 0, 0, 0, 0, 0, 0, 0, 0, 0, 0, 0, 0, 0, 0, 0, 0, 0, 0, 0, 0, 0, 0,
   0, 0, 0, 0, 0, 0, 0, 0, 0, 0, 0, 0, 0, 0, 0, 0, 0, 0, 0, 0, 0, 0, 0, 0, 0, 0, 0, 0, 0, 0, 0, 0,
   1, 1, 1, 1, 1, 1, 1, 1, 1, 1, 1, 1, 1, 1, 1, 1, 9, 9, 9, 9, 9, 9, 9, 9, 9, 9, 9, 9, 9, 9, 9, 9,
   7, 7, 7, 7, 7, 7, 7, 7, 7, 7, 7, 7, 7, 7, 7, 7, 7, 7, 7, 7, 7, 7, 7, 7, 7, 7, 7, 7, 7, 7, 7, 7,
   8, 8, 2, 2, 2, 2, 2, 2, 2, 2, 2, 2, 2, 2, 2, 2, 2, 2, 2, 2, 2, 2, 2, 2, 2, 2, 2, 2, 2, 2, 2, 2,
   0xA, 0x3, 0x3, 0x3, 0x3, 0x3, 0x3, 0x3, 0x3, 0x3, 0x3, 0x3, 0x3, 0x4, 0x3, 0x3,
   0xB, 0x6, 0x6, 0x6, 0x5, 0x8, 0x8, 0x8, 0x8, 0x8, 0x8, 0x8, 0x8, 0x8, 0x8, 0x8,
   0x0, 0x1, 0x2, 0x3, 0x5, 0x8, 0x7, 0x1, 0x1, 0x1, 0x4, 0x6, 0x1, 0x1, 0x1, 0x1,
   1, 1, 1, 1, 1, 1, 1, 1, 1, 1, 1, 1, 1, 1, 1, 1, 1, 0, 1, 1, 1, 1, 1, 0, 1, 0, 1, 1, 1, 1, 1, 1,
   1, 2, 1, 1, 1, 1, 1, 2, 1, 2, 1, 1, 1, 1, 1, 1, 1, 1, 1, 1, 1, 1, 1, 2, 1, 1, 1, 1, 1, 1, 1, 1,
   1, 2, 1, 1, 1, 1, 1, 1, 1, 2, 1, 1, 1, 1, 1, 1, 1, 1, 1, 1, 1, 1, 1, 3, 1, 3, 1, 1, 1, 1, 1, 1,
   1, 3, 1, 1, 1, 1, 1, 3, 1, 3, 1, 1, 1, 1, 1, 1, 1, 3, 1, 1, 1, 1, 1, 1, 1, 1, 1, 1, 1, 1, 1, 1]

/-- The constructor, and `reset`. -/
def fresh : Validator := ⟨utf8Accept, 0⟩

/-- `utf8_validator::decode`. -/
def decodeByte (v : Validator) (byte : UInt8) : Validator :=
  let type := utf8d.getD byte.toNat 0
  { codepoint :=
      if v.state ≠ utf8Accept then byte.toUInt32 &&& (0x3F : UInt32) ||| v.codepoint <<< 6
      else (0xFF : UInt32) >>> UInt32.ofNat type &&& byte.toUInt32
    state := utf8d.getD (256 + v.state * 16 + type) 0 }

/-- The member function `decode`: the validator after the bytes, or after the first one
that it refuses, and whether it refused none. -/
def decode (v : Validator) : Bytes → Validator × Bool
  | [] => (v, true)
  | byte :: rest =>
      let next := v.decodeByte byte
      if next.state = utf8Reject then (next, false) else decode next rest

def complete (v : Validator) : Bool := v.state = utf8Accept

def validate (s : Bytes) : Bool :=
  let decoded := fresh.decode s
  if decoded.2 then decoded.1.complete else false

/-! ### What the states stand for -/

/-- `v.Awaits ranges`: octets in these ranges have to follow next. -/
def Awaits (v : Validator) (ranges : List Utf8.Range) : Prop :=
  ranges ∈ Utf8.rows ∧ v.state = Serializer.stateOf ranges

theorem awaits_fresh : fresh.Awaits [] := ⟨by decide, rfl⟩

theorem decodeByte_state : ∀ byte : UInt8, ∀ ranges ∈ Utf8.rows, ∀ codepoint : UInt32,
    (decodeByte ⟨Serializer.stateOf ranges, codepoint⟩ byte).state =
      match Utf8.advance ranges byte with
      | some next => Serializer.stateOf next
      | none => utf8Reject := by
  have hall : ∀ byte : UInt8, ∀ ranges ∈ Utf8.rows,
      utf8d.getD (256 + Serializer.stateOf ranges * 16 + utf8d.getD byte.toNat 0) 0 =
        match Utf8.advance ranges byte with
        | some next => Serializer.stateOf next
        | none => utf8Reject := forall_uint8 (by decide +kernel)
  intro byte ranges hranges codepoint
  exact hall byte ranges hranges

theorem stateOf_ne_reject : ∀ ranges ∈ Utf8.rows, Serializer.stateOf ranges ≠ utf8Reject := by
  decide

/-- Decoding follows the grammar, octet by octet. -/
theorem decode_eq {s : Bytes} : ∀ {v : Validator} {ranges : List Utf8.Range}, v.Awaits ranges →
    ((v.decode s).2 = (Utf8.scan ranges s).isSome) ∧
      ∀ next, Utf8.scan ranges s = some next → (v.decode s).1.Awaits next := by
  induction s with
  | nil =>
      intro v ranges h
      exact ⟨rfl, fun next hnext => Option.some.inj hnext ▸ h⟩
  | cons byte s ih =>
      intro v ranges h
      have hstate : (v.decodeByte byte).state = _ := h.2 ▸ decodeByte_state byte ranges h.1 v.codepoint
      rw [Utf8.scan_cons, decode]
      cases hadvance : Utf8.advance ranges byte with
      | none =>
          simp only [hadvance] at hstate
          rw [if_pos hstate]
          exact ⟨rfl, fun next hnext => by cases hnext⟩
      | some mid =>
          simp only [hadvance] at hstate
          have hmid := Utf8.advance_mem_rows h.1 hadvance
          rw [if_neg (hstate ▸ stateOf_ne_reject mid hmid), Option.bind_some]
          exact ih ⟨hmid, hstate⟩

theorem decode_append (v : Validator) (s t : Bytes) :
    v.decode (s ++ t) =
      if (v.decode s).2 then (v.decode s).1.decode t else v.decode s := by
  induction s generalizing v with
  | nil => rfl
  | cons byte s ih =>
      rw [List.cons_append, decode, decode]
      split
      · rfl
      · exact ih _

theorem Awaits.complete_iff {v : Validator} {ranges : List Utf8.Range} (h : v.Awaits ranges) :
    v.complete = true ↔ ranges = [] := by
  have hall : ∀ row ∈ Utf8.rows, Serializer.stateOf row = utf8Accept ↔ row = [] := by decide
  rw [complete, decide_eq_true_eq, h.2, hall ranges h.1]

theorem decode_fresh_iff {s : Bytes} : (fresh.decode s).2 = true ↔ ∃ t, Utf8.Valid (s ++ t) := by
  rw [(decode_eq awaits_fresh).1, Utf8.scan_isSome_iff]

theorem decode_fresh_complete {s : Bytes} (h : (fresh.decode s).2 = true) :
    (fresh.decode s).1.complete = true ↔ Utf8.Valid s := by
  obtain ⟨hsome, hawaits⟩ := decode_eq (s := s) awaits_fresh
  obtain ⟨next, hnext⟩ := Option.isSome_iff_exists.mp (hsome ▸ h)
  rw [(hawaits next hnext).complete_iff, ← Utf8.scan_eq_nil_iff, hnext, Option.some.injEq]

/-! ### A text that arrives in parts -/

/-- The validator after the parts of a text, or after the first octet that it refuses. -/
def decodeParts (v : Validator) : List Bytes → Validator × Bool
  | [] => (v, true)
  | part :: parts =>
      let decoded := v.decode part
      if decoded.2 then decodeParts decoded.1 parts else decoded

theorem decodeParts_eq (v : Validator) (parts : List Bytes) :
    v.decodeParts parts = v.decode parts.flatten := by
  induction parts generalizing v with
  | nil => rfl
  | cons part parts ih => simp only [decodeParts, List.flatten_cons, decode_append, ih]

/-- However a text is cut, inside of a character too: the parts are taken exactly as long as
some continuation makes them UTF-8, and the text is complete exactly if it is UTF-8. -/
theorem decodeParts_accepts (parts : List Bytes) :
    ((fresh.decodeParts parts).2 = true ↔ ∃ t, Utf8.Valid (parts.flatten ++ t)) ∧
      ((fresh.decodeParts parts).2 = true ∧ (fresh.decodeParts parts).1.complete = true ↔
        Utf8.Valid parts.flatten) := by
  rw [decodeParts_eq]
  refine ⟨decode_fresh_iff, fun h => (decode_fresh_complete h.1).mp h.2, fun hvalid => ?_⟩
  have htaken : (fresh.decode parts.flatten).2 = true :=
    decode_fresh_iff.mpr ⟨[], by rwa [List.append_nil]⟩
  exact ⟨htaken, (decode_fresh_complete htaken).mpr hvalid⟩

end Validator

end ExchangeClient.Websocketpp
