import ExchangeClient.Json.RoundTrip
import ExchangeClient.Lib.Emission

/-!
# What is written is UTF-8

`dump` fails on a string that is not UTF-8, which is the only way it can fail. The table
of its decoder and the table of the grammar are compared byte by byte; the rest is the
structure of the value.
-/

namespace ExchangeClient

open Decimal

namespace Serializer

/-! ### The decoder -/

/-- The state of the decoder follows the grammar. -/
theorem decode_state {ranges : List Utf8.Range} (codep : Nat) (hrow : ranges ∈ Utf8.rows)
    (byte : UInt8) :
    (decode (stateOf ranges) codep byte).1 =
      ((Utf8.advance ranges byte).map stateOf).getD utf8Reject := by
  have hall : ∀ b : UInt8, ∀ row ∈ Utf8.rows, (decode (stateOf row) 0 b).1 =
      ((Utf8.advance row b).map stateOf).getD utf8Reject := forall_uint8 (by decide +kernel)
  exact hall byte ranges hrow

theorem stateOf_eq_accept {ranges : List Utf8.Range} (hrow : ranges ∈ Utf8.rows) :
    stateOf ranges = utf8Accept ↔ ranges = [] := by
  have hall : ∀ row ∈ Utf8.rows, stateOf row = utf8Accept ↔ row = [] := by decide
  exact hall ranges hrow

/-- The loop goes through only if the octets that are missing follow. -/
theorem scan_of_dumpEscapedLoop {ensureAscii : Bool} {s rest : Bytes} :
    ∀ {ranges : List Utf8.Range} {i codep : Nat} {out : Bytes}, ranges ∈ Utf8.rows →
      dumpEscapedLoop ensureAscii s i (stateOf ranges) codep rest = .ok out →
      Utf8.scan ranges rest = some [] := by
  induction rest with
  | nil =>
      intro ranges i codep out hrow h
      rw [dumpEscapedLoop] at h
      split at h
      · next haccept =>
          rw [(stateOf_eq_accept hrow).mp haccept]
          rfl
      · cases h
  | cons byte rest ih =>
      intro ranges i codep out hrow h
      rw [dumpEscapedLoop] at h
      simp only [decode_state codep hrow byte] at h
      rw [Utf8.scan_cons]
      cases hnext : Utf8.advance ranges byte with
      | none =>
          rw [hnext, Option.map_none, Option.getD_none, if_neg (by decide), if_pos rfl] at h
          cases h
      | some next =>
          rw [hnext, Option.map_some, Option.getD_some] at h
          have hnextRow := Utf8.advance_mem_rows hrow hnext
          rw [Option.bind_some]
          split at h
          · obtain ⟨tail, htail, -⟩ := bind_eq_ok.mp h
            exact ih hnextRow htail
          · split at h
            · cases h
            · obtain ⟨tail, htail, -⟩ := bind_eq_ok.mp h
              exact ih hnextRow htail

theorem id_of_dumpEscapedLoop {ensureAscii : Bool} {s rest : Bytes} :
    ∀ {i state codep : Nat} {exception : JsonException},
      dumpEscapedLoop ensureAscii s i state codep rest = .error exception → exception.id = 316 := by
  induction rest with
  | nil =>
      intro i state codep exception h
      rw [dumpEscapedLoop] at h
      split at h
      · cases h
      · cases h
        rfl
  | cons byte rest ih =>
      intro i state codep exception h
      -- an error of the rest is the error of the whole
      have hrest : ∀ {j state codep : Nat} {f : Bytes → Bytes},
          (dumpEscapedLoop ensureAscii s j state codep rest >>= fun out => pure (f out)) =
            .error exception → exception.id = 316 := by
        intro j state codep f h
        cases hloop : dumpEscapedLoop ensureAscii s j state codep rest with
        | error e =>
            rw [hloop] at h
            obtain rfl := Except.error.inj h
            exact ih hloop
        | ok out =>
            rw [hloop] at h
            cases h
      rw [dumpEscapedLoop] at h
      split at h
      · exact hrest h
      · split at h
        · cases h
          rfl
        · exact hrest h

/-- A string can be written exactly if it is UTF-8. -/
theorem dumpEscaped_isOk_iff {s : Bytes} : (∃ out, dumpEscaped s false = .ok out) ↔ Utf8.Valid s := by
  constructor
  · rintro ⟨out, h⟩
    have hempty : ([] : List Utf8.Range) ∈ Utf8.rows := by decide
    exact Utf8.scan_eq_nil_iff.mp (scan_of_dumpEscapedLoop hempty h)
  · intro h
    obtain ⟨out, -, hout⟩ := dumpEscaped_valid h
    exact ⟨out, hout⟩

theorem valid_hex4 (n : Nat) : Utf8.Valid (hex4 n) := by
  have hdigit : ∀ d, d < 16 → lowerHexDigit d ≤ 0x7F := by decide
  apply Utf8.valid_of_ascii
  simp [hex4, hdigit _ (Nat.mod_lt _ (by decide : 0 < 16))]

theorem valid_escape {b : UInt8} (hb : b ≤ 0x7F) : Utf8.Valid (escape false b.toNat b) := by
  rcases escape_cases b hb with ⟨e, hmem, heq⟩ | ⟨-, heq⟩ | ⟨-, -, -, heq⟩
  · have hall : shortEscapes.all (fun p => p.2 ≤ 0x7F) = true := by decide
    rw [heq]
    exact Utf8.valid_cons_ascii (by decide)
      (Utf8.valid_cons_ascii (of_decide_eq_true (List.all_eq_true.mp hall _ hmem)) .nil)
  · rw [heq]
    exact Utf8.valid_cons_ascii (by decide) (Utf8.valid_cons_ascii (by decide) (valid_hex4 _))
  · rw [heq]
    exact Utf8.valid_cons_ascii hb .nil

end Serializer

open Serializer

theorem Escaped.valid {out s : Bytes} (h : Escaped out s) : Utf8.Valid out := by
  induction h with
  | nil => exact .nil
  | ascii hb _ ih => exact (valid_escape hb).append ih
  | multi hlead hoctets _ ih => exact .char hlead hoctets ih

/-! ### Numbers -/

theorem isDigit_ascii {b : UInt8} (hb : isDigit b = true) : b ≤ 0x7F := by
  have hall : ∀ b : UInt8, isDigit b = true → b ≤ 0x7F := forall_uint8 (by decide +kernel)
  exact hall b hb

theorem valid_of_bytes {s : Bytes} (h : ∀ b ∈ s, b ≤ 0x7F) : Utf8.Valid s :=
  Utf8.valid_of_ascii (List.all_eq_true.mpr fun b hb => decide_eq_true (h b hb))

theorem valid_decimal (i : Int) : Utf8.Valid (decimal i) := by
  apply valid_of_bytes
  intro b hb
  rcases mem_decimal hb with rfl | hdigit
  · decide
  · exact isDigit_ascii hdigit

theorem Digits.ascii {ds : Bytes} (h : Digits ds) : ∀ b ∈ ds, b ≤ 0x7F :=
  fun b hb => isDigit_ascii (h b hb)

theorem appendExponent_ascii {e : Int} (he : e.natAbs < 1000) :
    ∀ b ∈ appendExponent e, b ≤ 0x7F := by
  obtain ⟨sign, d, ds, hshape, hsign, hd, hds⟩ := appendExponent_shape he
  rw [hshape, List.forall_mem_cons, List.forall_mem_cons]
  refine ⟨?_, isDigit_ascii hd, hds.ascii⟩
  rcases hsign with rfl | rfl <;> decide

theorem formatBuffer_ascii {buf : Bytes} (hbuf : Digits buf) {exp : Int}
    (hexp : (buf.length + exp - 1).natAbs < 1000) (minExp maxExp : Int) :
    ∀ b ∈ formatBuffer buf exp minExp maxExp, b ≤ 0x7F := by
  have htake : ∀ n, ∀ b ∈ buf.take n, b ≤ 0x7F :=
    fun n b hb => hbuf.ascii b (List.mem_of_mem_take hb)
  have hdrop : ∀ n, ∀ b ∈ buf.drop n, b ≤ 0x7F :=
    fun n b hb => hbuf.ascii b (List.mem_of_mem_drop hb)
  have hpoint : (0x2E : UInt8) ≤ 0x7F := by decide
  have he : (0x65 : UInt8) ≤ 0x7F := by decide
  have hzero : (0x30 : UInt8) ≤ 0x7F := by decide
  have hzeros : ∀ n, ∀ b ∈ List.replicate n (0x30 : UInt8), b ≤ 0x7F :=
    fun n => (digits_replicate_zero n).ascii
  unfold formatBuffer
  simp only
  split
  · simp only [List.forall_mem_append, List.forall_mem_cons]
    exact ⟨⟨hbuf.ascii, hzeros _⟩, hpoint, hzero, List.forall_mem_nil _⟩
  · split
    · simp only [List.forall_mem_append, List.forall_mem_cons]
      exact ⟨htake _, hpoint, hdrop _⟩
    · split
      · simp only [List.forall_mem_append, List.forall_mem_cons]
        exact ⟨hzero, hpoint, hzeros _, hbuf.ascii⟩
      · split
        · simp only [List.forall_mem_append, List.forall_mem_cons]
          exact ⟨hbuf.ascii, he, appendExponent_ascii hexp⟩
        · simp only [List.forall_mem_append, List.forall_mem_cons]
          exact ⟨htake _, hpoint, hdrop _, he, appendExponent_ascii hexp⟩

namespace Json

variable {F : Type} {fmt : DoubleFormat F}

theorem valid_dumpFloat (h : fmt.RoundTrips) (x : F) : Utf8.Valid (fmt.dumpFloat x) := by
  unfold DoubleFormat.dumpFloat
  split
  · next hfinite =>
      have hsign : Utf8.Valid (if fmt.signbit x then [0x2D] else []) := by
        split
        · exact Utf8.valid_of_ascii (by decide)
        · exact .nil
      unfold DoubleFormat.toChars
      simp only
      split
      · exact hsign.append (Utf8.valid_of_ascii (by decide))
      · next hzero =>
          have hexp := h.exponent x hfinite (Bool.eq_false_of_not_eq_true hzero)
          refine hsign.append (valid_of_bytes (formatBuffer_ascii ?_ ?_ _ _))
          · intro c hc
            obtain ⟨e, -, rfl⟩ := List.mem_map.mp hc
            exact isDigit_digitByte e.isLt
          · rwa [DoubleFormat.buffer, List.length_map]
  · exact Utf8.valid_of_ascii (by decide)

/-! ### Values -/

mutual

/-- All strings of a value, its keys included, are in `T`, and all its floating-point
numbers in `P`. -/
def All (T : Bytes → Prop) (P : F → Prop) : Json F → Prop
  | .string value => T value
  | .numberFloat value => P value
  | .array elements => AllElements T P elements
  | .object members => AllMembers T P members
  | .null | .boolean _ | .numberInteger _ => True

def AllElements (T : Bytes → Prop) (P : F → Prop) : List (Json F) → Prop
  | [] => True
  | element :: elements => All T P element ∧ AllElements T P elements

def AllMembers (T : Bytes → Prop) (P : F → Prop) : List (Bytes × Json F) → Prop
  | [] => True
  | (key, value) :: members => T key ∧ All T P value ∧ AllMembers T P members

end

/-- All strings are UTF-8. -/
def Textual (v : Json F) : Prop := v.All Utf8.Valid fun _ => True

def Floats (P : F → Prop) (v : Json F) : Prop := v.All (fun _ => True) P

variable {T : Bytes → Prop} {P : F → Prop}

mutual

theorem all_of_forall (hT : ∀ s, T s) (hP : ∀ x, P x) : ∀ v : Json F, v.All T P
  | .array elements => by
      rw [All]
      exact allElements_of_forall hT hP elements
  | .object members => by
      rw [All]
      exact allMembers_of_forall hT hP members
  | .string value => by
      rw [All]
      exact hT value
  | .numberFloat value => by
      rw [All]
      exact hP value
  | .null | .boolean _ | .numberInteger _ => by
      rw [All]
      exact trivial

theorem allElements_of_forall (hT : ∀ s, T s) (hP : ∀ x, P x) :
    ∀ elements : List (Json F), AllElements T P elements
  | [] => trivial
  | element :: elements => ⟨all_of_forall hT hP element, allElements_of_forall hT hP elements⟩

theorem allMembers_of_forall (hT : ∀ s, T s) (hP : ∀ x, P x) :
    ∀ members : List (Bytes × Json F), AllMembers T P members
  | [] => trivial
  | (key, value) :: members =>
      ⟨hT key, all_of_forall hT hP value, allMembers_of_forall hT hP members⟩

end

mutual

theorem WellFormed.floats : ∀ {v : Json F}, v.WellFormed P → v.Floats P
  | .numberFloat _, h => by
      rw [WellFormed] at h
      rwa [Floats, All]
  | .array elements, h => by
      rw [WellFormed] at h
      rw [Floats, All]
      exact WellFormedElements.floats h
  | .object members, h => by
      rw [WellFormed] at h
      rw [Floats, All]
      exact WellFormedMembers.floats h.2
  | .null, _ | .boolean _, _ | .numberInteger _, _ | .string _, _ => by
      rw [Floats, All]
      exact trivial

theorem WellFormedElements.floats :
    ∀ {elements : List (Json F)}, WellFormedElements P elements →
      AllElements (fun _ => True) P elements
  | [], _ => trivial
  | _ :: _, h => by
      rw [WellFormedElements] at h
      exact ⟨h.1.floats, WellFormedElements.floats h.2⟩

theorem WellFormedMembers.floats :
    ∀ {members : List (Bytes × Json F)}, WellFormedMembers P members →
      AllMembers (fun _ => True) P members
  | [], _ => trivial
  | (_, _) :: _, h => by
      rw [WellFormedMembers] at h
      exact ⟨trivial, h.2.1.floats, WellFormedMembers.floats h.2.2⟩

end

/-! ### Writing them -/

/-- What a writer does: it fails unless `textual`, with a `type_error`, and what it writes
is UTF-8 if the numbers are. -/
structure Writes (textual floats : Prop) (result : Except JsonException Bytes) : Prop where
  isOk : (∃ text, result = .ok text) ↔ textual
  valid : floats → ∀ text, result = .ok text → Utf8.Valid text
  fails : ∀ exception, result = .error exception → exception.id = 316

theorem Writes.pure {floats : Prop} {text : Bytes} (h : floats → Utf8.Valid text) :
    Writes True floats (Pure.pure text) where
  isOk := ⟨fun _ => trivial, fun _ => ⟨text, rfl⟩⟩
  valid hfloats text' heq := by
    obtain rfl := Except.ok.inj heq
    exact h hfloats
  fails exception heq := by cases heq

theorem Writes.congr {textual textual' floats : Prop} {result : Except JsonException Bytes}
    (h : Writes textual floats result) (hiff : textual ↔ textual') : Writes textual' floats result :=
  ⟨h.isOk.trans hiff, h.valid, h.fails⟩

theorem Writes.bind {textual textual' floats : Prop} {result : Except JsonException Bytes}
    {write : Bytes → Except JsonException Bytes} (h : Writes textual floats result)
    (hwrite : ∀ text, (floats → Utf8.Valid text) → Writes textual' floats (write text)) :
    Writes (textual ∧ textual') floats (result >>= write) where
  isOk := by
    constructor
    · rintro ⟨text, hok⟩
      obtain ⟨first, hfirst, hrest⟩ := bind_eq_ok.mp hok
      refine ⟨h.isOk.mp ⟨first, hfirst⟩, ?_⟩
      exact (hwrite first fun hfloats => h.valid hfloats first hfirst).isOk.mp ⟨text, hrest⟩
    · rintro ⟨htextual, htextual'⟩
      obtain ⟨first, hfirst⟩ := h.isOk.mpr htextual
      obtain ⟨text, hrest⟩ :=
        (hwrite first fun hfloats => h.valid hfloats first hfirst).isOk.mpr htextual'
      exact ⟨text, bind_eq_ok.mpr ⟨first, hfirst, hrest⟩⟩
  valid hfloats text hok := by
    obtain ⟨first, hfirst, hrest⟩ := bind_eq_ok.mp hok
    exact (hwrite first fun _ => h.valid hfloats first hfirst).valid hfloats text hrest
  fails exception herror := by
    cases hfirst : result with
    | error e =>
        rw [hfirst] at herror
        obtain rfl := Except.error.inj herror
        exact h.fails e hfirst
    | ok first =>
        rw [hfirst] at herror
        exact (hwrite first fun hfloats => h.valid hfloats first hfirst).fails exception herror

theorem dumpString_writes (floats : Prop) (s : Bytes) :
    Writes (Utf8.Valid s) floats (dumpString s) := by
  have hescaped : Writes (Utf8.Valid s) floats (dumpEscaped s false) := by
    refine ⟨dumpEscaped_isOk_iff, ?_, fun _ h => id_of_dumpEscapedLoop h⟩
    intro _ text htext
    obtain ⟨out, hout, hsame⟩ := dumpEscaped_valid (dumpEscaped_isOk_iff.mp ⟨text, htext⟩)
    obtain rfl := Except.ok.inj (hsame.symm.trans htext)
    exact hout.valid
  have hquoted : Writes (Utf8.Valid s ∧ True) floats (dumpString s) :=
    hescaped.bind fun text htext => .pure fun hfloats =>
      (Utf8.valid_cons_ascii (by decide) (htext hfloats)).append (Utf8.valid_of_ascii (by decide))
  exact hquoted.congr (and_iff_left trivial)

theorem Writes.mono {textual floats floats' : Prop} {result : Except JsonException Bytes}
    (h : Writes textual floats result) (hfloats : floats' → floats) :
    Writes textual floats' result :=
  ⟨h.isOk, fun h' => h.valid (hfloats h'), h.fails⟩

theorem Writes.enclosed {textual floats : Prop} {result : Except JsonException Bytes}
    (h : Writes textual floats result) {before after : UInt8} (hbefore : before ≤ 0x7F)
    (hafter : after ≤ 0x7F) :
    Writes textual floats (result >>= fun text => Pure.pure (before :: text ++ [after])) :=
  (h.bind fun _ htext => .pure fun hfloats =>
    (Utf8.valid_cons_ascii hbefore (htext hfloats)).append
      (Utf8.valid_cons_ascii hafter .nil)).congr (and_iff_left trivial)

mutual

theorem dump_writes (hP : ∀ x, P x → Utf8.Valid (fmt.dumpFloat x)) :
    ∀ v : Json F, Writes v.Textual (v.Floats P) (v.dump fmt)
  | .object members => by
      rw [dump, Textual, Floats, All, All]
      exact (dumpMembers_writes hP members).enclosed (by decide : (0x7B : UInt8) ≤ 0x7F) (by decide)
  | .array elements => by
      rw [dump, Textual, Floats, All, All]
      exact (dumpElements_writes hP elements).enclosed (by decide : (0x5B : UInt8) ≤ 0x7F)
        (by decide)
  | .string value => by
      rw [dump, Textual, Floats, All, All]
      exact dumpString_writes _ value
  | .boolean value => by
      rw [dump, Textual, Floats, All, All]
      refine .pure fun _ => ?_
      cases value <;> exact Utf8.valid_of_ascii (by decide)
  | .numberInteger value => by
      rw [dump, Textual, Floats, All, All, dumpInteger_eq_decimal]
      exact .pure fun _ => valid_decimal value
  | .numberFloat value => by
      rw [dump, Textual, Floats, All, All]
      exact .pure fun hvalue => hP value hvalue
  | .null => by
      rw [dump, Textual, Floats, All, All]
      exact .pure fun _ => Utf8.valid_of_ascii (by decide)

theorem dumpElements_writes (hP : ∀ x, P x → Utf8.Valid (fmt.dumpFloat x)) :
    ∀ elements : List (Json F),
      Writes (AllElements Utf8.Valid (fun _ => True) elements)
        (AllElements (fun _ => True) P elements) (dumpElements fmt elements)
  | [] => .pure fun _ => .nil
  | [element] => by
      rw [dumpElements]
      exact ((dump_writes hP element).mono And.left).congr (and_iff_left trivial).symm
  | element :: next :: elements => by
      rw [dumpElements]
      refine (((dump_writes hP element).mono And.left).bind fun text htext =>
        ((dumpElements_writes hP (next :: elements)).mono And.right).bind fun more hmore =>
          .pure fun hfloats => ?_).congr (and_congr_right' (and_iff_left trivial))
      exact (htext hfloats).append (Utf8.valid_cons_ascii (by decide) (hmore hfloats))

theorem dumpMembers_writes (hP : ∀ x, P x → Utf8.Valid (fmt.dumpFloat x)) :
    ∀ members : List (Bytes × Json F),
      Writes (AllMembers Utf8.Valid (fun _ => True) members)
        (AllMembers (fun _ => True) P members) (dumpMembers fmt members)
  | [] => .pure fun _ => .nil
  | [(key, value)] => by
      rw [dumpMembers]
      refine ((dumpString_writes _ key).bind fun text htext =>
        ((dump_writes hP value).mono fun hfloats => hfloats.2.1).bind fun more hmore =>
          .pure fun hfloats => ?_).congr Iff.rfl
      exact (htext hfloats).append (Utf8.valid_cons_ascii (by decide) (hmore hfloats))
  | (key, value) :: next :: members => by
      rw [dumpMembers]
      refine ((dumpString_writes _ key).bind fun text htext =>
        ((dump_writes hP value).mono fun hfloats => hfloats.2.1).bind fun more hmore =>
          ((dumpMembers_writes hP (next :: members)).mono fun hfloats => hfloats.2.2).bind
            fun rest hrest => .pure fun hfloats => ?_).congr
              (and_congr_right' (and_congr_right' (and_iff_left trivial)))
      exact ((htext hfloats).append (Utf8.valid_cons_ascii (by decide) (hmore hfloats))).append
        (Utf8.valid_cons_ascii (by decide) (hrest hfloats))

end

/-- The text of a value without floating-point numbers is UTF-8. -/
theorem valid_dump_of_noFloats {v : Json F} (hv : v.WellFormed fun _ => False) {text : Bytes}
    (h : v.dump fmt = .ok text) : Utf8.Valid text :=
  (dump_writes (fun _ hx => absurd hx not_false) v).valid hv.floats text h

/-- A value can be written exactly if its strings and its keys are UTF-8, and then what is
written is UTF-8. There is one error only. -/
theorem dump_textual (h : fmt.RoundTrips) (v : Json F) :
    ((∃ text, v.dump fmt = .ok text) ↔ v.Textual) ∧
      (∀ text, v.dump fmt = .ok text → Utf8.Valid text) ∧
      ∀ exception, v.dump fmt = .error exception → exception.id = 316 := by
  have hwrites := dump_writes (fun x (_ : True) => valid_dumpFloat h x) v
  exact ⟨hwrites.isOk, hwrites.valid (all_of_forall (fun _ => trivial) (fun _ => trivial) v), hwrites.fails⟩

theorem dump_textual_example :
    ((∃ text, (Json.array [.numberFloat SampleDouble.ten, .string [0xFF]]).dump
        SampleDouble.format = .ok text) ↔
      (Json.array [.numberFloat SampleDouble.ten, .string [0xFF]]).Textual) ∧
      (∀ text, (Json.array [.numberFloat SampleDouble.ten, .string [0xFF]]).dump
        SampleDouble.format = .ok text → Utf8.Valid text) ∧
      ∀ exception, (Json.array [.numberFloat SampleDouble.ten, .string [0xFF]]).dump
        SampleDouble.format = .error exception → exception.id = 316 :=
  dump_textual SampleDouble.roundTrips _

end Json

end ExchangeClient
