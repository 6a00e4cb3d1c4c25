import Mathlib.Data.List.DropRight
import Mathlib.Data.List.TakeWhile
import ExchangeClient.Lib.Bytes

/-!
# The head of an HTTP/1.1 request

A head is a request line and header fields, one on each line, closed by an empty
line. The writer copies the parts; the reader follows the grammar: it splits lines
at CR LF, the request line at the spaces, the target at the first `?` or `#`, and it
percent-decodes the path. What is written is read back exactly when the path has
nothing in it but the bytes that stand for themselves in a path.
-/

namespace ExchangeClient.HttpHead

open Splitting

/-! ### Bytes -/

def isAlphaNum (b : UInt8) : Bool :=
  (0x30 ≤ b && b ≤ 0x39) || (0x41 ≤ b && b ≤ 0x5A) || (0x61 ≤ b && b ≤ 0x7A)

def isTokenByte (b : UInt8) : Bool := isAlphaNum b || (ascii "!#$%&'*+-.^_`|~").contains b

/-- A byte of `field-content`, or white space. -/
def isFieldByte (b : UInt8) : Bool := b = 0x09 || (0x20 ≤ b && b ≠ 0x7F)

def isOws (b : UInt8) : Bool := b = 0x09 || b = 0x20

/-- A byte that stands for itself in a path: a slash, or a `pchar` that is not the sign
of an encoded one. -/
def isPathByte (b : UInt8) : Bool := isAlphaNum b || (ascii "-._~!$&'()*+,;=:@/").contains b

/-- A byte that may stand behind the path. -/
def isTailByte (b : UInt8) : Bool := isPathByte b || (ascii "%?#").contains b

def hexValue (b : UInt8) : Option Nat :=
  if 0x30 ≤ b ∧ b ≤ 0x39 then some (b.toNat - 0x30)
  else if 0x41 ≤ b ∧ b ≤ 0x46 then some (b.toNat - 0x37)
  else if 0x61 ≤ b ∧ b ≤ 0x66 then some (b.toNat - 0x57)
  else none

/-! ### Writing -/

def writeField (field : Bytes × Bytes) : Bytes :=
  field.1 ++ 0x3A :: 0x20 :: (field.2 ++ [0x0D, 0x0A])

def version11 : Bytes := ascii "HTTP/1.1"

/-- A head with a target as it is given. -/
def write (method target version : Bytes) (fields : List (Bytes × Bytes)) : Bytes :=
  method ++ 0x20 :: (target ++ 0x20 :: (version ++ 0x0D :: 0x0A ::
    (fields.flatMap writeField ++ [0x0D, 0x0A])))

def writeQuery : Option Bytes → Bytes
  | none => []
  | some query => 0x3F :: query

/-! ### Reading -/

/-- The lines up to an empty one, and what is left. `line` is what has been read of the
current line. -/
def readLines (line : Bytes) : Bytes → Option (List Bytes × Bytes)
  | 0x0D :: 0x0A :: rest =>
      if line = [] then some ([], rest)
      else (readLines [] rest).map fun read => (line :: read.1, read.2)
  | b :: rest => readLines (line ++ [b]) rest
  | [] => none

def decodePath : Bytes → Option Bytes
  | [] => some []
  | 0x25 :: high :: low :: rest => do
      let high ← hexValue high
      let low ← hexValue low
      return UInt8.ofNat (16 * high + low) :: (← decodePath rest)
  | b :: rest => if isPathByte b then (decodePath rest).map (b :: ·) else none

def endsPath (b : UInt8) : Bool := b = 0x3F || b = 0x23

def readQuery : Bytes → Option Bytes
  | 0x3F :: query => some (query.takeWhile fun b => b != 0x23)
  | _ => none

/-- The decoded path and the query of a target, which is split at the first `?` or `#`. A
byte of the path is a slash, a `pchar` or one of an encoded byte; behind the path a `#` and
a percent sign that encodes nothing are let through as well. -/
def readTarget (target : Bytes) : Option (Bytes × Option Bytes) := do
  let path ← decodePath (target.takeWhile fun b => !endsPath b)
  let tail := target.dropWhile fun b => !endsPath b
  guard (path.head? = some 0x2F ∧ tail.all isTailByte = true)
  return (path, readQuery tail)

def readRequestLine (line : Bytes) : Option (Bytes × Bytes × Option Bytes) := do
  let (method, rest) ← splitFirst 0x20 line
  let (target, version) ← splitFirst 0x20 rest
  guard (method ≠ [] ∧ method.all isTokenByte = true ∧ version = version11)
  return (method, ← readTarget target)

def trim (value : Bytes) : Bytes := (value.dropWhile isOws).rdropWhile isOws

def readField (line : Bytes) : Option (Bytes × Bytes) := do
  let (name, value) ← splitFirst 0x3A line
  guard (name ≠ [] ∧ name.all isTokenByte = true ∧ value.all isFieldByte = true)
  return (name, trim value)

structure Head where
  method : Bytes
  path : Bytes
  query : Option Bytes
  fields : List (Bytes × Bytes)
deriving DecidableEq, Repr

/-- The request at the start of the input, and what is left behind its head. -/
def read (input : Bytes) : Option (Head × Bytes) := do
  match ← readLines [] input with
  | ([], _) => none
  | (line :: lines, rest) =>
      let (method, path, query) ← readRequestLine line
      return (⟨method, path, query, ← lines.mapM readField⟩, rest)

/-! ### Lines -/

theorem readLines_cons {b : UInt8} (hb : b ≠ 0x0D) (line rest : Bytes) :
    readLines line (b :: rest) = readLines (line ++ [b]) rest := by
  rw [readLines]
  intro rest' h
  exact absurd h hb

theorem readLines_line {text : Bytes} (htext : (0x0D : UInt8) ∉ text) :
    ∀ line rest : Bytes, line ++ text ≠ [] → readLines line (text ++ 0x0D :: 0x0A :: rest) =
      (readLines [] rest).map fun read => ((line ++ text) :: read.1, read.2) := by
  induction text with
  | nil =>
      intro line rest hline
      rw [List.append_nil] at hline
      rw [List.nil_append, readLines, if_neg hline, List.append_nil]
  | cons b text ih =>
      intro line rest _
      rw [List.mem_cons, not_or] at htext
      rw [List.cons_append, readLines_cons (Ne.symm htext.1), ih htext.2 _ _ (by simp)]
      simp

theorem prefix_of_readLines : ∀ {input line first : Bytes} {lines : List Bytes} {rest : Bytes},
    readLines line input = some (first :: lines, rest) → first <+: line ++ input := by
  intro input line
  induction line, input using readLines.induct with
  | case1 rest =>
      intro first lines rest' h
      simp [readLines] at h
  | case2 line rest hline ih =>
      intro first lines rest' h
      rw [readLines, if_neg hline] at h
      obtain ⟨read, -, hread⟩ := Option.map_eq_some_iff.mp h
      obtain ⟨rfl, -⟩ := List.cons.inj (Prod.mk.inj hread).1
      exact List.prefix_append _ _
  | case3 line b rest hne ih =>
      intro first lines rest' h
      rw [readLines] at h
      · have hprefix := ih h
        rwa [List.append_assoc] at hprefix
      · exact hne
  | case4 line =>
      intro first lines rest' h
      cases h

/-! ### Targets -/

theorem decodePath_cons {b : UInt8} (hb : b ≠ 0x25) (rest : Bytes) :
    decodePath (b :: rest) = if isPathByte b then (decodePath rest).map (b :: ·) else none := by
  rw [decodePath]
  intro high low rest' h
  exact absurd h hb

theorem decodePath_self {path : Bytes} (h : path.all isPathByte = true) :
    decodePath path = some path := by
  induction path with
  | nil => rfl
  | cons b path ih =>
      rw [List.all_cons, Bool.and_eq_true] at h
      have hpercent : b ≠ 0x25 := by
        rintro rfl
        exact absurd h.1 (by decide)
      rw [decodePath_cons hpercent, if_pos h.1, ih h.2]
      rfl

/-- Decoding shortens a path unless every byte stands for itself. -/
theorem length_le_of_decodePath : ∀ {path decoded : Bytes}, decodePath path = some decoded →
    decoded.length ≤ path.length ∧
      (decoded.length = path.length → path.all isPathByte = true) := by
  intro path
  induction path using decodePath.induct with
  | case1 =>
      intro decoded h
      cases h
      exact ⟨Nat.le_refl _, fun _ => rfl⟩
  | case2 high low rest ih =>
      intro decoded h
      simp only [decodePath, Option.bind_eq_bind, Option.bind_eq_some_iff, Option.pure_def,
        Option.some.injEq] at h
      obtain ⟨-, -, -, -, decoded', hdecoded, rfl⟩ := h
      have hlen := (ih hdecoded).1
      simp only [List.length_cons]
      constructor <;> omega
  | case3 b rest hne hb ih =>
      intro decoded h
      rw [decodePath, if_pos hb] at h
      · obtain ⟨decoded', hdecoded, rfl⟩ := Option.map_eq_some_iff.mp h
        obtain ⟨hlen, hall⟩ := ih hdecoded
        refine ⟨Nat.succ_le_succ hlen, ?_⟩
        intro heq
        rw [List.all_cons, hb, hall (Nat.succ.inj heq)]
        rfl
      · exact hne
  | case4 b rest hne hb =>
      intro decoded h
      rw [decodePath, if_neg hb] at h
      · cases h
      · exact hne

/-- A query that is read as it is written. -/
def IsQuery (query : Option Bytes) : Prop :=
  ∀ text ∈ query, text.all (fun b => isTailByte b && b != 0x23) = true

theorem readQuery_writeQuery {query : Option Bytes} (h : IsQuery query) :
    readQuery (writeQuery query) = query ∧ (writeQuery query).all isTailByte = true := by
  cases query with
  | none => exact ⟨rfl, rfl⟩
  | some text =>
      have htext := List.all_eq_true.mp (h text rfl)
      constructor
      · rw [writeQuery, readQuery, List.takeWhile_eq_self_iff.mpr]
        intro b hb
        exact (Bool.and_eq_true_iff.mp (htext b hb)).2
      · rw [writeQuery, List.all_cons, Bool.and_eq_true, List.all_eq_true]
        refine ⟨by decide, ?_⟩
        intro b hb
        exact (Bool.and_eq_true_iff.mp (htext b hb)).1

theorem not_endsPath_of_isPathByte : ∀ {b : UInt8}, isPathByte b = true → endsPath b = false := by
  intro b
  exact forall_uint8 (P := fun b => isPathByte b = true → endsPath b = false)
    (by decide +kernel) b

theorem readTarget_write {path : Bytes} {query : Option Bytes}
    (hpath : path.all isPathByte = true) (hslash : path.head? = some 0x2F)
    (hquery : IsQuery query) : readTarget (path ++ writeQuery query) = some (path, query) := by
  have hstays : ∀ b ∈ path, (!endsPath b) = true := by
    intro b hb
    rw [not_endsPath_of_isPathByte (List.all_eq_true.mp hpath b hb)]
    rfl
  have hends : (writeQuery query).takeWhile (fun b => !endsPath b) = [] ∧
      (writeQuery query).dropWhile (fun b => !endsPath b) = writeQuery query := by
    cases query <;> exact ⟨rfl, rfl⟩
  obtain ⟨hread, htail⟩ := readQuery_writeQuery hquery
  simp [readTarget, List.takeWhile_append_of_pos hstays, List.dropWhile_append_of_pos hstays,
    hends, decodePath_self hpath, hslash, htail, hread]

theorem of_readTarget {target path : Bytes} {query : Option Bytes}
    (h : readTarget target = some (path, query)) :
    ∃ raw tail, target = raw ++ tail ∧ (0x3F : UInt8) ∉ raw ∧ decodePath raw = some path := by
  simp only [readTarget, Option.bind_eq_bind, Option.bind_eq_some_iff] at h
  obtain ⟨path', hdecode, -, -, hrest⟩ := h
  obtain ⟨rfl, -⟩ := Prod.mk.inj (Option.some.inj hrest)
  refine ⟨_, _, (List.takeWhile_append_dropWhile).symm, ?_, hdecode⟩
  intro hmem
  exact absurd (List.mem_takeWhile_imp hmem) (by decide)

/-! ### Header fields -/

def IsFieldName (name : Bytes) : Prop := name ≠ [] ∧ name.all isTokenByte = true

/-- A value that is read as it is written, with no white space around it. -/
def IsFieldValue (value : Bytes) : Prop := value.all isFieldByte = true ∧ trim value = value

def IsField (field : Bytes × Bytes) : Prop := IsFieldName field.1 ∧ IsFieldValue field.2

theorem notMem_of_all {p : UInt8 → Bool} {c : UInt8} {s : Bytes} (h : s.all p = true)
    (hc : p c = false) : c ∉ s := by
  intro hmem
  rw [List.all_eq_true.mp h c hmem] at hc
  cases hc

theorem trim_eq_self {value : Bytes} (h : value.all (fun b => !isOws b) = true) :
    trim value = value := by
  have hnone : ∀ b ∈ value, ¬ isOws b = true := by
    intro b hb
    simpa using List.all_eq_true.mp h b hb
  unfold trim
  rw [List.dropWhile_eq_self_iff.mpr fun hlen => hnone _ (List.getElem_mem hlen),
    List.rdropWhile_eq_self_iff]
  intro hne
  exact hnone _ (List.getLast_mem hne)

theorem readField_writeField {field : Bytes × Bytes} (h : IsField field) :
    readField (field.1 ++ 0x3A :: 0x20 :: field.2) = some field := by
  obtain ⟨⟨hname, htoken⟩, hbytes, htrim⟩ := h
  have htrim' : trim (0x20 :: field.2) = field.2 := htrim
  have hspace : (0x20 :: field.2).all isFieldByte = true := hbytes
  have hcolon : (0x3A : UInt8) ∉ field.1 := notMem_of_all htoken (by decide)
  simp only [readField, splitFirst_append hcolon, Option.bind_eq_bind, Option.bind_some,
    guard, ne_eq, hname, not_false_eq_true, htoken, hspace, and_self, if_true, htrim']
  rfl

theorem readLines_writeField {fields : List (Bytes × Bytes)} (h : ∀ field ∈ fields, IsField field)
    (rest : Bytes) :
    readLines [] (fields.flatMap writeField ++ 0x0D :: 0x0A :: rest) =
      some (fields.map fun field => field.1 ++ 0x3A :: 0x20 :: field.2, rest) := by
  induction fields with
  | nil => rfl
  | cons field fields ih =>
      rw [List.forall_mem_cons] at h
      obtain ⟨⟨⟨hname, htoken⟩, hbytes, -⟩, hfields⟩ := h
      have hline : (0x0D : UInt8) ∉ field.1 ++ 0x3A :: 0x20 :: field.2 := by
        have hleft := notMem_of_all (c := 0x0D) htoken (by decide)
        have hright := notMem_of_all (c := 0x0D) hbytes (by decide)
        simp [hleft, hright]
      have hwritten : (field :: fields).flatMap writeField ++ 0x0D :: 0x0A :: rest =
          (field.1 ++ 0x3A :: 0x20 :: field.2) ++ 0x0D :: 0x0A ::
            (fields.flatMap writeField ++ 0x0D :: 0x0A :: rest) := by
        simp [writeField]
      rw [hwritten, readLines_line hline [] _ (by simp), ih hfields]
      rfl

theorem mapM_readField {fields : List (Bytes × Bytes)} (h : ∀ field ∈ fields, IsField field) :
    (fields.map fun field => field.1 ++ 0x3A :: 0x20 :: field.2).mapM readField = some fields := by
  induction fields with
  | nil => rfl
  | cons field fields ih =>
      rw [List.forall_mem_cons] at h
      rw [List.map_cons, List.mapM_cons, readField_writeField h.1, ih h.2]
      rfl

/-! ### Requests -/

theorem readRequestLine_write {method target path : Bytes} {query : Option Bytes}
    (hmethod : IsFieldName method) (hspace : (0x20 : UInt8) ∉ target)
    (htarget : readTarget target = some (path, query)) :
    readRequestLine (method ++ 0x20 :: (target ++ 0x20 :: version11)) =
      some (method, path, query) := by
  have hspace' : (0x20 : UInt8) ∉ method := notMem_of_all hmethod.2 (by decide)
  simp only [readRequestLine, splitFirst_append hspace', splitFirst_append hspace,
    Option.bind_eq_bind, Option.bind_some, guard, ne_eq, hmethod.1, not_false_eq_true, hmethod.2,
    and_self, if_true, htarget]
  rfl

theorem of_readRequestLine {line method path : Bytes} {query : Option Bytes}
    (h : readRequestLine line = some (method, path, query)) :
    ∃ target text, line = method ++ 0x20 :: (target ++ 0x20 :: text) ∧ (0x20 : UInt8) ∉ method ∧
      (0x20 : UInt8) ∉ target ∧ readTarget target = some (path, query) := by
  simp only [readRequestLine, Option.bind_eq_bind, Option.bind_eq_some_iff] at h
  obtain ⟨⟨method', rest⟩, hmethod, ⟨target, text⟩, htarget, -, -, parts, hparts, heq⟩ := h
  obtain ⟨rfl, rfl⟩ := Prod.mk.inj (Option.some.inj heq)
  obtain ⟨rfl, hnotMethod⟩ := append_of_splitFirst hmethod
  obtain ⟨rfl, hnotTarget⟩ := append_of_splitFirst htarget
  exact ⟨target, text, rfl, hnotMethod, hnotTarget, hparts⟩

/-- A head is read back if every byte of its path stands for itself. -/
theorem read_write {method path : Bytes} {query : Option Bytes} {fields : List (Bytes × Bytes)}
    (hmethod : IsFieldName method) (hpath : path.all isPathByte = true)
    (hslash : path.head? = some 0x2F) (hquery : IsQuery query)
    (hfields : ∀ field ∈ fields, IsField field) :
    read (write method (path ++ writeQuery query) version11 fields) =
      some (⟨method, path, query, fields⟩, []) := by
  have htail := (readQuery_writeQuery hquery).2
  have htarget : ∀ c : UInt8, isPathByte c = false → isTailByte c = false →
      c ∉ path ++ writeQuery query := by
    intro c hc hc'
    rw [List.mem_append, not_or]
    exact ⟨notMem_of_all hpath hc, notMem_of_all htail hc'⟩
  have hline : (0x0D : UInt8) ∉
      method ++ 0x20 :: ((path ++ writeQuery query) ++ 0x20 :: version11) := by
    have hleft : (0x0D : UInt8) ∉ method := notMem_of_all hmethod.2 (by decide)
    have hright := htarget 0x0D (by decide) (by decide)
    have hversion : (0x0D : UInt8) ∉ version11 := by decide
    rw [List.mem_append, List.mem_cons, List.mem_append, List.mem_cons]
    simp [hleft, hright, hversion]
  have hwritten : write method (path ++ writeQuery query) version11 fields =
      (method ++ 0x20 :: ((path ++ writeQuery query) ++ 0x20 :: version11)) ++ 0x0D :: 0x0A ::
        (fields.flatMap writeField ++ 0x0D :: 0x0A :: []) := by
    simp [write]
  rw [read, hwritten, readLines_line hline [] _ (by simp), readLines_writeField hfields]
  simp only [Option.map_some, List.nil_append, Option.bind_eq_bind, Option.bind_some,
    readRequestLine_write hmethod (htarget 0x20 (by decide) (by decide))
      (readTarget_write hpath hslash hquery), mapM_readField hfields]
  rfl

theorem of_read_write {method target version rest : Bytes} {fields : List (Bytes × Bytes)}
    {head : Head} (hmethod : (0x20 : UInt8) ∉ method)
    (h : read (write method target version fields) = some (head, rest)) :
    ∃ raw tail text, raw ++ tail = target ++ 0x20 :: text ∧ (0x20 : UInt8) ∉ raw ∧
      (0x3F : UInt8) ∉ raw ∧ decodePath raw = some head.path := by
  simp only [read, Option.bind_eq_bind, Option.bind_eq_some_iff] at h
  obtain ⟨⟨lines, rest'⟩, hlines, hread⟩ := h
  cases lines with
  | nil => cases hread
  | cons line lines =>
      simp only [Option.bind_eq_some_iff] at hread
      obtain ⟨⟨method', path, query⟩, hrequest, fields', -, hhead⟩ := hread
      obtain ⟨rfl, -⟩ := Prod.mk.inj (Option.some.inj hhead)
      obtain ⟨target', text, rfl, hmethod', hspace, htarget⟩ := of_readRequestLine hrequest
      obtain ⟨raw, tail, rfl, hquestion, hdecode⟩ := of_readTarget htarget
      obtain ⟨more, hmore⟩ := prefix_of_readLines hlines
      rw [List.nil_append, write, List.append_assoc, List.cons_append] at hmore
      obtain ⟨-, hrest⟩ := append_cons_inj_of_notMem_left hmethod' hmethod hmore
      rw [List.append_assoc, List.append_assoc] at hrest
      have hnotSpace : (0x20 : UInt8) ∉ raw := by
        intro hmem
        exact hspace (List.mem_append_left _ hmem)
      exact ⟨raw, _, _, hrest, hnotSpace, hquestion, hdecode⟩

/-- What stays in its place: a head is read back with the path it was written with
exactly if every byte of the path stands for itself. -/
theorem read_write_iff {method path : Bytes} {query : Option Bytes}
    {fields : List (Bytes × Bytes)} (hmethod : IsFieldName method)
    (hslash : path.head? = some 0x2F) (hquery : IsQuery query)
    (hfields : ∀ field ∈ fields, IsField field) :
    read (write method (path ++ writeQuery query) version11 fields) =
        some (⟨method, path, query, fields⟩, []) ↔ path.all isPathByte = true := by
  constructor
  · intro hread
    have hspace : (0x20 : UInt8) ∉ method := notMem_of_all hmethod.2 (by decide)
    obtain ⟨raw, tail, text, hraw, hnotSpace, hnotQuestion, hdecode⟩ := of_read_write hspace hread
    obtain ⟨hlen, hall⟩ := length_le_of_decodePath hdecode
    -- the raw path ends before the query or the space, so it is no longer than `path`
    have hprefix : raw <+: path := by
      cases query with
      | none =>
          rw [writeQuery, List.append_nil] at hraw
          exact prefix_of_notMem hnotSpace hraw
      | some query =>
          rw [writeQuery, List.append_assoc] at hraw
          exact prefix_of_notMem hnotQuestion hraw
    obtain rfl := hprefix.eq_of_length_le hlen
    exact hall rfl
  · intro hpath
    exact read_write hmethod hpath hslash hquery hfields

end ExchangeClient.HttpHead
