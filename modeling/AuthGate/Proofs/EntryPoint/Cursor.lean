import AuthGate.Proofs.EntryPoint.Grammar
import AuthGate.Proofs.Server.Deadline

set_option autoImplicit false

/-! # A reader by offsets

A machine does not take a query apart: it keeps the whole text and the offset in bytes up to which
it has read, counts characters and bytes, and cuts the text at offsets that it has added up. Each
cut could fall inside a character or behind the end, a difference could be negative, and the loop
over the segments could stay where it is; `Cursor` holds a reader in which all of this can go wrong.
Here stand what it searches for (`find?_eq`, `closingQuote?_eq`) and where a text can be cut
(`exists_cut_eq_ok_iff`). -/

namespace AuthGate.EntryPoint

open Text.Utf8 (width width_append)

namespace Cursor

/-! ## Offsets -/

/-- Why a reader by offsets stops. -/
inductive Stop where
  /-- The text is no query, which was found at this offset. -/
  | refused (fault : QueryFault) (pos : Nat)
  /-- A text was cut behind its end or inside a character. -/
  | astray (text : List Char) (pos : Nat)
  /-- An offset would be less than nothing. -/
  | negative
  /-- The text goes on after the last iteration that is allowed. -/
  | exhausted
  deriving DecidableEq

/-- A text in two at an offset. -/
def cut (text : List Char) (pos : Nat) : Except Stop (List Char × List Char) :=
  match Timeout.cutAt? pos text with
  | some parts => .ok parts
  | none => .error (.astray text pos)

/-- The text from an offset on. -/
def tailFrom (text : List Char) (pos : Nat) : Except Stop (List Char) := (cut text pos).map (·.2)

/-- The text up to an offset. -/
def headUpTo (text : List Char) (pos : Nat) : Except Stop (List Char) := (cut text pos).map (·.1)

/-- One offset less another. -/
def less (a b : Nat) : Except Stop Nat := if b ≤ a then .ok (a - b) else .error .negative

/-- The characters of a text with their offsets, the first of which is `i`. -/
def indexed (i : Nat) : List Char → List (Nat × Char)
  | [] => []
  | c :: cs => (i, c) :: indexed (i + c.utf8Size) cs

/-- The offset of the first character that is `sep`. -/
def find? (sep : Char) (text : List Char) : Option Nat :=
  ((indexed 0 text).find? fun (_, c) => c == sep).map (·.1)

/-- The offset behind the first quote that no backslash escapes; `escaped` if the character before
    was a backslash that is not escaped itself. -/
def closing? : Bool → List (Nat × Char) → Option Nat
  | _, [] => none
  | true, _ :: rest => closing? false rest
  | false, (i, c) :: rest =>
    if c = '\\' then closing? true rest
    else if c = '"' then some (i + 1)
    else closing? false rest

/-- The offset behind the literal with which a text begins. -/
def closingQuote? (text : List Char) : Option Nat := closing? false ((indexed 0 text).drop 1)

/-! ## The reader -/

/-- Whether a character that stands at an offset of the text after the cursor belongs to an
    identifier: a digit does if it is not the first. -/
def belongs : Nat × Char → Bool
  | (i, c) => isInitial c || (decide (0 < i) && Text.isDigit c)

/-- The identifier at an offset, and the offset after it. The characters are counted, and the count
    is taken for bytes. -/
def identifier (source : List Char) (pos : Nat) : Except Stop (List Char × Nat) := do
  let rest ← tailFrom source pos
  let count := ((indexed 0 rest).takeWhile belongs).length
  if count = 0 then throw (.refused .noIdentifier pos)
  let name ← headUpTo rest count
  return (name, pos + count)

/-- Where the search for the closing bracket begins, when what is no blank begins at `start`. -/
def searchFrom (pos start : Nat) (inside : List Char) : Except Stop Nat :=
  if inside.head? = some '"' then
    match closingQuote? inside with
    | none => .error (.refused .openKey pos)
    | some size => .ok (start + size)
  else .ok 0

/-- The element that stands in brackets. -/
def element (quoted : Bool) (inner : List Char) : Except QueryFault RefTerm :=
  if quoted then
    match Json.literal? inner with
    | some key => .ok (.key (String.ofList key))
    | none => .error .badKey
  else
    match Text.int64? inner with
    | some i => .ok (.index i)
    | none => .error (.badIndex (String.ofList inner))

/-- The brackets closed behind the offset `search` of the text after the opening one, and the offset
    after the closing one. -/
def close (pos : Nat) (rest : List Char) (quoted : Bool) (search : Nat) :
    Except Stop (RefTerm × Nat) := do
  match find? ']' (← tailFrom rest search) with
  | none => throw (.refused .openBracket pos)
  | some size =>
    let inner ← headUpTo rest (search + size)
    let pos := pos + (search + size + 1)
    match element quoted (Text.trim inner) with
    | .ok term => return (term, pos)
    | .error fault => throw (.refused fault pos)

/-- What stands in brackets, from the offset after the opening one, and the offset after the
    closing one. -/
def bracket (source : List Char) (pos : Nat) : Except Stop (RefTerm × Nat) := do
  let rest ← tailFrom source pos
  let start ← less (width rest) (width (Text.trimLeft rest))
  let inside ← tailFrom rest start
  let search ← searchFrom pos start inside
  close pos rest (inside.head? = some '"') search

/-- Where the loop over the segments stands. -/
structure State where
  pos : Nat
  terms : List RefTerm
  deriving DecidableEq

/-- One iteration of the loop; none at the end of the text. -/
def iterate (source : List Char) (s : State) : Except Stop (Option State) := do
  match ← tailFrom source s.pos with
  | [] => return none
  | '.' :: _ =>
    let (name, pos) ← identifier source (s.pos + 1)
    return some ⟨pos, s.terms ++ [.key (String.ofList name)]⟩
  | '[' :: _ =>
    let (term, pos) ← bracket source (s.pos + 1)
    return some ⟨pos, s.terms ++ [term]⟩
  | c :: _ => throw (.refused (.unexpected c) s.pos)

/-- The loop, if it takes no more iterations than these. -/
def loop (source : List Char) : Nat → State → Except Stop (List RefTerm)
  | 0, s => do
    if (← tailFrom source s.pos).isEmpty then return s.terms else throw .exhausted
  | n + 1, s => do
    match ← iterate source s with
    | none => return s.terms
    | some s => loop source n s

/-- The entry point of a query without blanks around it, if the loop takes no more iterations than
    these. -/
def read (source : List Char) (iterations : Nat) : Except Stop EntryPoint := do
  let (head, pos) ← identifier source 0
  if head = root.toList then
    let terms ← loop source iterations ⟨pos, []⟩
    return ⟨terms⟩
  else throw (.refused (.otherRoot (String.ofList head)) pos)

/-! ## Cutting -/

/-- An offset of a text that is neither behind its end nor inside a character. -/
def IsBoundary (text : List Char) (pos : Nat) : Prop :=
  ∃ before after, text = before ++ after ∧ width before = pos

theorem IsBoundary.le_width {text : List Char} {pos : Nat} (h : IsBoundary text pos) :
    pos ≤ width text := by
  obtain ⟨before, after, rfl, rfl⟩ := h
  rw [width_append]
  exact Nat.le_add_right _ _

theorem exists_of_cutAt? {pos : Nat} {text before after : List Char}
    (h : Timeout.cutAt? pos text = some (before, after)) :
    text = before ++ after ∧ width before = pos := by
  fun_induction Timeout.cutAt? pos text generalizing before after with
  | case1 cs =>
    cases h
    exact ⟨rfl, rfl⟩
  | case2 => cases h
  | case3 n c cs hsize ih =>
    obtain ⟨⟨left, right⟩, hrest, hparts⟩ := Option.map_eq_some_iff.1 h
    cases hparts
    obtain ⟨rfl, hwidth⟩ := ih hrest
    exact ⟨rfl, by rw [width]; omega⟩
  | case4 => cases h

theorem cut_eq_ok_iff {text before after : List Char} {pos : Nat} :
    cut text pos = .ok (before, after) ↔ text = before ++ after ∧ width before = pos := by
  constructor
  · intro h
    rw [cut] at h
    split at h
    · next hparts =>
      cases h
      exact exists_of_cutAt? hparts
    · cases h
  · rintro ⟨rfl, rfl⟩
    rw [cut, Timeout.cutAt?_width]

/-- A text can be cut at its boundaries and nowhere else. -/
theorem exists_cut_eq_ok_iff {text : List Char} {pos : Nat} :
    (∃ parts, cut text pos = .ok parts) ↔ IsBoundary text pos := by
  simp only [Prod.exists, cut_eq_ok_iff, IsBoundary]

theorem tailFrom_width (before after : List Char) :
    tailFrom (before ++ after) (width before) = .ok after := by
  rw [tailFrom, cut_eq_ok_iff.2 ⟨rfl, rfl⟩]
  rfl

theorem tailFrom_end (text : List Char) : tailFrom text (width text) = .ok [] := by
  have h := tailFrom_width text []
  rwa [List.append_nil] at h

theorem headUpTo_width (before after : List Char) :
    headUpTo (before ++ after) (width before) = .ok before := by
  rw [headUpTo, cut_eq_ok_iff.2 ⟨rfl, rfl⟩]
  rfl

/-! ## Searching -/

theorem belongs_of_pos {i : Nat} (hi : 0 < i) (c : Char) : belongs (i, c) = isMedial c := by
  rw [belongs, decide_eq_true hi, Bool.true_and, isMedial]

/-- Behind the first character an identifier goes on as long as its characters do. -/
theorem length_takeWhile_belongs {i : Nat} (hi : 0 < i) (cs : List Char) :
    ((indexed i cs).takeWhile belongs).length = (cs.takeWhile isMedial).length := by
  induction cs generalizing i with
  | nil => rfl
  | cons c rest ih =>
    rw [indexed, List.takeWhile_cons, List.takeWhile_cons, belongs_of_pos hi]
    split
    · rw [List.length_cons, List.length_cons, ih (Nat.add_pos_left hi _)]
    · rfl

theorem find?_indexed (sep : Char) (i : Nat) (text : List Char) :
    ((indexed i text).find? fun (_, c) => c == sep).map (·.1) =
      (Text.splitOnce sep text).map fun parts => i + width parts.1 := by
  induction text generalizing i with
  | nil => rfl
  | cons c rest ih =>
    by_cases hc : c = sep
    · simp [indexed, Text.splitOnce, hc, width]
    · have hne : (c == sep) = false := beq_eq_false_iff_ne.2 hc
      simp only [indexed, List.find?_cons, hne, ih, Text.splitOnce, if_neg hc, Option.map_map]
      refine congrArg (Option.map · _) (funext fun parts => ?_)
      simp only [Function.comp_apply, width, Nat.add_assoc]

/-- The first separator stands where the text is split. -/
theorem find?_eq (sep : Char) (text : List Char) :
    find? sep text = (Text.splitOnce sep text).map fun parts => width parts.1 := by
  simp only [find?, find?_indexed, Nat.zero_add]

theorem closing?_indexed (i : Nat) (text : List Char) :
    closing? false (indexed i text) =
      (Json.Literal.afterQuote? text).map fun tail => i + width text - width tail := by
  have hquote : '"'.utf8Size = 1 := rfl
  have hbackslash : '\\'.utf8Size = 1 := rfl
  fun_induction Json.Literal.afterQuote? text generalizing i with
  | case1 => rfl
  | case2 c rest ih =>
    have hstep : closing? false (indexed i ('\\' :: c :: rest)) =
        closing? false (indexed (i + 1 + c.utf8Size) rest) := by
      simp only [indexed, closing?, if_true, hbackslash]
    rw [hstep, ih]
    refine congrArg (Option.map · _) (funext fun tail => ?_)
    rw [width, width, hbackslash]
    omega
  | case3 rest =>
    have hend : i + (1 + width rest) - width rest = i + 1 := by omega
    simp [indexed, closing?, width, hquote, hend]
  | case4 c rest hlone hne ih =>
    by_cases hc : c = '\\'
    · -- a backslash that nothing follows
      cases rest with
      | nil => simp [indexed, closing?, hc, Json.Literal.afterQuote?]
      | cons d rest => exact absurd rfl (hlone d rest hc)
    · simp only [indexed, closing?, if_neg hc, if_neg hne, ih]
      refine congrArg (Option.map · _) (funext fun tail => ?_)
      rw [width, Nat.add_assoc]

/-- The closing quote is the one after which the reader of the rest goes on. -/
theorem closingQuote?_eq (body : List Char) :
    closingQuote? ('"' :: body) =
      (Json.Literal.afterQuote? body).map fun tail => 1 + width body - width tail :=
  closing?_indexed 1 body

end Cursor

end AuthGate.EntryPoint
