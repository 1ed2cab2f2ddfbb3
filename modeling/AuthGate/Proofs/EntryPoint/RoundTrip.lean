import AuthGate.Engine.Query
import AuthGate.Proofs.Config.Resolve
import AuthGate.Proofs.EntryPoint.Grammar
import AuthGate.Rego.Session

set_option autoImplicit false

/-! # Queries as they are written

The query that is written for an entry point is a query of the grammar, and reads as that entry
point and as no other. An index must fit the 64 bits that the reader allows it; those of every
configured entry point do. The main statement is `parse_render`. -/

namespace AuthGate

/-- Whether a reader's index can hold the element. -/
def RefTerm.fits : RefTerm → Bool
  | .key _ => true
  | .index i => Text.fitsInt64 i

namespace EntryPoint

open Text (AreBlank)

/-- Every index is one that a reader's index can hold. -/
def Bounded (e : EntryPoint) : Prop := ∀ t ∈ e.terms, t.fits = true

instance (e : EntryPoint) : Decidable e.Bounded :=
  inferInstanceAs (Decidable (∀ t ∈ e.terms, t.fits = true))

/-! ## Writing -/

/-- What is written for an element is a segment that names it: a key that is no identifier as a
    literal, so that nothing in it ends the brackets. -/
theorem segment_termChars {t : RefTerm} (h : t.fits = true) : Segment (termChars t) t := by
  cases t with
  | key name =>
    rw [termChars]
    split
    · next hname =>
      have hsegment := Segment.dotted hname
      rwa [String.ofList_toList] at hsegment
    · have hcontent := Json.Literal.content_flatMap_encodeChar name.toList
      have hsegment := Segment.quoted Text.areBlank_nil Text.areBlank_nil hcontent
      rw [String.ofList_toList] at hsegment
      simpa [Json.Literal.encode] using hsegment
  | index i =>
    have hrange : -(0x8000000000000000) ≤ i ∧ i < 0x8000000000000000 := by
      simpa [RefTerm.fits, Text.fitsInt64] using h
    have hsegment := Segment.indexed Text.areBlank_nil Text.areBlank_nil (Text.isDecimal_ofInt i)
      hrange.1 hrange.2
    simpa [termChars] using hsegment

theorem segments_flatMap_termChars {terms : List RefTerm} (h : ∀ t ∈ terms, t.fits = true) :
    Segments (terms.flatMap termChars) terms := by
  induction terms with
  | nil => exact .nil
  | cons t rest ih =>
    obtain ⟨ht, hrest⟩ := List.forall_mem_cons.1 h
    exact .cons (segment_termChars ht) (ih hrest)

/-- What is written for an entry point is a query of the grammar. -/
theorem Bounded.isQuery {e : EntryPoint} (h : e.Bounded) : IsQuery e.chars e :=
  ⟨_, rfl, segments_flatMap_termChars h⟩

/-! ## Reading -/

/-- A query is one with no blanks around it. -/
theorem IsQuery.isPaddedQuery {cs : List Char} {e : EntryPoint} (h : IsQuery cs e) :
    IsPaddedQuery cs e :=
  ⟨[], cs, [], by simp [AreBlank], by simp [AreBlank], by simp, h⟩

theorem IsQuery.parse_eq {cs : List Char} {e : EntryPoint} (h : IsQuery cs e) :
    parse (String.ofList cs) = .ok e := by
  rw [parse, mapError_eq_ok_iff, ofChars_eq_ok_iff, String.toList_ofList, isQuery_trim_iff]
  exact h.isPaddedQuery

/-- No text is the query of two entry points. -/
theorem IsPaddedQuery.unique {cs : List Char} {e e' : EntryPoint} (h : IsPaddedQuery cs e)
    (h' : IsPaddedQuery cs e') : e = e' := by
  rw [← isQuery_trim_iff, ← ofChars_eq_ok_iff] at h h'
  exact Except.ok.inj (h.symm.trans h')

theorem parse_eq_ok_iff_of_bounded {e e' : EntryPoint} (h : e.Bounded) :
    parse e.render = .ok e' ↔ e = e' := by
  rw [render, h.isQuery.parse_eq, Except.ok.injEq]

/-! ## Configured entry points -/

theorem Segments.fits {cs : List Char} {terms : List RefTerm} (h : Segments cs terms) :
    ∀ t ∈ terms, t.fits = true := by
  induction h with
  | nil => simp
  | cons first _ ih =>
    refine List.forall_mem_cons.2 ⟨?_, ih⟩
    cases first with
    | dotted | quoted => rfl
    | indexed _ _ _ low high => simp [RefTerm.fits, Text.fitsInt64, low, high]

theorem IsPaddedQuery.bounded {cs : List Char} {e : EntryPoint} (h : IsPaddedQuery cs e) :
    e.Bounded := by
  obtain ⟨_, _, _, -, -, -, _, -, hsegments⟩ := h
  exact hsegments.fits

theorem bounded_ofPath (path : String) : (ofPath path).Bounded := by
  intro t ht
  obtain ⟨segment, -, rfl⟩ := List.mem_map.1 ht
  rw [termOfSegment]
  split
  · next i hi =>
    obtain ⟨-, hrange⟩ := Text.int64?_eq_some_iff.1 hi
    simp [RefTerm.fits, Text.fitsInt64, hrange]
  · rfl

end EntryPoint

namespace Config

/-- The entry point that the operator has written down: as a query, or else as a path. -/
def Names (c : Config) (e : EntryPoint) : Prop :=
  if c.query.isEmpty then e = .ofPath (if c.path.isEmpty then defaultPath else c.path)
  else EntryPoint.IsPaddedQuery c.query.toList e

theorem Names.bounded {c : Config} {e : EntryPoint} (h : c.Names e) : e.Bounded := by
  simp only [Names] at h
  split at h
  · exact h ▸ EntryPoint.bounded_ofPath _
  · exact h.bounded

theorem Names.unique {c : Config} {e e' : EntryPoint} (h : c.Names e) (h' : c.Names e') :
    e = e' := by
  simp only [Names] at h h'
  split at h
  · next hquery =>
    rw [if_pos hquery] at h'
    exact h.trans h'.symm
  · next hquery =>
    rw [if_neg hquery] at h'
    exact h.unique h'

/-- A path as it is written reads as itself, so that no path is refused. -/
theorem resolveEntryPoint_path_eq_ok {c : Config} (hquery : c.query.isEmpty = true) :
    c.resolveEntryPoint = .ok (c.completed, .ofPath c.completed.path) := by
  have hbounded := EntryPoint.bounded_ofPath c.completed.path
  rw [resolveEntryPoint_path hquery, (EntryPoint.parse_eq_ok_iff_of_bounded hbounded).2 rfl]
  rfl

theorem names_of_resolve {read : FileReader} {c : Config} {conf : Resolved}
    (h : c.resolve read = .ok conf) : c.Names conf.entryPoint := by
  have hentry := resolveEntryPoint_of_resolve h
  cases hquery : c.query.isEmpty with
  | true =>
    rw [resolveEntryPoint_path_eq_ok hquery] at hentry
    obtain ⟨-, hconf⟩ := Prod.mk.inj (Except.ok.inj hentry)
    rw [← hconf]
    cases hpath : c.path.isEmpty <;> simp [Names, completed, hquery, hpath]
  | false =>
    cases hpath : c.path.isEmpty with
    | true =>
      rw [resolveEntryPoint_query hpath hquery, map_eq_ok_iff] at hentry
      obtain ⟨e, hparse, hconf⟩ := hentry
      obtain ⟨-, rfl⟩ := Prod.mk.inj hconf
      rw [EntryPoint.parse, mapError_eq_ok_iff, EntryPoint.ofChars_eq_ok_iff,
        EntryPoint.isQuery_trim_iff] at hparse
      simpa only [Names, hquery, Bool.false_eq_true, if_false] using hparse
    | false =>
      rw [resolveEntryPoint_both hpath hquery] at hentry
      cases hentry

end Config

theorem CompiledQuery.entry_of_compile {ε : Type} {i : Interpreter ε} {modules : Policy.Modules}
    {e : EntryPoint} {q : CompiledQuery ε} (h : compile i modules e = .ok q) : q.entry = e := by
  obtain ⟨session, -, h⟩ := bind_eq_ok_iff.1 h
  obtain ⟨-, -, h⟩ := bind_eq_ok_iff.1 h
  obtain rfl := pure_eq_ok_iff.1 h
  rfl

namespace EntryPoint

/-- What is written for an entry point reads as that entry point, so that no two are written alike.
    The query that a compiled query asks for names the entry point that the operator has written
    down and no other. -/
theorem parse_render :
    (∀ e : EntryPoint, e.Bounded → parse e.render = .ok e) ∧
    (∀ e e' : EntryPoint, e.Bounded → e'.Bounded → e.render = e'.render → e = e') ∧
    ∀ (read : Config.FileReader) (c : Config) (conf : Config.Resolved),
      c.resolve read = .ok conf →
      ∀ (ε : Type) (i : Interpreter ε) (modules : Policy.Modules) (q : CompiledQuery ε),
        CompiledQuery.compile i modules conf.entryPoint = .ok q →
        ∀ e, IsPaddedQuery q.entry.render.toList e ↔ c.Names e := by
  have hread : ∀ e : EntryPoint, e.Bounded → parse e.render = .ok e :=
    fun e h => (parse_eq_ok_iff_of_bounded h).2 rfl
  refine ⟨hread, fun e e' h h' hrender => ?_, fun read c conf hconf ε i modules q hq e => ?_⟩
  · have hparse := hread e h
    rw [hrender, hread e' h'] at hparse
    exact (Except.ok.inj hparse).symm
  · have hnames := Config.names_of_resolve hconf
    have hwritten := hnames.bounded.isQuery.isPaddedQuery
    rw [CompiledQuery.entry_of_compile hq, render, String.toList_ofList]
    constructor
    · exact fun h => hwritten.unique h ▸ hnames
    · exact fun h => hnames.unique h ▸ hwritten

/-- Keys that are no identifiers, and the least and the greatest index. -/
def oddEntryPoint : EntryPoint :=
  ⟨[.key "", .key "a]\"b\\", .key "\n\u0001é ", .key "_x1", .index (-9223372036854775808),
    .index 9223372036854775807]⟩

/-- The settings of that entry point. -/
def oddConfig : Config := { query := oddEntryPoint.render }

theorem parse_render_odd :
    oddEntryPoint.Bounded ∧ parse oddEntryPoint.render = .ok oddEntryPoint ∧
      oddConfig.resolve (fun _ => .error "no file") = .ok ⟨oddConfig, oddEntryPoint, none⟩ ∧
      CompiledQuery.compile Rego.interpreter [] oddEntryPoint =
        .ok ⟨Rego.interpreter.fresh, oddEntryPoint⟩ ∧
      ∀ e, IsPaddedQuery oddEntryPoint.render.toList e ↔ oddConfig.Names e := by
  obtain ⟨hread, -, hnames⟩ := parse_render
  have hbounded : oddEntryPoint.Bounded := by decide
  have hparse := hread oddEntryPoint hbounded
  have hentry : oddConfig.resolveEntryPoint = .ok (oddConfig, oddEntryPoint) := by
    have hquery : oddConfig.query.isEmpty = false := by decide +kernel
    have hpath : oddConfig.path.isEmpty = true := rfl
    rw [Config.resolveEntryPoint_query hpath hquery,
      show oddConfig.query = oddEntryPoint.render from rfl, hparse]
    rfl
  have hconf : oddConfig.resolve (fun _ => .error "no file") =
      .ok ⟨oddConfig, oddEntryPoint, none⟩ := by
    rw [Config.resolve, hentry]
    rfl
  have hcompiled : CompiledQuery.compile Rego.interpreter [] oddEntryPoint =
      .ok ⟨Rego.interpreter.fresh, oddEntryPoint⟩ := rfl
  have hnamed := hnames _ _ _ hconf _ _ _ _ hcompiled
  exact ⟨hbounded, hparse, hconf, hcompiled, fun e => hnamed e⟩

end EntryPoint

end AuthGate
