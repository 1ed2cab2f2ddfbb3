import AuthGate.Proofs.EntryPoint.RoundTrip
import AuthGate.Proofs.Text.Split

set_option autoImplicit false

/-! # Paths and queries

An entry point can be given as a path or as a query. Identifiers and indices are written alike in
both, but for slashes on one side and dots and brackets on the other, and both readers take them for
the same elements. A path is read one segment after the other, so two paths with a slash between
them name the elements of the first and then those of the second, and empty segments count for
nothing. The main statement is `ofPath_agrees`. -/

namespace AuthGate.EntryPoint

open Text (IsDecimal)

/-! ## Elements -/

/-- A text that names an element in a path and, with a dot or brackets, in a query: an identifier,
    or a whole number that 64 signed bits hold, in any spelling. -/
inductive Spells : List Char → RefTerm → Prop
  | identifier {name : List Char} (identifier : isIdentifier name = true) :
    Spells name (.key (String.ofList name))
  | index {number : List Char} {i : Int} (decimal : IsDecimal number i)
      (low : -(0x8000000000000000) ≤ i) (high : i < 0x8000000000000000) : Spells number (.index i)

theorem not_isInitial_of_isDigit {c : Char} (h : Text.isDigit c = true) : isInitial c = false := by
  have hrange := Text.isDigit_iff.1 h
  have hunderscore : c ≠ '_' := by
    rintro rfl
    exact absurd h (by decide)
  have hlower : 'a'.toNat = 97 := rfl
  have hupper : 'A'.toNat = 65 := rfl
  simp only [isInitial, Text.le_iff_toNat_le, beq_eq_false_iff_ne.2 hunderscore, Bool.or_false,
    Bool.or_eq_false_iff, Bool.and_eq_false_iff, decide_eq_false_iff_not]
  omega

/-- No identifier is a whole number: it begins with neither a digit nor a sign. -/
theorem int64?_of_isIdentifier {name : List Char} (h : isIdentifier name = true) :
    Text.int64? name = none := by
  cases name with
  | nil => cases h
  | cons c rest =>
    obtain ⟨hc, -⟩ := Bool.and_eq_true_iff.1 h
    rw [Option.eq_none_iff_forall_ne_some]
    intro i hi
    obtain ⟨hdecimal, -⟩ := Text.int64?_eq_some_iff.1 hi
    have hfirst : isInitial c = false := by
      rcases hdecimal.mem (List.mem_cons_self ..) with hdigit | rfl | rfl
      · exact not_isInitial_of_isDigit hdigit
      · decide
      · decide
    rw [hfirst] at hc
    cases hc

theorem isMedial_of_mem {name : List Char} (h : isIdentifier name = true) {c : Char}
    (hc : c ∈ name) : isMedial c = true := by
  cases name with
  | nil => cases h
  | cons first rest =>
    obtain ⟨hfirst, hrest⟩ := Bool.and_eq_true_iff.1 h
    rcases List.mem_cons.1 hc with rfl | hc
    · rw [isMedial, hfirst, Bool.true_or]
    · exact List.all_eq_true.1 hrest c hc

section Spells

variable {text : List Char} {term : RefTerm}

theorem Spells.termOfSegment_eq (h : Spells text term) : termOfSegment text = term := by
  cases h with
  | identifier identifier => rw [termOfSegment, int64?_of_isIdentifier identifier]
  | index decimal low high => rw [termOfSegment, Text.int64?_eq_some_iff.2 ⟨decimal, low, high⟩]

theorem Spells.ne_nil (h : Spells text term) : text ≠ [] := by
  cases h with
  | identifier identifier =>
    rintro rfl
    cases identifier
  | index decimal => exact decimal.ne_nil

theorem Spells.slash_notMem (h : Spells text term) : '/' ∉ text := by
  intro hmem
  cases h with
  | identifier identifier => exact absurd (isMedial_of_mem identifier hmem) (by decide)
  | index decimal =>
    rcases decimal.mem hmem with hdigit | h | h
    · exact absurd hdigit (by decide)
    · cases h
    · cases h

/-- The segment of a query for an element that has this text in a path. -/
def segmentOf (text : List Char) : RefTerm → List Char
  | .key _ => '.' :: text
  | .index _ => '[' :: (text ++ [']'])

theorem Spells.segment (h : Spells text term) : Segment (segmentOf text term) term := by
  cases h with
  | identifier identifier => exact .dotted identifier
  | index decimal low high =>
    have hsegment := Segment.indexed Text.areBlank_nil Text.areBlank_nil decimal low high
    simpa [segmentOf] using hsegment

end Spells

/-! ## Segments of a path -/

/-- The elements of a path. -/
def termsOf (path : List Char) : List RefTerm :=
  ((Text.splitAll '/' path).filter (!·.isEmpty)).map termOfSegment

theorem ofPath_eq (path : String) : ofPath path = ⟨termsOf path.toList⟩ := rfl

theorem termsOf_append_cons (a b : List Char) :
    termsOf (a ++ '/' :: b) = termsOf a ++ termsOf b := by
  rw [termsOf, Text.splitAll_append_cons, List.filter_append, List.map_append, termsOf, termsOf]

theorem termsOf_slashes_append (n : Nat) (a : List Char) :
    termsOf (List.replicate n '/' ++ a) = termsOf a := by
  induction n with
  | zero => rfl
  | succ n ih =>
    rw [List.replicate_succ, List.cons_append, ← List.nil_append ('/' :: _), termsOf_append_cons,
      ih]
    rfl

theorem termsOf_append_slashes (n : Nat) (a : List Char) :
    termsOf (a ++ List.replicate n '/') = termsOf a := by
  cases n with
  | zero => rw [List.replicate_zero, List.append_nil]
  | succ n =>
    have hnone := termsOf_slashes_append n []
    rw [List.append_nil] at hnone
    rw [List.replicate_succ, termsOf_append_cons, hnone]
    exact List.append_nil _

theorem Spells.termsOf_eq {text : List Char} {term : RefTerm} (h : Spells text term) :
    termsOf text = [term] := by
  have hpiece : Text.splitAll '/' text = [text] := by
    have hpieces : ∀ piece ∈ [text], '/' ∉ piece := by simpa using h.slash_notMem
    simpa using Text.splitAll_intercalate hpieces (List.cons_ne_nil text [])
  simp [termsOf, hpiece, h.ne_nil, h.termOfSegment_eq]

variable {texts : List (List Char)} {terms : List RefTerm}

/-- Texts between slashes are read one by one. -/
theorem termsOf_intercalate (h : List.Forall₂ Spells texts terms) :
    termsOf (['/'].intercalate texts) = terms := by
  induction h with
  | nil => rfl
  | @cons text term texts terms htext _ ih =>
    cases texts with
    | nil =>
      rw [List.intercalate_singleton, htext.termsOf_eq, ← ih]
      rfl
    | cons next texts =>
      rw [List.intercalate_cons_cons, List.append_assoc, List.singleton_append,
        termsOf_append_cons, htext.termsOf_eq, ih, List.singleton_append]

/-- The same texts with dots and brackets are segments of a query. -/
theorem segments_zipWith (h : List.Forall₂ Spells texts terms) :
    Segments (List.zipWith segmentOf texts terms).flatten terms := by
  induction h with
  | nil => exact .nil
  | cons htext _ ih => exact .cons htext.segment ih

/-! ## Paths and queries -/

/-- Texts that name elements name the same ones in a path and in a query. -/
theorem read_of_spells (h : List.Forall₂ Spells texts terms) :
    ofPath (String.ofList (['/'].intercalate texts)) = ⟨terms⟩ ∧
      parse (String.ofList (root.toList ++ (List.zipWith segmentOf texts terms).flatten)) =
        .ok ⟨terms⟩ := by
  have hquery : IsQuery (root.toList ++ (List.zipWith segmentOf texts terms).flatten) ⟨terms⟩ :=
    ⟨_, rfl, segments_zipWith h⟩
  exact ⟨by rw [ofPath_eq, String.toList_ofList, termsOf_intercalate h], hquery.parse_eq⟩

/-- An element that a path can name and a query without a literal. -/
def IsPlain : RefTerm → Prop
  | .key name => isIdentifier name.toList = true
  | .index i => -(0x8000000000000000) ≤ i ∧ i < 0x8000000000000000

instance : DecidablePred IsPlain
  | .key name => inferInstanceAs (Decidable (isIdentifier name.toList = true))
  | .index i => inferInstanceAs
      (Decidable (-(0x8000000000000000) ≤ i ∧ i < 0x8000000000000000))

/-- The text of an element in a path. -/
def pathText : RefTerm → String
  | .key name => name
  | .index i => String.ofList (Text.ofInt i)

/-- The text of an element in a query. -/
def queryText : RefTerm → String
  | .key name => "." ++ name
  | .index i => "[" ++ String.ofList (Text.ofInt i) ++ "]"

theorem spells_pathText {t : RefTerm} (h : IsPlain t) : Spells (pathText t).toList t := by
  cases t with
  | key name =>
    have hspells := @Spells.identifier name.toList h
    rwa [String.ofList_toList] at hspells
  | index i =>
    rw [pathText, String.toList_ofList]
    exact .index (Text.isDecimal_ofInt i) h.1 h.2

theorem toList_queryText (t : RefTerm) :
    (queryText t).toList = segmentOf (pathText t).toList t := by
  cases t with
  | key name =>
    rw [queryText, String.toList_append]
    rfl
  | index i =>
    rw [queryText, String.toList_append, String.toList_append]
    rfl

theorem forall₂_spells {terms : List RefTerm} (h : ∀ t ∈ terms, IsPlain t) :
    List.Forall₂ Spells (terms.map fun t => (pathText t).toList) terms := by
  induction terms with
  | nil => exact .nil
  | cons t rest ih =>
    obtain ⟨ht, hrest⟩ := List.forall_mem_cons.1 h
    exact .cons (spells_pathText ht) (ih hrest)

/-- Identifiers and indices are read alike from a path and from a query. -/
theorem read_plain {terms : List RefTerm} (h : ∀ t ∈ terms, IsPlain t) :
    ofPath ("/".intercalate (terms.map pathText)) = ⟨terms⟩ ∧
      parse ("data" ++ String.join (terms.map queryText)) = .ok ⟨terms⟩ := by
  have hread := read_of_spells (forall₂_spells h)
  have hpath : String.ofList (['/'].intercalate (terms.map fun t => (pathText t).toList)) =
      "/".intercalate (terms.map pathText) := by
    rw [← String.toList_inj, String.toList_intercalate, String.toList_ofList, List.map_map]
    rfl
  have hquery : String.ofList (root.toList ++ (List.zipWith segmentOf
      (terms.map fun t => (pathText t).toList) terms).flatten) =
      "data" ++ String.join (terms.map queryText) := by
    rw [← String.toList_inj, String.toList_append, String.toList_join, String.toList_ofList,
      List.zipWith_map_left, List.zipWith_self, List.flatMap_map]
    simp only [toList_queryText]
    rfl
  rwa [hpath, hquery] at hread

/-- Names between dots are names with a dot before each but the first. -/
theorem intercalate_dot (first : String) (names : List String) :
    ".".intercalate (first :: names) = first ++ String.join (names.map ("." ++ ·)) := by
  rw [← String.toList_inj, String.toList_intercalate, String.toList_append, String.toList_join]
  induction names generalizing first with
  | nil => simp
  | cons name rest ih =>
    have hrest := ih name
    rw [List.map_cons] at hrest
    rw [List.map_cons, List.map_cons, List.intercalate_cons_cons, hrest, List.map_cons,
      List.flatMap_cons, String.toList_append, List.append_assoc, List.append_assoc]

/-! ## Slashes -/

/-- Two paths with a slash between them name the elements of the first and then those of the
    second. -/
theorem terms_ofPath_append (a b : String) :
    (ofPath (a ++ "/" ++ b)).terms = (ofPath a).terms ++ (ofPath b).terms := by
  have hslash : (a ++ "/" ++ b).toList = a.toList ++ '/' :: b.toList := by
    rw [String.toList_append, String.toList_append, List.append_assoc]
    rfl
  simp only [ofPath_eq, hslash, termsOf_append_cons]

/-- A number of slashes. -/
def slashes (n : Nat) : String := String.ofList (List.replicate n '/')

theorem ofPath_slashes_append (n : Nat) (a : String) : ofPath (slashes n ++ a) = ofPath a := by
  rw [ofPath_eq, String.toList_append, slashes, String.toList_ofList, termsOf_slashes_append,
    ofPath_eq]

theorem ofPath_append_slashes (n : Nat) (a : String) : ofPath (a ++ slashes n) = ofPath a := by
  rw [ofPath_eq, String.toList_append, slashes, String.toList_ofList, termsOf_append_slashes,
    ofPath_eq]

/-- Between two segments more slashes are as good as one. -/
theorem ofPath_repeated (n : Nat) (a b : String) :
    ofPath (a ++ "/" ++ (slashes n ++ b)) = ofPath (a ++ "/" ++ b) := by
  have hterms := terms_ofPath_append a (slashes n ++ b)
  rw [ofPath_slashes_append, ← terms_ofPath_append] at hterms
  exact congrArg EntryPoint.mk hterms

/-- A path of identifiers names what they name in a query with dots, and a path of identifiers and
    indices what they name in a query with dots and brackets: the elements that were written. A
    slash between two paths puts their elements one after the other, so that slashes before, after
    and beside other slashes do not matter. -/
theorem ofPath_agrees :
    (∀ names : List String, (∀ name ∈ names, isIdentifier name.toList = true) →
      parse (".".intercalate ("data" :: names)) = .ok (ofPath ("/".intercalate names))) ∧
    (∀ terms : List RefTerm, (∀ t ∈ terms, IsPlain t) →
      parse ("data" ++ String.join (terms.map queryText)) =
          .ok (ofPath ("/".intercalate (terms.map pathText))) ∧
        (ofPath ("/".intercalate (terms.map pathText))).terms = terms) ∧
    (∀ a b : String, (ofPath (a ++ "/" ++ b)).terms = (ofPath a).terms ++ (ofPath b).terms) ∧
    ∀ (n : Nat) (a b : String), ofPath (slashes n ++ a) = ofPath a ∧
      ofPath (a ++ slashes n) = ofPath a ∧
      ofPath (a ++ "/" ++ (slashes n ++ b)) = ofPath (a ++ "/" ++ b) := by
  refine ⟨fun names h => ?_, fun terms h => ?_, terms_ofPath_append, fun n a b =>
    ⟨ofPath_slashes_append n a, ofPath_append_slashes n a, ofPath_repeated n a b⟩⟩
  · have hplain : ∀ t ∈ names.map RefTerm.key, IsPlain t := by
      intro t ht
      obtain ⟨name, hname, rfl⟩ := List.mem_map.1 ht
      exact h name hname
    obtain ⟨hpath, hquery⟩ := read_plain hplain
    have hnames : (names.map RefTerm.key).map pathText = names := by
      rw [List.map_map]
      exact List.map_id names
    have hdots : (names.map RefTerm.key).map queryText = names.map ("." ++ ·) := List.map_map
    rw [hnames] at hpath
    rw [hdots, ← intercalate_dot] at hquery
    rw [hquery, hpath]
  · obtain ⟨hpath, hquery⟩ := read_plain h
    rw [hquery, hpath]
    exact ⟨rfl, rfl⟩

/-- Identifiers that look like other things, and the least and the greatest index. -/
def plainTerms : List RefTerm :=
  [.key "_", .index (-9223372036854775808), .key "e5", .key "data", .index 9223372036854775807]

theorem ofPath_agrees_plainTerms :
    (∀ t ∈ plainTerms, IsPlain t) ∧
      parse "data._[-9223372036854775808].e5.data[9223372036854775807]" =
        .ok (ofPath "_/-9223372036854775808/e5/data/9223372036854775807") := by
  obtain ⟨-, hterms, -, -⟩ := ofPath_agrees
  have hplain : ∀ t ∈ plainTerms, IsPlain t := by decide
  have hquery : "data" ++ String.join (plainTerms.map queryText) =
      "data._[-9223372036854775808].e5.data[9223372036854775807]" := by decide +kernel
  have hpath : "/".intercalate (plainTerms.map pathText) =
      "_/-9223372036854775808/e5/data/9223372036854775807" := by decide +kernel
  have hread := (hterms plainTerms hplain).1
  rw [hquery, hpath] at hread
  exact ⟨hplain, hread⟩

end AuthGate.EntryPoint
