import AuthGate.Proofs.Input.Refusal
import AuthGate.Proofs.Text.Percent

set_option autoImplicit false

/-! # The segments of a path

Policies match the segments of a path, so none of them may be lost, merged with another or moved.
What a path is read as is a list of segments without a slash, of which the first is not empty
(`IsPath`), and every such list is read from the path in which it is written with escapes. Escapes
are undone before slashes are taken away and before the text is cut into segments, so an escaped
slash separates segments too. The main statement is `ofRequest_path`. -/

namespace AuthGate.Input

/-! ## Cutting -/

theorem cut_append_cons {sep : Char} {before : List Char} (h : sep ∉ before) (after : List Char) :
    cut sep (before ++ sep :: after) = (before, after) := by
  rw [cut, Text.splitOnce_eq_some_iff.2 ⟨rfl, h⟩]
  rfl

theorem cut_of_notMem {sep : Char} {text : List Char} (h : sep ∉ text) :
    cut sep text = (text, []) := by
  have hnone : Text.splitOnce sep text = none := by
    rw [Option.eq_none_iff_forall_ne_some]
    rintro ⟨before, after⟩ hsplit
    obtain ⟨rfl, -⟩ := Text.splitOnce_eq_some_iff.1 hsplit
    simp at h
  rw [cut, hnone]
  rfl

/-- A path is cut at the first `?` and the query at the first `#`. -/
theorem ofText_append {path query : List Char} (hmark : '?' ∉ path) (hhash : '#' ∉ path)
    (hquery : '#' ∉ query) (fragment : List Char) :
    Target.ofText (path ++ '?' :: query ++ '#' :: fragment) = ⟨path, query⟩ := by
  have hboth : '#' ∉ path ++ '?' :: query := by
    simp [hhash, hquery]
  rw [Target.ofText, cut_append_cons hboth]
  simp only [cut_append_cons hmark]

theorem ofText_query {query : List Char} (h : '#' ∉ query) :
    Target.ofText ('/' :: '?' :: query) = ⟨['/'], query⟩ := by
  have hboth : '#' ∉ '/' :: '?' :: query := by simp [h]
  have hcut : cut '?' (['/'] ++ '?' :: query) = (['/'], query) := cut_append_cons (by decide) query
  rw [List.singleton_append] at hcut
  rw [Target.ofText, cut_of_notMem hboth]
  simp only [hcut]

/-! ## Segments -/

/-- The segments that paths are read as. -/
structure IsPath (path : List String) : Prop where
  ne_nil : path ≠ []
  noSlash : ∀ segment ∈ path, '/' ∉ segment.toList
  /-- A path that begins with an empty segment consists of it. -/
  first : path.head? = some "" → path = [""]

/-- Segments as text, with slashes between them. -/
def joined (path : List String) : List Char := ['/'].intercalate (path.map String.toList)

/-- Segments with everything escaped but ASCII letters and digits, after a slash and with slashes
    between them. -/
def escaped (path : List String) : List Char :=
  '/' :: ['/'].intercalate (path.map fun segment => Text.percentEncode segment.toList)

/-- Cutting a text that begins with no slash gives segments. -/
theorem isPath_splitAll {text : List Char} (h : text.head? ≠ some '/') :
    IsPath ((Text.splitAll '/' text).map String.ofList) where
  ne_nil := by
    rw [ne_eq, List.map_eq_nil_iff]
    exact Text.splitAll_ne_nil '/' text
  noSlash := by
    intro segment hsegment
    obtain ⟨piece, hpiece, rfl⟩ := List.mem_map.1 hsegment
    rw [String.toList_ofList]
    exact Text.sep_notMem_of_mem_splitAll hpiece
  first := by
    intro hfirst
    have hjoin := Text.intercalate_splitAll '/' text
    cases hpieces : Text.splitAll '/' text with
    | nil => exact absurd hpieces (Text.splitAll_ne_nil '/' text)
    | cons piece rest =>
      rw [hpieces] at hfirst hjoin
      obtain rfl : piece = [] := by simpa using hfirst
      cases rest with
      | nil => rfl
      | cons next rest =>
        -- a separator would stand in front
        rw [List.intercalate_cons_cons, List.nil_append, List.singleton_append] at hjoin
        rw [← hjoin] at h
        exact absurd rfl h

theorem joined_splitAll (text : List Char) :
    joined ((Text.splitAll '/' text).map String.ofList) = text := by
  have hpieces : ((Text.splitAll '/' text).map String.ofList).map String.toList =
      Text.splitAll '/' text := by
    rw [List.map_map]
    exact (List.map_congr_left fun _ _ => String.toList_ofList).trans (List.map_id _)
  rw [joined, hpieces, Text.intercalate_splitAll]

variable {path : List String}

/-- Segments are cut where they were joined. -/
theorem IsPath.splitAll_joined (h : IsPath path) :
    (Text.splitAll '/' (joined path)).map String.ofList = path := by
  have hpieces : ∀ piece ∈ path.map String.toList, '/' ∉ piece := by
    intro piece hpiece
    obtain ⟨segment, hsegment, rfl⟩ := List.mem_map.1 hpiece
    exact h.noSlash segment hsegment
  rw [joined, Text.splitAll_intercalate hpieces (by simpa using h.ne_nil), List.map_map]
  exact (List.map_congr_left fun _ _ => String.ofList_toList).trans (List.map_id _)

/-- Only the slash in front of the segments is taken away. -/
theorem IsPath.dropWhile_joined (h : IsPath path) :
    ('/' :: joined path).dropWhile (· == '/') = joined path := by
  rw [List.dropWhile_cons_of_pos (by decide)]
  cases path with
  | nil => rfl
  | cons segment rest =>
    cases hsegment : segment.toList with
    | nil =>
      obtain rfl := String.toList_eq_nil_iff.1 hsegment
      obtain ⟨-, rfl⟩ := List.cons.inj (h.first rfl)
      rfl
    | cons c cs =>
      have hc : c ≠ '/' := by
        rintro rfl
        have hslash := h.noSlash segment List.mem_cons_self
        rw [hsegment] at hslash
        exact hslash List.mem_cons_self
      obtain ⟨tail, htail⟩ : ∃ tail, joined (segment :: rest) = c :: tail := by
        rw [joined, List.map_cons, hsegment]
        cases rest <;> simp
      rw [htail, List.dropWhile_cons_of_neg (by simpa using hc)]

/-- Segments are read as they were escaped, one after the other. -/
theorem percentDecode_escaped (path : List String) :
    Text.percentDecode (Text.Utf8.encode (escaped path)) = Text.Utf8.encode ('/' :: joined path) := by
  have hslash : Text.byte '/' ≠ Text.byte '%' := by decide
  have hjoined : Text.percentDecode (Text.Utf8.encode
      (['/'].intercalate (path.map fun segment => Text.percentEncode segment.toList))) =
        Text.Utf8.encode (joined path) := by
    induction path with
    | nil => rfl
    | cons segment rest ih =>
      cases rest with
      | nil =>
        have hend := Text.percentDecode_percentEncode_append segment.toList []
        have hnil : Text.percentDecode [] = [] := rfl
        rw [List.append_nil, hnil, List.append_nil] at hend
        simpa [joined] using hend
      | cons next rest =>
        rw [joined] at ih ⊢
        simp only [List.map_cons, List.intercalate_cons_cons, List.append_assoc,
          List.singleton_append, Text.Utf8.encode_append,
          Text.encode_cons_of_ascii (show '/'.toNat < 0x80 by decide)] at ih ⊢
        rw [Text.percentDecode_percentEncode_append, Text.percentDecode_cons_of_ne hslash, ih]
  rw [escaped, Text.encode_cons_of_ascii (by decide), Text.percentDecode_cons_of_ne hslash, hjoined,
    Text.encode_cons_of_ascii (by decide)]

/-- What is escaped is not taken for a separator. -/
theorem notMem_escaped {c : Char} (hpercent : c ≠ '%') (hslash : c ≠ '/')
    (hplain : Text.isAlphanumeric (Text.byte c) = false) (path : List String) :
    c ∉ escaped path := by
  rw [escaped, List.mem_cons, not_or]
  refine ⟨hslash, ?_⟩
  induction path with
  | nil => exact List.not_mem_nil
  | cons segment rest ih =>
    have hsegment := Text.notMem_percentEncode hpercent hplain segment.toList
    cases rest with
    | nil => simpa using hsegment
    | cons next rest =>
      rw [List.map_cons, List.map_cons, List.intercalate_cons_cons]
      rw [List.map_cons] at ih
      simp only [List.mem_append, List.mem_singleton, not_or]
      exact ⟨⟨hsegment, hslash⟩, ih⟩

/-! ## Reading -/

theorem segments_eq_ok_iff {text : List Char} : segments text = .ok path ↔
    ∃ plain, Text.Utf8.encode plain = Text.percentDecode (Text.Utf8.encode text) ∧
      (Text.splitAll '/' (plain.dropWhile (· == '/'))).map String.ofList = path := by
  simp only [segments, ← Text.Utf8.decode_eq_ok_iff]
  cases Text.Utf8.decode (Text.percentDecode (Text.Utf8.encode text)) <;> simp

theorem IsPath.segments_escaped (h : IsPath path) : segments (escaped path) = .ok path :=
  segments_eq_ok_iff.2
    ⟨_, (percentDecode_escaped path).symm, h.dropWhile_joined.symm ▸ h.splitAll_joined⟩

/-- A slash alone is one empty segment. -/
theorem segments_slash : segments ['/'] = .ok [""] := rfl

/-- Every path that can be read is read as segments, which are the text that it escapes. -/
theorem isPath_of_segments_eq_ok {text : List Char} (h : segments text = .ok path) :
    IsPath path ∧ ∃ plain, Text.Utf8.encode plain = Text.percentDecode (Text.Utf8.encode text) ∧
      joined path = plain.dropWhile (· == '/') := by
  obtain ⟨plain, hplain, rfl⟩ := segments_eq_ok_iff.1 h
  refine ⟨isPath_splitAll ?_, plain, hplain, joined_splitAll _⟩
  intro hslash
  have hfirst := List.head?_dropWhile_not (· == '/') plain
  rw [hslash] at hfirst
  exact absurd hfirst (by decide)

/-! ## Inputs -/

/-- An input that shows the path as these segments and the query as these parameters. -/
structure ShowsTarget (doc : Json) (path : List String) (query : Json) : Prop where
  path : doc.field? "parsed_path" = some (.ofStrings path)
  query : doc.field? "parsed_query" = some query

/-- Every input of the request shows this path and this query, and there is one unless the body
    fails to be read. -/
def ReadsTarget (r : CheckRequest) (path : List String) (query : Json) : Prop :=
  ∀ o v, SameResult (fun _ doc => ShowsTarget doc path query) (readBody o r) (ofRequest o v r)

theorem showsTarget_document (v : ApiVersion) (r : CheckRequest) (path : List String)
    (body : Option Body) : ShowsTarget (document v r path body) path
      (parametersJson (Text.Utf8.encode (Target.ofText (pathOf r)).query)) :=
  ⟨parsedPath_document v r path body, parsedQuery_document v r path body⟩

theorem readsTarget_of_ofText {r : CheckRequest} {text query : List Char}
    (htarget : Target.ofText (pathOf r) = ⟨text, query⟩) (hpath : segments text = .ok path) :
    ReadsTarget r path (parametersJson (Text.Utf8.encode query)) := by
  intro o v
  have hresource : resourceOf (pathOf r) = text := by rw [← path_ofText, htarget]
  have hshows := showsTarget_document v r path
  rw [htarget] at hshows
  rw [ofRequest_eq, hresource, hpath]
  cases readBody o r with
  | error f => exact .error f
  | ok body => exact .ok (hshows body)

/-- The path of an input is a list of segments: joined, they are the text that the path escapes up
    to its `#` and its `?`, without the slashes in front. And whatever segments are escaped in a
    path, with a query and a fragment after them, are read from it, together with that query. -/
theorem ofRequest_path :
    (∀ o v r doc, ofRequest o v r = .ok doc → ∃ path, IsPath path ∧
      doc.field? "parsed_path" = some (.ofStrings path) ∧
      ∃ text, Text.Utf8.encode text =
          Text.percentDecode (Text.Utf8.encode (resourceOf (pathOf r))) ∧
        joined path = text.dropWhile (· == '/')) ∧
    (∀ path query fragment, IsPath path → '#' ∉ query → ∀ r r',
      pathOf r = escaped path ++ '?' :: query ++ '#' :: fragment → pathOf r' = '/' :: '?' :: query →
        ∃ parameters, ReadsTarget r path parameters ∧ ReadsTarget r' [""] parameters) := by
  constructor
  · intro o v r doc h
    obtain ⟨path, body, hpath, -, rfl⟩ := ofRequest_eq_ok_iff.1 h
    obtain ⟨hsegments, htext⟩ := isPath_of_segments_eq_ok hpath
    exact ⟨path, hsegments, parsedPath_document v r path body, htext⟩
  · intro path query fragment hpath hquery r r' hr hr'
    have hmark := notMem_escaped (c := '?') (by decide) (by decide) (by decide) path
    have hhash := notMem_escaped (c := '#') (by decide) (by decide) (by decide) path
    have htarget := ofText_append hmark hhash hquery fragment
    refine ⟨parametersJson (Text.Utf8.encode query), ?_, ?_⟩
    · exact readsTarget_of_ofText (hr ▸ htarget) hpath.segments_escaped
    · exact readsTarget_of_ofText (hr' ▸ ofText_query hquery) segments_slash

/-- Two segments with a blank, a letter beyond ASCII and a question mark in them, and a query that
    ends in half an escape. -/
theorem ofRequest_path_halfEscape :
    let path := ["a b", "é?"]
    let r := posting (post "/a%20b/%C3%A9%3F?x=1&y=%2#top?#" [] [])
    let r' := posting (post "/?x=1&y=%2" [] [])
    IsPath path ∧ ∃ doc doc', ofRequest ⟨none, false⟩ .v3 r = .ok doc ∧
      ofRequest ⟨none, true⟩ .v2 r' = .ok doc' ∧
      doc.field? "parsed_path" = some (.ofStrings path) ∧
      doc.field? "parsed_query" = doc'.field? "parsed_query" ∧
      ∃ path', IsPath path' ∧ doc'.field? "parsed_path" = some (.ofStrings path') := by
  intro path r r'
  have hpath : IsPath path := ⟨by decide, by decide, by decide⟩
  obtain ⟨parameters, hreads, hreads'⟩ := ofRequest_path.2 path "x=1&y=%2".toList "top?#".toList
    hpath (by decide) r r' (by decide +kernel) (by decide +kernel)
  have hbody : readBody ⟨none, false⟩ r = .ok (some ⟨none, false⟩) := rfl
  have hshows := hreads ⟨none, false⟩ .v3
  have hshows' := hreads' ⟨none, true⟩ .v2
  rw [hbody] at hshows
  obtain ⟨doc, hdoc, hshows⟩ := hshows.exists_eq_ok
  obtain ⟨doc', hdoc', hshows'⟩ := hshows'.exists_eq_ok
  obtain ⟨path', hpath', hfield, -⟩ := ofRequest_path.1 _ _ _ _ hdoc'
  exact ⟨hpath, doc, doc', hdoc, hdoc', hshows.path, hshows.query.trans hshows'.query.symm,
    path', hpath', hfield⟩

end AuthGate.Input
