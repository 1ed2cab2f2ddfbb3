import AuthGate.Proofs.Input.Confinement
import AuthGate.Proofs.Input.Path

set_option autoImplicit false

/-! # Parameters

A query and a form are shown as an object that has a list of values for each name. The names and
values are those of the pieces between `&`, in their order, and nothing else is shown (`Groups`).
Different pieces may tell the same name, since escapes are undone and bytes that are no text are
replaced; so nothing is said here of the bytes of a name, only of what it is read as. It does not
matter whether parameters come in a query or in a form. The main statement is
`parametersJson_groups`. -/

namespace AuthGate.Input

/-! ## Names and values -/

/-- A piece tells a name and a value: what stands before its first `=` and what stands after it. If
    there is none, the piece is a name, and the value is empty. -/
inductive IsPair : List UInt8 → String × String → Prop
  | split {name : List UInt8} (first : Text.byte '=' ∉ name) (value : List UInt8) :
    IsPair (name ++ Text.byte '=' :: value) (Text.formDecode name, Text.formDecode value)
  | bare {name : List UInt8} (missing : Text.byte '=' ∉ name) : IsPair name (Text.formDecode name, "")

/-- The pieces between `&` that are not empty tell these names and values. -/
def TellsPairs (bs : List UInt8) (pairs : List (String × String)) : Prop :=
  List.Forall₂ IsPair ((bs.splitOn (Text.byte '&')).filter (· ≠ [])) pairs

theorem isPair_formPair (piece : List UInt8) : IsPair piece (Text.formPair piece) := by
  by_cases h : Text.byte '=' ∈ piece
  · obtain ⟨name, value, rfl, hname⟩ := List.eq_append_cons_of_mem h
    rw [Text.formPair, Text.splitAtByte_append_cons hname]
    exact .split hname value
  · rw [Text.formPair, Text.splitAtByte_of_notMem h]
    exact .bare h

theorem tellsPairs_formPairs (bs : List UInt8) : TellsPairs bs (Text.formPairs bs) := by
  have hkept : (Text.splitAll (Text.byte '&') bs).filter (!·.isEmpty) =
      (bs.splitOn (Text.byte '&')).filter (· ≠ []) := by
    rw [Text.splitAll_eq_splitOn]
    exact List.filter_congr fun piece _ => by cases piece <;> rfl
  rw [TellsPairs, Text.formPairs, hkept, List.forall₂_map_right_iff, List.forall₂_same]
  exact fun piece _ => isPair_formPair piece

/-- An `&` ends a piece, whatever stands before and after it. -/
theorem formPairs_append_cons (before after : List UInt8) :
    Text.formPairs (before ++ Text.byte '&' :: after) =
      Text.formPairs before ++ Text.formPairs after := by
  simp only [Text.formPairs, Text.splitAll_append_cons, List.filter_append, List.map_append]

/-! ## Values by name -/

/-- The values of a name in their order. -/
def valuesOf (name : String) (pairs : List (String × String)) : List String :=
  (pairs.filter (·.1 = name)).map (·.2)

/-- A document shows the values of a name; it does not have the name if there are none. -/
def ShowsValues (doc : Json) (name : String) (values : List String) : Prop :=
  doc.field? name = if values = [] then none else some (.ofStrings values)

/-- An object with each name once and with all of its values. -/
structure Groups (doc : Json) (pairs : List (String × String)) : Prop where
  object : ∃ fields, doc = .object fields ∧ Fields.Sorted fields
  values : ∀ name, ShowsValues doc name (valuesOf name pairs)

theorem valuesOf_append (name : String) (pairs more : List (String × String)) :
    valuesOf name (pairs ++ more) = valuesOf name pairs ++ valuesOf name more := by
  rw [valuesOf, List.filter_append, List.map_append]
  rfl

theorem get?_parameters (name : String) (bs : List UInt8) : Fields.get? name (parameters bs) =
    if valuesOf name (Text.formPairs bs) = [] then none
    else some (valuesOf name (Text.formPairs bs)) := by
  rw [parameters]
  -- the last pair comes after all values that its name has
  induction Text.formPairs bs using List.reverseRecOn with
  | nil => rfl
  | append_singleton pairs pair ih =>
    obtain ⟨other, value⟩ := pair
    rw [List.foldl_append, List.foldl_cons, List.foldl_nil, Fields.get?_append, valuesOf_append]
    by_cases h : other = name
    · subst h
      have hvalue : valuesOf other [(other, value)] = [value] := by simp [valuesOf]
      rw [if_pos rfl, ih, hvalue]
      cases valuesOf other pairs <;> simp
    · have hnone : valuesOf name [(other, value)] = [] := by simp [valuesOf, h]
      rw [if_neg h, ih, hnone, List.append_nil]

theorem sorted_parameters (bs : List UInt8) : Fields.Sorted (parameters bs) := by
  rw [parameters]
  induction Text.formPairs bs using List.reverseRecOn with
  | nil => exact Fields.sorted_nil
  | append_singleton pairs pair ih =>
    rw [List.foldl_append]
    exact ih.append pair.1 pair.2

theorem groups_formPairs (bs : List UInt8) : Groups (parametersJson bs) (Text.formPairs bs) where
  object := ⟨_, rfl, (sorted_parameters bs).mapValues Json.ofStrings⟩
  values := by
    intro name
    show Fields.get? name (Fields.mapValues Json.ofStrings (parameters bs)) = _
    rw [Fields.get?_mapValues, get?_parameters]
    split <;> rfl

/-! ## Forms -/

/-- A body of this text, as text or as bytes, that is said to be a form. -/
structure SendsForm (http : HttpRequest) (text : List Char) : Prop where
  bytes : bodyBytes http = Text.Utf8.encode text
  told : http.Tells "content-type" "application/x-www-form-urlencoded"
  only : ∀ value, http.Tells "content-type" value → value = "application/x-www-form-urlencoded"

variable {http : HttpRequest} {text : List Char} {schema : Option Proto.Schema} {r : CheckRequest}

theorem SendsForm.format (h : SendsForm http text) :
    BodyFormat.ofContentType (contentType http) = .form := by
  have hform : BodyFormat.ofContentType "application/x-www-form-urlencoded" = .form := by
    decide +kernel
  rw [contentType]
  cases hfound : header? "content-type" http with
  | none => exact absurd h.told (header?_eq_none_iff.1 hfound _)
  | some value => rwa [h.only value (tells_of_header?_eq_some hfound)]

/-- Of a form only the length can be in doubt. -/
theorem SendsForm.readBody_eq (h : SendsForm http text) (hne : text ≠ [])
    (hhttp : r.http? = some http) : readBody ⟨schema, false⟩ r =
      (isTruncated http (bodyBytes http).length).map fun truncated =>
        some ⟨some (parametersJson (Text.Utf8.encode text)), truncated⟩ := by
  have hbody : bodyBytes http ≠ [] := by rwa [h.bytes, ne_eq, Text.Utf8.encode_eq_nil_iff]
  have hread (truncated : Bool) : readAs schema http truncated .form =
      .ok ⟨some (parametersJson (Text.Utf8.encode text)), truncated⟩ := by rw [← h.bytes]; rfl
  rw [readBody_eq_map hhttp, parseBody_eq_bind, h.format]
  simp only [if_neg hbody, hread]
  cases isTruncated http (bodyBytes http).length <;> rfl

/-- A form is shown as its parameters. -/
theorem SendsForm.parsedBody_eq (h : SendsForm http text) (hne : text ≠ [])
    (hhttp : r.http? = some http) {v : ApiVersion} {doc : Json}
    (hdoc : ofRequest ⟨schema, false⟩ v r = .ok doc) :
    doc.field? "parsed_body" = some (parametersJson (Text.Utf8.encode text)) := by
  obtain ⟨path, body, -, hbody, rfl⟩ := ofRequest_eq_ok_iff.1 hdoc
  rw [h.readBody_eq hne hhttp] at hbody
  generalize isTruncated http (bodyBytes http).length = truncated at hbody
  cases truncated with
  | error f => cases hbody
  | ok truncated =>
    cases hbody
    exact parsedBody_document v r path _

/-- A form has an input if the path and the length can be read. -/
theorem SendsForm.exists_ofRequest (h : SendsForm http text) (hne : text ≠ [])
    (hhttp : r.http? = some http) (hpath : HasPath r)
    (hlength : ∀ value, http.Tells "content-length" value → ∃ n, IsLength value n)
    (v : ApiVersion) : ∃ doc, ofRequest ⟨schema, false⟩ v r = .ok doc := by
  obtain ⟨path, hpath⟩ := hpath.exists_segments
  obtain ⟨truncated, htruncated⟩ := exists_isTruncated (bodyBytes http).length hlength
  rw [ofRequest_eq, hpath, h.readBody_eq hne hhttp, htruncated]
  exact ⟨_, rfl⟩

/-! ## Queries and forms -/

/-- Whatever the bytes, the parameters are the names and values of the pieces, grouped by name. So
    the parameters of joined data are, name by name, those of the one and then those of the other,
    and names and values that are written as form data are shown as they are. A text after a `?` is
    shown as it is in a form. -/
theorem parametersJson_groups :
    (∀ bs, ∃ pairs, TellsPairs bs pairs ∧ Groups (parametersJson bs) pairs) ∧
    (∀ before after name, ∃ values more, ShowsValues (parametersJson before) name values ∧
      ShowsValues (parametersJson after) name more ∧
      ShowsValues (parametersJson (before ++ Text.byte '&' :: after)) name (values ++ more)) ∧
    (∀ pairs, Groups (parametersJson (Text.Utf8.encode (Text.formText pairs))) pairs) ∧
    (∀ text, text ≠ [] → '#' ∉ text → ∀ r r' http, pathOf r = '/' :: '?' :: text →
      r'.http? = some http → SendsForm http text → ∃ parameters,
        ReadsTarget r [""] parameters ∧
        (∀ schema v doc, ofRequest ⟨schema, false⟩ v r' = .ok doc →
          doc.field? "parsed_body" = some parameters) ∧
        (HasPath r' → (∀ value, http.Tells "content-length" value → ∃ n, IsLength value n) →
          ∀ schema v, ∃ doc, ofRequest ⟨schema, false⟩ v r' = .ok doc)) := by
  refine ⟨fun bs => ⟨_, tellsPairs_formPairs bs, groups_formPairs bs⟩, ?_, ?_, ?_⟩
  · intro before after name
    have hjoined := (groups_formPairs (before ++ Text.byte '&' :: after)).values name
    rw [formPairs_append_cons, valuesOf_append] at hjoined
    exact ⟨_, _, (groups_formPairs before).values name, (groups_formPairs after).values name, hjoined⟩
  · intro pairs
    have hgroups := groups_formPairs (Text.Utf8.encode (Text.formText pairs))
    rwa [Text.formPairs_formText] at hgroups
  · intro text hne hhash r r' http hpath hhttp hform
    refine ⟨parametersJson (Text.Utf8.encode text), ?_, ?_, ?_⟩
    · exact readsTarget_of_ofText (hpath ▸ ofText_query hhash) segments_slash
    · exact fun schema v doc => hform.parsedBody_eq hne hhttp
    · exact fun hpath hlength schema v => hform.exists_ofRequest hne hhttp hpath hlength v

/-- A query and a form with two values of one name, an empty piece and an escape. -/
theorem parametersJson_groups_twice :
    let text := "a=1&&b=%C3%A9&a=+".toList
    let form := { post "/search" [("Content-Type", "application/x-www-form-urlencoded")] [] with
      body := String.ofList text }
    text ≠ [] ∧ '#' ∉ text ∧ SendsForm form text ∧ HasPath (posting form) ∧
      ∃ doc doc', ofRequest ⟨none, true⟩ .v3 (posting (post "/?a=1&&b=%C3%A9&a=+" [] [])) = .ok doc ∧
        ofRequest ⟨none, false⟩ .v2 (posting form) = .ok doc' ∧
        doc.field? "parsed_query" = doc'.field? "parsed_body" := by
  intro text form
  have hnames : form.Unambiguous := by
    rw [HttpRequest.Unambiguous]
    decide +kernel
  have hne : text ≠ [] := by decide +kernel
  have hhash : '#' ∉ text := by decide +kernel
  have hfound : header? "content-type" form = some "application/x-www-form-urlencoded" := by
    decide +kernel
  have hform : SendsForm form text := by
    refine ⟨by decide +kernel, tells_of_header?_eq_some hfound, fun value hvalue => ?_⟩
    rw [← header?_eq_some_iff hnames, hfound] at hvalue
    exact (Option.some.inj hvalue).symm
  have hpath : HasPath (posting form) := ⟨"/search".toList, by decide +kernel⟩
  have hlength : ∀ value, form.Tells "content-length" value → ∃ n, IsLength value n := by
    have hnone : header? "content-length" form = none := by decide +kernel
    exact fun value hvalue => absurd hvalue (header?_eq_none_iff.1 hnone value)
  obtain ⟨parameters, hquery, hbody, hexists⟩ := parametersJson_groups.2.2.2 text hne hhash
    (posting (post "/?a=1&&b=%C3%A9&a=+" [] [])) (posting form) form (by decide +kernel) rfl hform
  obtain ⟨doc, hdoc, hshows⟩ := (hquery ⟨none, true⟩ .v3).exists_eq_ok
  obtain ⟨doc', hdoc'⟩ := hexists hpath hlength none .v2
  exact ⟨hne, hhash, hform, hpath, doc, doc', hdoc, hdoc',
    hshows.query.trans (hbody none .v2 doc' hdoc').symm⟩

end AuthGate.Input
