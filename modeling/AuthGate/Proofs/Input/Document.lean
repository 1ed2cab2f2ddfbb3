import AuthGate.Proofs.Input.Attributes
import AuthGate.Proofs.Input.Version

set_option autoImplicit false

/-! # The policy input by its fields

The policy input of a request, once its path and its body have been read, is one object whose fields
are known (`document`). Reading the path and reading the body are all that can go wrong
(`ofRequest_eq`), and the body tells nothing but the two fields about it
(`document_none_eq_erase`). -/

namespace AuthGate.Input

/-- What stands in front of the query of a path: nothing after a `#`, and then nothing after a
    `?`. -/
def resourceOf (path : List Char) : List Char :=
  (path.takeWhile (· ≠ '#')).takeWhile (· ≠ '?')

theorem cut_fst (sep : Char) (cs : List Char) : (cut sep cs).1 = cs.takeWhile (· ≠ sep) := by
  induction cs with
  | nil => rfl
  | cons c rest ih =>
    by_cases h : c = sep
    · simp [cut, Text.splitOnce, h]
    · rw [List.takeWhile_cons_of_pos (by simpa using h), ← ih, cut, cut, Text.splitOnce, if_neg h]
      cases Text.splitOnce sep rest <;> rfl

theorem path_ofText (path : List Char) : (Target.ofText path).path = resourceOf path := by
  rw [Target.ofText, resourceOf, ← cut_fst, ← cut_fst]

/-- The path of a request; a request that is not HTTP has an empty one. -/
def pathOf (r : CheckRequest) : List Char := ((r.http?.map (·.path)).getD "").toList

/-- The body of a request, if it has one that is to be read. -/
def readBody (o : Options) (r : CheckRequest) : Except Failure (Option Body) :=
  match r.http? with
  | some http => if o.skipBody then .ok none else (parseBody o.schema http).map some
  | none => .ok none

theorem readBody_eq_map {schema : Option Proto.Schema} {r : CheckRequest} {http : HttpRequest}
    (h : r.http? = some http) :
    readBody ⟨schema, false⟩ r = (parseBody schema http).map some := by
  simp only [readBody, h, Bool.false_eq_true, if_false]

/-- The fields of a policy input. -/
def documentParts (v : ApiVersion) (r : CheckRequest) (path : List String) (body : Option Body) :
    List (String × Option Json) :=
  [("attributes", r.attributes.map attributesJson), ("parsed_path", some (.ofStrings path)),
    ("parsed_query",
      some (parametersJson (Text.Utf8.encode (Target.ofText (pathOf r)).query))),
    ("parsed_body", body.map fun b => b.parsed.getD .null),
    ("truncated_body", body.map fun b => .bool b.truncated), ("version", some (versionJson v))]

/-- The policy input of a request with these segments in its path and this body. -/
def document (v : ApiVersion) (r : CheckRequest) (path : List String) (body : Option Body) : Json :=
  .ofParts (documentParts v r path body)

theorem nodup_documentParts (v : ApiVersion) (r : CheckRequest) (path : List String)
    (body : Option Body) : ((documentParts v r path body).map (·.1)).Nodup := by
  simp [documentParts]

/-- Only the path and the body can fail to be read. -/
theorem ofRequest_eq (o : Options) (v : ApiVersion) (r : CheckRequest) : ofRequest o v r =
    segments (resourceOf (pathOf r)) >>= fun path =>
      (readBody o r).map (document v r path) := by
  have hdocument (path : List String) (body : Option Body) :
      Json.ofFields (optionalField "attributes" (r.attributes.map attributesJson) ++
        [("parsed_path", .ofStrings path),
          ("parsed_query", parametersJson (Text.Utf8.encode (Target.ofText (pathOf r)).query))] ++
        (body.map bodyFields).getD [] ++ [("version", versionJson v)]) = document v r path body := by
    rw [document, documentParts]
    generalize r.attributes.map attributesJson = attributes
    cases attributes <;> cases body <;> rfl
  simp only [ofRequest, readBody, ← path_ofText, ← versionJson.eq_def, ← pathOf.eq_def]
  cases segments (Target.ofText (pathOf r)).path with
  | error f => rfl
  | ok path =>
    -- there is no body, it is left alone, or it is read
    cases r.http? with
    | none => exact congrArg Except.ok (hdocument path none)
    | some http =>
      cases o.skipBody with
      | true => exact congrArg Except.ok (hdocument path none)
      | false =>
        simp only [Bool.false_eq_true, if_false]
        cases parseBody o.schema http with
        | error f => rfl
        | ok body => exact congrArg Except.ok (hdocument path (some body))

/-- An input without a body is the one with a body, but for the two fields about it. -/
theorem document_none_eq_erase (v : ApiVersion) (r : CheckRequest) (path : List String)
    (body : Option Body) : ∃ fields, document v r path body = .object fields ∧
      document v r path none =
        .object (Fields.erase "truncated_body" (Fields.erase "parsed_body" fields)) := by
  have hnames := nodup_documentParts v r path body
  have hnames' : ((Fields.erase "parsed_body" (documentParts v r path body)).map (·.1)).Nodup :=
    hnames.sublist (List.filter_sublist.map _)
  have hgiven : Fields.given
      (Fields.erase "truncated_body" (Fields.erase "parsed_body" (documentParts v r path body))) =
        Fields.given (documentParts v r path none) := rfl
  refine ⟨_, rfl, ?_⟩
  rw [Fields.erase_ofList_given _ hnames, Fields.erase_ofList_given _ hnames', hgiven]
  rfl

theorem field?_document (v : ApiVersion) (r : CheckRequest) (path : List String)
    (body : Option Body) (name : String) : (document v r path body).field? name =
      (Fields.get? name (documentParts v r path body)).join :=
  Json.field?_ofParts (nodup_documentParts v r path body) name

theorem parsedPath_document (v : ApiVersion) (r : CheckRequest) (path : List String)
    (body : Option Body) : (document v r path body).field? "parsed_path" =
      some (.ofStrings path) := by
  rw [field?_document]
  simp [documentParts, Fields.get?]

theorem parsedQuery_document (v : ApiVersion) (r : CheckRequest) (path : List String)
    (body : Option Body) : (document v r path body).field? "parsed_query" =
      some (parametersJson (Text.Utf8.encode (Target.ofText (pathOf r)).query)) := by
  rw [field?_document]
  simp [documentParts, Fields.get?]

theorem parsedBody_document (v : ApiVersion) (r : CheckRequest) (path : List String)
    (body : Option Body) : (document v r path body).field? "parsed_body" =
      body.map fun b => b.parsed.getD .null := by
  rw [field?_document]
  simp [documentParts, Fields.get?]

theorem truncatedBody_document (v : ApiVersion) (r : CheckRequest) (path : List String)
    (body : Option Body) : (document v r path body).field? "truncated_body" =
      body.map fun b => .bool b.truncated := by
  rw [field?_document]
  simp [documentParts, Fields.get?]

theorem ofRequest_eq_ok_iff {o : Options} {v : ApiVersion} {r : CheckRequest} {doc : Json} :
    ofRequest o v r = .ok doc ↔ ∃ path body, segments (resourceOf (pathOf r)) = .ok path ∧
      readBody o r = .ok body ∧ document v r path body = doc := by
  rw [ofRequest_eq, bind_eq_ok_iff]
  cases readBody o r <;> simp [Except.map]

end AuthGate.Input
