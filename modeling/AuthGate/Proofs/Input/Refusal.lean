import AuthGate.Proofs.Input.Body
import AuthGate.Proofs.Input.Document
import AuthGate.Proofs.Text.Utf8

set_option autoImplicit false

/-! # When no input can be built

A request has no policy input for two reasons only: what its path escapes is no text, or its body is
to be read and cannot be (`Refused`). The second reason depends on the headers, on the format that
they ask for and on whether the body is truncated. Nothing else changes if bodies are left alone: the
input is the same without the two fields about the body. The main statement is
`ofRequest_refused_iff`. -/

namespace AuthGate.Input

/-! ## Paths -/

theorem segments_error_iff {path : List Char} : (∃ f, segments path = .error f) ↔
    ¬ ∃ text, Text.Utf8.encode text = Text.percentDecode (Text.Utf8.encode path) := by
  simp only [segments, ← Text.Utf8.decode_eq_ok_iff]
  cases Text.Utf8.decode (Text.percentDecode (Text.Utf8.encode path)) <;> simp

theorem kind_of_segments_error {path : List Char} {f : Failure} (h : segments path = .error f) :
    f.kind = .inputConversion := by
  simp only [segments] at h
  split at h
  · cases h
  · cases h
    rfl

/-! ## Bodies -/

/-- A body that is there, all of it as far as the headers tell, and of a type that asks for the
    format. -/
structure Asks (http : HttpRequest) (format : BodyFormat) : Prop where
  body : bodyBytes http ≠ []
  whole : IsWhole http
  type : ∃ type, http.Tells "content-type" type ∧ format.Asked type

/-- What keeps a body from being read. -/
inductive BodyRefused (schema : Option Proto.Schema) (http : HttpRequest) : Prop
  /-- A header tells no length, whether or not there is a body. -/
  | length {value : String} (header : http.Tells "content-length" value)
    (bad : ¬ ∃ n, IsLength value n)
  /-- JSON that is no document. -/
  | json (asks : Asks http .json) (bad : Json.ofBytes? (bodyBytes http) = none)
  /-- Too few bytes for a frame. -/
  | short {s : Proto.Schema} {type : Proto.MessageType} (asks : Asks http .grpc)
    (known : schema = some s) (method : methodInput? s http.path.toList = some type)
    (bad : (bodyBytes http).length < frameHeader)
  /-- A frame with bytes that cannot be shown as a message of the method. -/
  | message {s : Proto.Schema} {type : Proto.MessageType} {payload : List UInt8}
    (asks : Asks http .grpc) (known : schema = some s)
    (method : methodInput? s http.path.toList = some type) (size : payload.length < 2 ^ 32)
    (first : frame payload <+: bodyBytes http) (bad : Unshown s type payload)

variable {schema : Option Proto.Schema} {http : HttpRequest}

/-- Without a content type no format is asked for. -/
theorem ofContentType_eq_iff_tells (h : http.Unambiguous) {format : BodyFormat}
    (hformat : format ≠ .other) : BodyFormat.ofContentType (contentType http) = format ↔
      ∃ type, http.Tells "content-type" type ∧ format.Asked type := by
  simp only [contentType, ← header?_eq_some_iff h, ← BodyFormat.ofContentType_eq_iff]
  cases header? "content-type" http with
  | none =>
    have hempty : BodyFormat.ofContentType "" = .other := by decide
    simp [hempty, hformat.symm]
  | some type => simp

theorem asks_iff (h : http.Unambiguous) {format : BodyFormat} (hformat : format ≠ .other) :
    Asks http format ↔ bodyBytes http ≠ [] ∧
      isTruncated http (bodyBytes http).length = .ok false ∧
        BodyFormat.ofContentType (contentType http) = format := by
  rw [isTruncated_eq_false_iff h, ofContentType_eq_iff_tells h hformat]
  exact ⟨fun ⟨hbody, hwhole, htype⟩ => ⟨hbody, hwhole, htype⟩,
    fun ⟨hbody, hwhole, htype⟩ => ⟨hbody, hwhole, htype⟩⟩

theorem parseBody_of_asks (h : http.Unambiguous) {format : BodyFormat} (hformat : format ≠ .other)
    (asks : Asks http format) : parseBody schema http = readAs schema http false format := by
  obtain ⟨hbody, htruncated, htype⟩ := (asks_iff h hformat).1 asks
  rw [parseBody_eq_bind, htruncated, ← htype]
  exact if_neg hbody

/-- A body that is refused fails to be read. -/
theorem BodyRefused.exists_error (h : http.Unambiguous) (hrefused : BodyRefused schema http) :
    ∃ f, parseBody schema http = .error f := by
  cases hrefused with
  | length header bad =>
    obtain ⟨f, hf⟩ := (isTruncated_error_iff h).2 ⟨_, header, bad⟩
    exact ⟨f, by rw [parseBody_eq_bind, hf]; rfl⟩
  | json asks bad =>
    rw [parseBody_of_asks h (by decide) asks]
    exact readAs_error_iff.2 (.inl ⟨rfl, bad⟩)
  | short asks known method bad =>
    rw [parseBody_of_asks h (by decide) asks]
    exact readAs_error_iff.2
      (.inr ⟨rfl, _, known, grpcBody_error_iff.2 ⟨_, method, .inl bad⟩⟩)
  | message asks known method size first bad =>
    rw [parseBody_of_asks h (by decide) asks]
    exact readAs_error_iff.2
      (.inr ⟨rfl, _, known, grpcBody_error_iff.2 ⟨_, method, .inr ⟨_, size, first, bad⟩⟩⟩)

/-- A body that fails to be read is refused. -/
theorem bodyRefused_of_error (h : http.Unambiguous) {f : Failure}
    (hf : parseBody schema http = .error f) : BodyRefused schema http := by
  rw [parseBody_eq_bind, bind_eq_error_iff] at hf
  -- the length is looked at even where there is no body
  rcases hf with hlength | ⟨truncated, htruncated, hf⟩
  · obtain ⟨value, header, bad⟩ := (isTruncated_error_iff h).1 ⟨f, hlength⟩
    exact .length header bad
  split at hf
  · cases hf
  · next hbody =>
    cases truncated with
    | true =>
      obtain ⟨body, hread⟩ := exists_readAs_of_truncated schema http
        (.ofContentType (contentType http))
      rw [hread] at hf
      cases hf
    | false =>
      have hasks {format : BodyFormat} (hformat : format ≠ .other)
          (htype : BodyFormat.ofContentType (contentType http) = format) : Asks http format :=
        (asks_iff h hformat).2 ⟨hbody, htruncated, htype⟩
      rcases readAs_error_iff.1 ⟨f, hf⟩ with ⟨htype, bad⟩ | ⟨htype, s, known, hgrpc⟩
      · exact .json (hasks (by decide) htype) bad
      · obtain ⟨type, method, bad | ⟨payload, size, first, bad⟩⟩ := grpcBody_error_iff.1 hgrpc
        · exact .short (hasks (by decide) htype) known method bad
        · exact .message (hasks (by decide) htype) known method size first bad

/-! ## Inputs -/

/-- What keeps an input from being built. -/
inductive Refused (o : Options) (r : CheckRequest) : Prop
  | path (bad : ¬ ∃ text, Text.Utf8.encode text =
      Text.percentDecode (Text.Utf8.encode (resourceOf (pathOf r))))
  | body {http : HttpRequest} (read : o.skipBody = false) (present : r.http? = some http)
    (bad : BodyRefused o.schema http)

variable {o : Options} {r : CheckRequest}

theorem readBody_eq_error_iff {f : Failure} : readBody o r = .error f ↔
    o.skipBody = false ∧ ∃ http, r.http? = some http ∧ parseBody o.schema http = .error f := by
  rw [readBody]
  cases r.http? with
  | none => simp
  | some http =>
    cases o.skipBody with
    | true => simp
    | false => cases hbody : parseBody o.schema http <;> simp [hbody, Except.map]

theorem readBody_eq_some_iff {body : Body} : readBody o r = .ok (some body) ↔
    o.skipBody = false ∧ ∃ http, r.http? = some http ∧ parseBody o.schema http = .ok body := by
  rw [readBody]
  cases r.http? with
  | none => simp
  | some http =>
    cases o.skipBody with
    | true => simp
    | false => cases hbody : parseBody o.schema http <;> simp [hbody, Except.map]

theorem exists_readBody_error_iff (h : ∀ http ∈ r.http?, http.Unambiguous) :
    (∃ f, readBody o r = .error f) ↔
      o.skipBody = false ∧ ∃ http, r.http? = some http ∧ BodyRefused o.schema http := by
  simp only [readBody_eq_error_iff]
  constructor
  · rintro ⟨f, hread, http, hhttp, hf⟩
    exact ⟨hread, http, hhttp, bodyRefused_of_error (h http hhttp) hf⟩
  · rintro ⟨hread, http, hhttp, hrefused⟩
    obtain ⟨f, hf⟩ := hrefused.exists_error (h http hhttp)
    exact ⟨f, hread, http, hhttp, hf⟩

/-- The path is read before the body. -/
theorem ofRequest_eq_error_iff {v : ApiVersion} {f : Failure} : ofRequest o v r = .error f ↔
    segments (resourceOf (pathOf r)) = .error f ∨
      (∃ path, segments (resourceOf (pathOf r)) = .ok path) ∧ readBody o r = .error f := by
  rw [ofRequest_eq]
  cases segments (resourceOf (pathOf r)) with
  | error f' => simp [bind, Except.bind]
  | ok path => cases hbody : readBody o r <;> simp [bind, Except.bind, Except.map]

theorem exists_ofRequest_error_iff (v : ApiVersion) (h : ∀ http ∈ r.http?, http.Unambiguous) :
    (∃ f, ofRequest o v r = .error f) ↔ Refused o r := by
  simp only [ofRequest_eq_error_iff]
  constructor
  · rintro ⟨f, hpath | ⟨-, hbody⟩⟩
    · exact .path (segments_error_iff.1 ⟨f, hpath⟩)
    · obtain ⟨hread, http, hhttp, hrefused⟩ := (exists_readBody_error_iff h).1 ⟨f, hbody⟩
      exact .body hread hhttp hrefused
  · intro hrefused
    cases hpath : segments (resourceOf (pathOf r)) with
    | error f => exact ⟨f, .inl rfl⟩
    | ok path =>
      cases hrefused with
      | path bad =>
        obtain ⟨f, hf⟩ := segments_error_iff.2 bad
        rw [hpath] at hf
        cases hf
      | body read present bad =>
        obtain ⟨f, hf⟩ := (exists_readBody_error_iff h).2 ⟨read, _, present, bad⟩
        exact ⟨f, .inr ⟨⟨path, rfl⟩, hf⟩⟩

theorem kind_of_ofRequest_error {v : ApiVersion} {f : Failure} (h : ofRequest o v r = .error f) :
    f.kind = .inputConversion := by
  rcases ofRequest_eq_error_iff.1 h with hpath | ⟨-, hbody⟩
  · exact kind_of_segments_error hpath
  · obtain ⟨-, http, -, hf⟩ := readBody_eq_error_iff.1 hbody
    exact kind_of_parseBody_error hf

/-- Nothing is lost but the two fields about the body if bodies are left alone. -/
theorem ofRequest_skip {v : ApiVersion} {doc : Json} (h : ofRequest o v r = .ok doc) :
    ∃ fields, doc = .object fields ∧ ofRequest { o with skipBody := true } v r =
      .ok (.object (Fields.erase "truncated_body" (Fields.erase "parsed_body" fields))) := by
  obtain ⟨path, body, hpath, -, rfl⟩ := ofRequest_eq_ok_iff.1 h
  obtain ⟨fields, hfields, herased⟩ := document_none_eq_erase v r path body
  have hskip : readBody { o with skipBody := true } r = .ok none := by
    rw [readBody]
    cases r.http? <;> rfl
  refine ⟨fields, hfields, ?_⟩
  rw [ofRequest_eq, hpath, hskip, ← herased]
  rfl

/-- An input fails to be built exactly if the path or the body is refused, and always in the same
    way; and where bodies are left alone it is the same without the two fields about the body. -/
theorem ofRequest_refused_iff (o : Options) (v : ApiVersion) (r : CheckRequest)
    (h : ∀ http ∈ r.http?, http.Unambiguous) :
    ((∃ f, ofRequest o v r = .error f) ↔ Refused o r) ∧
    (∀ f, ofRequest o v r = .error f → f.kind = .inputConversion) ∧
    (∀ doc, ofRequest { o with skipBody := false } v r = .ok doc → ∃ fields, doc = .object fields ∧
      ofRequest { o with skipBody := true } v r =
        .ok (.object (Fields.erase "truncated_body" (Fields.erase "parsed_body" fields)))) :=
  ⟨exists_ofRequest_error_iff v h, fun _ => kind_of_ofRequest_error, fun _ => ofRequest_skip⟩

/-- A request over HTTP of which nothing else is told. -/
def posting (http : HttpRequest) : CheckRequest where
  attributes := some {
    source := none
    destination := none
    request := some ⟨none, some http⟩
    contextExtensions := []
    metadata := none
    routeMetadata := none
    tlsSession := none }

/-- A body that is posted. -/
def post (path : String) (headers : List (String × String)) (body : List UInt8) : HttpRequest :=
  ⟨"", "POST", headers, path, "", "", "", "", 0, "", "", body, none⟩

/-- A body of a length that is not told, and not the JSON that it is said to be. -/
theorem ofRequest_refused_notJson :
    let http := post "/people" [("X-Tenant", "blue"), ("Content-Type", "application/json")]
      (Text.Utf8.encode "[not json".toList)
    http.Unambiguous ∧
      ∃ f, ofRequest ⟨none, false⟩ .v3 (posting http) = .error f ∧ f.kind = .inputConversion := by
  intro http
  have hnames : http.Unambiguous := by
    rw [HttpRequest.Unambiguous]
    decide +kernel
  have hlength : ∀ value, ¬ http.Tells "content-length" value :=
    header?_eq_none_iff.1 (by decide +kernel)
  have hasks : Asks http .json := by
    refine ⟨by decide +kernel, fun value htells => absurd htells (hlength value), ?_⟩
    exact (ofContentType_eq_iff_tells hnames (by decide)).1 (by decide +kernel)
  have hrefused : Refused ⟨none, false⟩ (posting http) :=
    .body rfl rfl (.json hasks (Option.isNone_iff_eq_none.1 (by decide +kernel)))
  obtain ⟨hiff, hkind, -⟩ := ofRequest_refused_iff ⟨none, false⟩ .v3 (posting http)
    fun _ hhttp => Option.some_inj.1 hhttp ▸ hnames
  obtain ⟨f, hf⟩ := hiff.2 hrefused
  exact ⟨hnames, f, hf, hkind f hf⟩

end AuthGate.Input
