import AuthGate.Proofs.Input.Truncation

set_option autoImplicit false

/-! # What the reading of a body depends on

Two requests are compared, and nothing is said about most of what they hold. If their bodies have the
same bytes, if they tell the same length and type, and, in case of a gRPC body, have the same path,
then their bodies are shown alike or fail to be read in the same way (`ofRequest_sameBody`). So the
text of a body that comes with bytes, the other headers and attributes and the version are not
looked at, and a text may be sent as text or as bytes. -/

namespace AuthGate.Input

/-! ## Requests whose bodies are read alike -/

/-- Requests that agree in what the reading of a body depends on. -/
structure SameSource (http http' : HttpRequest) : Prop where
  bytes : bodyBytes http = bodyBytes http'
  length : ∀ value, http.Tells "content-length" value ↔ http'.Tells "content-length" value
  type : ∀ value, http.Tells "content-type" value ↔ http'.Tells "content-type" value
  path : (∃ type, http.Tells "content-type" type ∧ BodyFormat.grpc.Asked type) →
    http.path = http'.path

/-- Inputs that show the same of the body. -/
def SameBody (doc doc' : Json) : Prop :=
  ∃ parsed truncated, ShowsBody doc parsed truncated ∧ ShowsBody doc' parsed truncated

variable {schema : Option Proto.Schema} {http http' : HttpRequest}

/-- A header that is told alike is found alike. -/
theorem header?_eq_of_tells {name : String} (h : http.Unambiguous) (h' : http'.Unambiguous)
    (htells : ∀ value, http.Tells name value ↔ http'.Tells name value) :
    header? name http = header? name http' := by
  refine Option.ext fun value => ?_
  rw [header?_eq_some_iff h, header?_eq_some_iff h', htells]

/-- The path is looked at only to find the method of a gRPC body. -/
theorem readAs_eq {truncated : Bool} {format : BodyFormat} (hbytes : bodyBytes http = bodyBytes http')
    (hpath : format = .grpc → http.path = http'.path) :
    readAs schema http truncated format = readAs schema http' truncated format := by
  cases format with
  | json | form => simp only [readAs, hbytes]
  | grpc => simp only [readAs, hbytes, hpath rfl]
  | other => rfl

/-- Bodies of the same bytes are read alike if the same headers are found. -/
theorem parseBody_eq_of_header? (hbytes : bodyBytes http = bodyBytes http')
    (hlength : header? "content-length" http = header? "content-length" http')
    (htype : header? "content-type" http = header? "content-type" http')
    (hpath : BodyFormat.ofContentType (contentType http) = .grpc → http.path = http'.path) :
    parseBody schema http = parseBody schema http' := by
  have htruncated : isTruncated http (bodyBytes http).length =
      isTruncated http' (bodyBytes http').length := by
    rw [isTruncated, isTruncated, hlength, hbytes]
  have hcontent : contentType http = contentType http' := by rw [contentType, contentType, htype]
  have hread (truncated : Bool) : readAs schema http truncated (.ofContentType (contentType http)) =
      readAs schema http' truncated (.ofContentType (contentType http)) := readAs_eq hbytes hpath
  rw [parseBody_eq_bind, parseBody_eq_bind, htruncated, ← hcontent]
  simp only [hread, hbytes]

theorem SameSource.parseBody_eq (h : http.Unambiguous) (h' : http'.Unambiguous)
    (hsame : SameSource http http') : parseBody schema http = parseBody schema http' := by
  refine parseBody_eq_of_header? hsame.bytes (header?_eq_of_tells h h' hsame.length)
    (header?_eq_of_tells h h' hsame.type) fun hgrpc => hsame.path ?_
  exact (ofContentType_eq_iff_tells h (by decide)).1 hgrpc

/-! ## Inputs that show the same body -/

variable {r r' : CheckRequest}

/-- What the path of a request escapes is a text. -/
def HasPath (r : CheckRequest) : Prop :=
  ∃ text, Text.Utf8.encode text = Text.percentDecode (Text.Utf8.encode (resourceOf (pathOf r)))

theorem HasPath.exists_segments (h : HasPath r) :
    ∃ path, segments (resourceOf (pathOf r)) = .ok path := by
  cases hsegments : segments (resourceOf (pathOf r)) with
  | ok path => exact ⟨path, rfl⟩
  | error f => exact absurd h (segments_error_iff.1 ⟨f, hsegments⟩)

theorem showsBody_document (v : ApiVersion) (r : CheckRequest) (path : List String) (body : Body) :
    ShowsBody (document v r path (some body)) (body.parsed.getD .null) body.truncated :=
  ⟨parsedBody_document v r path (some body), truncatedBody_document v r path (some body)⟩

/-- Where the path of one request is read so is that of the other, and their bodies are read alike:
    then the bodies are shown alike. -/
theorem sameResult_of_parseBody_eq {v v' : ApiVersion} (hhttp : r.http? = some http)
    (hhttp' : r'.http? = some http')
    (hpath : SameResult (fun _ _ => True) (segments (resourceOf (pathOf r)))
      (segments (resourceOf (pathOf r'))))
    (hbody : parseBody schema http = parseBody schema http') :
    SameResult SameBody (ofRequest ⟨schema, false⟩ v r) (ofRequest ⟨schema, false⟩ v' r') := by
  rw [ofRequest_eq, ofRequest_eq, readBody_eq_map hhttp, readBody_eq_map hhttp', ← hbody]
  generalize segments (resourceOf (pathOf r)) = path at hpath ⊢
  generalize segments (resourceOf (pathOf r')) = path' at hpath ⊢
  cases hpath with
  | error f => exact .error f
  | ok _ =>
    cases parseBody schema http with
    | error f => exact .error f
    | ok body => exact .ok ⟨_, _, showsBody_document v r _ body, showsBody_document v' r' _ body⟩

/-- Of two requests that agree in the bytes of the body, in its length and type as the headers tell
    them and, for a gRPC body, in the path, the bodies are shown alike or fail alike, whatever else
    differs. In particular it does not matter whether a text is sent as text or as bytes. -/
theorem ofRequest_sameBody (schema : Option Proto.Schema) (v v' : ApiVersion)
    (r r' : CheckRequest) :
    (∀ http http', r.http? = some http → r'.http? = some http' → http.Unambiguous →
      http'.Unambiguous → HasPath r → HasPath r' → SameSource http http' →
        SameResult SameBody (ofRequest ⟨schema, false⟩ v r) (ofRequest ⟨schema, false⟩ v' r')) ∧
    (∀ (http : HttpRequest) (text ignored : String), (text = "" → ignored = "") →
      r.http? = some { http with body := text, rawBody := [] } →
      r'.http? = some { http with body := ignored, rawBody := Text.Utf8.encode text.toList } →
        SameResult SameBody (ofRequest ⟨schema, false⟩ v r) (ofRequest ⟨schema, false⟩ v' r')) := by
  constructor
  · intro http http' hhttp hhttp' hnames hnames' hpath hpath' hsame
    obtain ⟨path, hpath⟩ := hpath.exists_segments
    obtain ⟨path', hpath'⟩ := hpath'.exists_segments
    refine sameResult_of_parseBody_eq hhttp hhttp' ?_ (hsame.parseBody_eq hnames hnames')
    rw [hpath, hpath']
    exact .ok trivial
  · intro http text ignored hempty hhttp hhttp'
    have hbytes : bodyBytes { http with body := text, rawBody := [] } =
        bodyBytes { http with body := ignored, rawBody := Text.Utf8.encode text.toList } := by
      by_cases htext : text = ""
      · rw [htext, hempty htext]
        rfl
      · have hsent : Text.Utf8.encode text.toList ≠ [] := by
          rwa [ne_eq, Text.Utf8.encode_eq_nil_iff, String.toList_eq_nil_iff]
        simp [bodyBytes, hsent]
    refine sameResult_of_parseBody_eq hhttp hhttp' ?_ ?_
    · have hpath : pathOf r = pathOf r' := by rw [pathOf, pathOf, hhttp, hhttp']; rfl
      rw [hpath]
      cases segments (resourceOf (pathOf r')) with
      | error f => exact .error f
      | ok path => exact .ok trivial
    · exact parseBody_eq_of_header? hbytes rfl rfl fun _ => rfl

/-- A call whose body comes as text and the same call with the body as bytes, between which the
    case and the order of the headers, another header, the method, a text that is not looked at and
    the version differ. -/
theorem ofRequest_sameBody_greetings :
    let asText := { post "/demo.Greeter/SayHello"
        [("x-tenant", "blue"), ("CONTENT-TYPE", "application/grpc")] [] with
      body := "\x00\x00\x00\x00\x04\n\x02Hi" }
    let asBytes := { post "/demo.Greeter/SayHello" [("content-type", "application/grpc")]
        (frame [0x0A, 2, 0x48, 0x69]) with
      method := "PUT", body := "not looked at" }
    asText.Unambiguous ∧ asBytes.Unambiguous ∧ HasPath (posting asText) ∧
      HasPath (posting asBytes) ∧ SameSource asText asBytes ∧
      SameResult SameBody (ofRequest ⟨some greeter, false⟩ .v2 (posting asText))
        (ofRequest ⟨some greeter, false⟩ .v3 (posting asBytes)) := by
  intro asText asBytes
  have hnames : asText.Unambiguous := by
    rw [HttpRequest.Unambiguous]
    decide +kernel
  have hnames' : asBytes.Unambiguous := by
    rw [HttpRequest.Unambiguous]
    decide +kernel
  have hpath : HasPath (posting asText) := ⟨"/demo.Greeter/SayHello".toList, by decide +kernel⟩
  have hpath' : HasPath (posting asBytes) := ⟨"/demo.Greeter/SayHello".toList, by decide +kernel⟩
  have htells (name : String) (hfound : header? name asText = header? name asBytes)
      (value : String) : asText.Tells name value ↔ asBytes.Tells name value := by
    rw [← header?_eq_some_iff hnames, ← header?_eq_some_iff hnames', hfound]
  have hsame : SameSource asText asBytes :=
    ⟨by decide +kernel, htells _ (by decide +kernel), htells _ (by decide +kernel), fun _ => rfl⟩
  obtain ⟨hresult, -⟩ := ofRequest_sameBody (some greeter) .v2 .v3 (posting asText) (posting asBytes)
  exact ⟨hnames, hnames', hpath, hpath', hsame,
    hresult _ _ rfl rfl hnames hnames' hpath hpath' hsame⟩

end AuthGate.Input
