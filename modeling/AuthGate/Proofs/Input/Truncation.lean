import AuthGate.Proofs.Input.Refusal
import AuthGate.Proofs.Proto.Json
import AuthGate.Proofs.Text.Percent

set_option autoImplicit false

/-! # Bodies that are cut

A body of which some is missing is never shown as if it were complete, unless it is a form. For a
gRPC body it is the first frame that counts: what follows it is not looked at, a frame that is cut
is no failure, and a compressed one is not shown (`Framed`). A complete one is shown unless its
message has no form in JSON, and then no input is built. The main statement is `ofRequest_framed`. -/

namespace AuthGate

/-- No name of a service or a method has a `%` in it. -/
def Proto.Schema.Plain (s : Proto.Schema) : Prop :=
  ∀ service ∈ s.services, '%' ∉ service.name.toList ∧
    ∀ method ∈ service.methods, '%' ∉ method.name.toList

namespace Input

/-! ## gRPC requests -/

/-- A gRPC request for a method that takes messages of the type, with no header about its length. -/
structure Calls (s : Proto.Schema) (http : HttpRequest) (type : Proto.MessageType) : Prop where
  format : BodyFormat.grpc.Asked (contentType http)
  method : methodInput? s http.path.toList = some type
  length : ∀ value, ¬ http.Tells "content-length" value

/-- Bytes that begin with the frame of a message, whatever follows it. -/
inductive Carries (s : Proto.Schema) (type : Proto.MessageType) : List UInt8 → Proto.Message → Prop
  | first {payload : List UInt8} {m : Proto.Message} (size : payload.length < 2 ^ 32)
    (message : Proto.merge s type [] payload = some m) (rest : List UInt8) :
    Carries s type (frame payload ++ rest) m

/-- What the bytes of a gRPC body are shown as, and whether as truncated. -/
inductive Framed (s : Proto.Schema) (type : Proto.MessageType) : List UInt8 → Json → Bool → Prop
  /-- A frame of a message that has a form in JSON. -/
  | message {bs : List UInt8} {m : Proto.Message} {parsed : Json} (carries : Carries s type bs m)
    (form : m.toJson? s type = some parsed) : Framed s type bs parsed false
  /-- A frame that lacks some of its message. -/
  | cut {payload bs : List UInt8} (size : payload.length < 2 ^ 32)
    (header : frameHeader ≤ bs.length) (part : bs <+: frame payload) (lacks : bs ≠ frame payload) :
    Framed s type bs .null true
  /-- A flag that is not zero. -/
  | compressed {flag : UInt8} (set : flag ≠ 0) {rest : List UInt8}
    (header : frameHeader ≤ (flag :: rest).length) : Framed s type (flag :: rest) .null false

variable {s : Proto.Schema} {type : Proto.MessageType} {bs : List UInt8} {m : Proto.Message}
  {parsed : Json} {truncated : Bool}

theorem Carries.le_length (h : Carries s type bs m) : frameHeader ≤ bs.length := by
  cases h with
  | first size message rest =>
    rw [List.length_append, length_frame]
    omega

theorem Framed.le_length (h : Framed s type bs parsed truncated) : frameHeader ≤ bs.length := by
  cases h with
  | message carries form => exact carries.le_length
  | cut size header part lacks => exact header
  | compressed set header => exact header

/-- The message is what is read of the bytes. -/
theorem Carries.exists_ofBytes (h : Carries s type bs m) : ∃ payload,
    Frame.ofBytes bs = .message payload ∧ Proto.merge s type [] payload = some m := by
  cases h with
  | first size message rest =>
    exact ⟨_, Frame.ofBytes_eq_message_iff.2 ⟨size, List.prefix_append _ _⟩, message⟩

/-- How the frames of a method that is known are read. -/
theorem Framed.exists_grpcBody {path : String} (hmethod : methodInput? s path.toList = some type)
    (h : Framed s type bs parsed truncated) : ∃ body, grpcBody s path bs = .ok body ∧
      body.parsed.getD .null = parsed ∧ body.truncated = truncated := by
  simp only [grpcBody, hmethod]
  cases h with
  | message carries form =>
    obtain ⟨payload, hframe, hmessage⟩ := carries.exists_ofBytes
    simp only [hframe, hmessage, form]
    exact ⟨_, rfl, rfl, rfl⟩
  | cut size header part lacks =>
    rw [Frame.ofBytes_eq_cut_iff.2 ⟨header, _, size, part, lacks⟩]
    exact ⟨_, rfl, rfl, rfl⟩
  | compressed set header =>
    rw [Frame.ofBytes_eq_compressed_iff.2 ⟨header, _, rfl, set⟩]
    exact ⟨_, rfl, rfl, rfl⟩

/-- A body of which a frame may be read is read by its first frame. -/
theorem Calls.parseBody_eq {http : HttpRequest} (hcalls : Calls s http type)
    (h : frameHeader ≤ (bodyBytes http).length) :
    parseBody (some s) http = grpcBody s http.path (bodyBytes http) := by
  have hwhole : isTruncated http (bodyBytes http).length = .ok false := by
    rw [isTruncated, header?_eq_none_iff.2 hcalls.length]
  have hbody : bodyBytes http ≠ [] := by
    intro hnil
    rw [hnil, frameHeader, List.length_nil] at h
    omega
  rw [parseBody_eq_bind, hwhole, BodyFormat.ofContentType_eq_iff.2 hcalls.format]
  exact if_neg hbody

theorem Calls.exists_parseBody {http : HttpRequest} (hcalls : Calls s http type)
    (h : Framed s type (bodyBytes http) parsed truncated) :
    ∃ body, parseBody (some s) http = .ok body ∧
      body.parsed.getD .null = parsed ∧ body.truncated = truncated := by
  rw [hcalls.parseBody_eq h.le_length]
  exact h.exists_grpcBody hcalls.method

/-- A message without a form in JSON cannot be shown. -/
theorem Calls.exists_parseBody_error {http : HttpRequest} (hcalls : Calls s http type)
    (h : Carries s type (bodyBytes http) m) (hform : m.toJson? s type = none) :
    ∃ f, parseBody (some s) http = .error f := by
  rw [hcalls.parseBody_eq h.le_length]
  obtain ⟨payload, hframe, hmessage⟩ := h.exists_ofBytes
  obtain ⟨size, hfirst⟩ := Frame.ofBytes_eq_message_iff.1 hframe
  exact grpcBody_error_iff.2
    ⟨type, hcalls.method, .inr ⟨payload, size, hfirst, .form hmessage hform⟩⟩

/-! ## Paths of methods -/

/-- A character in front of a text is all that is taken away from it. -/
theorem mem_getD_dropStart? {c start : Char} (h : c ≠ start) {cs : List Char} (hmem : c ∈ cs) :
    c ∈ (Text.dropStart? [start] cs).getD cs := by
  cases cs with
  | nil => cases hmem
  | cons first rest =>
    by_cases hstart : start = first
    · subst hstart
      have hrest := (List.mem_cons.1 hmem).resolve_left h
      simpa [Text.dropStart?] using hrest
    · simpa only [Text.dropStart?, if_neg hstart, Option.getD_none] using hmem

theorem mem_messages_of_methodInput? {path : List Char} (h : methodInput? s path = some type) :
    type ∈ s.messages := by
  obtain ⟨⟨service, method⟩, -, h⟩ := Option.bind_eq_some_iff.1 h
  obtain ⟨service, -, h⟩ := Option.bind_eq_some_iff.1 h
  obtain ⟨method, -, h⟩ := Option.bind_eq_some_iff.1 h
  exact List.mem_of_find?_eq_some h

/-- The path of a method that is known has no escapes. -/
theorem percent_notMem_of_methodInput? (hplain : s.Plain) {path : List Char}
    (h : methodInput? s path = some type) : '%' ∉ path := by
  obtain ⟨⟨name, method⟩, hsplit, h⟩ := Option.bind_eq_some_iff.1 h
  obtain ⟨service, hservice, h⟩ := Option.bind_eq_some_iff.1 h
  obtain ⟨found, hfound, -⟩ := Option.bind_eq_some_iff.1 h
  obtain ⟨hpath, -⟩ := Text.splitOnce_eq_some_iff.1 hsplit
  obtain ⟨hservicePlain, hmethodsPlain⟩ := hplain service (List.mem_of_find?_eq_some hservice)
  have hname : '%' ∉ name := by
    have hsame := List.find?_some hservice
    rw [eq_of_beq hsame, String.toList_ofList] at hservicePlain
    exact fun hmem => hservicePlain (mem_getD_dropStart? (by decide) hmem)
  have hmethod : '%' ∉ method := by
    have hsame := List.find?_some hfound
    have hmethodPlain := hmethodsPlain found (List.mem_of_find?_eq_some hfound)
    rwa [eq_of_beq hsame, String.toList_ofList] at hmethodPlain
  have hslashes : '%' ∉ path.takeWhile (· == '/') := fun hmem =>
    absurd (List.mem_takeWhile_imp hmem) (by decide)
  rw [← List.takeWhile_append_dropWhile (p := (· == '/')) (l := path), hpath]
  simp only [List.mem_append, List.mem_cons, not_or]
  exact ⟨hslashes, hname, by decide, hmethod⟩

/-- The path of a method that is known is always read. -/
theorem exists_segments (hplain : s.Plain) {path : List Char}
    (h : methodInput? s path = some type) : ∃ parts, segments (resourceOf path) = .ok parts := by
  have hescapes : '%' ∉ resourceOf path := fun hmem =>
    percent_notMem_of_methodInput? hplain h
      ((List.takeWhile_sublist _).subset ((List.takeWhile_sublist _).subset hmem))
  cases hsegments : segments (resourceOf path) with
  | ok parts => exact ⟨parts, rfl⟩
  | error f =>
    refine absurd ⟨resourceOf path, ?_⟩ (segments_error_iff.1 ⟨f, hsegments⟩)
    rw [Text.percentDecode_eq_self]
    exact fun hmem => hescapes ((Text.Utf8.mem_encode_iff_of_ascii (by decide)).1 hmem)

/-! ## Inputs -/

/-- What an input shows of the body. -/
structure ShowsBody (doc parsed : Json) (truncated : Bool) : Prop where
  parsed : doc.field? "parsed_body" = some parsed
  truncated : doc.field? "truncated_body" = some (.bool truncated)

variable {o : Options} {v : ApiVersion} {r : CheckRequest} {http : HttpRequest}

/-- Only the path can keep the frames of a method that is known from being shown. -/
theorem Calls.sameResult (hread : o.skipBody = false) (hschema : o.schema = some s)
    (hhttp : r.http? = some http) (hcalls : Calls s http type)
    (h : Framed s type (bodyBytes http) parsed truncated) :
    SameResult (fun _ doc => ShowsBody doc parsed truncated) (segments (resourceOf (pathOf r)))
      (ofRequest o v r) := by
  obtain ⟨body, hbody, hparsed, htruncated⟩ := hcalls.exists_parseBody h
  have hreadBody : readBody o r = .ok (some body) := by
    simp only [readBody, hhttp, hread, hschema, hbody, Bool.false_eq_true, if_false]
    rfl
  rw [ofRequest_eq, hreadBody]
  cases segments (resourceOf (pathOf r)) with
  | error f => exact .error f
  | ok path =>
    refine .ok ⟨?_, ?_⟩
    · rw [parsedBody_document, Option.map_some, hparsed]
    · rw [truncatedBody_document, Option.map_some, htruncated]

/-- If no type has a form of its own, every message is shown. -/
theorem Calls.exists_framed (hcalls : Calls s http type) (hordinary : s.Ordinary)
    (h : Carries s type bs m) : ∃ parsed, Framed s type bs parsed false := by
  obtain ⟨form, hform⟩ := Proto.Message.exists_toJson? hordinary
    (mem_messages_of_methodInput? hcalls.method) m
  exact ⟨form, .message h hform⟩

/-- A message without a form in JSON keeps an input from being built. -/
theorem Calls.exists_ofRequest_error (hread : o.skipBody = false) (hschema : o.schema = some s)
    (hhttp : r.http? = some http) (hcalls : Calls s http type)
    (h : Carries s type (bodyBytes http) m) (hform : m.toJson? s type = none) (v : ApiVersion) :
    ∃ f, ofRequest o v r = .error f := by
  cases hpath : segments (resourceOf (pathOf r)) with
  | error f => exact ⟨f, ofRequest_eq_error_iff.2 (.inl hpath)⟩
  | ok path =>
    obtain ⟨f, hf⟩ := hcalls.exists_parseBody_error h hform
    have hbody : readBody o r = .error f :=
      readBody_eq_error_iff.2 ⟨hread, http, hhttp, hschema ▸ hf⟩
    exact ⟨f, ofRequest_eq_error_iff.2 (.inr ⟨⟨path, hpath⟩, hbody⟩)⟩

/-- A truncated body is not shown unless it is a form. -/
theorem parsedBody_of_truncated {doc : Json} (h : ofRequest o v r = .ok doc)
    (htruncated : doc.field? "truncated_body" = some (.bool true))
    (hform : ∀ http ∈ r.http?, ¬ BodyFormat.form.Asked (contentType http)) :
    doc.field? "parsed_body" = some .null := by
  obtain ⟨path, body?, -, hbody, rfl⟩ := ofRequest_eq_ok_iff.1 h
  rw [truncatedBody_document, Option.map_eq_some_iff] at htruncated
  obtain ⟨body, rfl, htruncated⟩ := htruncated
  obtain ⟨-, http, hhttp, hparse⟩ := readBody_eq_some_iff.1 hbody
  have hnone := parsed_eq_none_of_truncated hparse (Json.bool.inj htruncated)
    fun hformat => hform http hhttp (BodyFormat.ofContentType_eq_iff.1 hformat)
  rw [parsedBody_document, Option.map_some, hnone]
  rfl

/-- What is truncated is not shown, unless it is a form. Of the body of a gRPC request the first
    frame is shown if it is complete, and nothing but the path can make it fail, which is in order
    if the names of the schema are. The message of a complete frame must have a form in JSON, as all
    have if no type has a form of its own; else no input is built. None of the positions that a
    frame is read from is beyond the end of the body. -/
theorem ofRequest_framed (schema : Option Proto.Schema) (v : ApiVersion) (r : CheckRequest) :
    (∀ doc, ofRequest ⟨schema, false⟩ v r = .ok doc →
      doc.field? "truncated_body" = some (.bool true) →
        (∀ http ∈ r.http?, ¬ BodyFormat.form.Asked (contentType http)) →
          doc.field? "parsed_body" = some .null) ∧
    (∀ s http type parsed truncated, schema = some s → r.http? = some http → Calls s http type →
      Framed s type (bodyBytes http) parsed truncated →
        SameResult (fun _ doc => ShowsBody doc parsed truncated)
          (segments (resourceOf (pathOf r))) (ofRequest ⟨schema, false⟩ v r) ∧
        (s.Plain → ∃ doc, ofRequest ⟨schema, false⟩ v r = .ok doc ∧
          ShowsBody doc parsed truncated)) ∧
    (∀ s http type m, schema = some s → r.http? = some http → Calls s http type →
      Carries s type (bodyBytes http) m →
        (s.Ordinary → ∃ parsed, Framed s type (bodyBytes http) parsed false) ∧
        (m.toJson? s type = none →
          ∃ f, ofRequest ⟨schema, false⟩ v r = .error f ∧ f.kind = .inputConversion)) ∧
    (∀ bs, Frame.at? bs = some (Frame.ofBytes bs)) := by
  refine ⟨fun _ => parsedBody_of_truncated, ?shown, ?unshown, Frame.at?_eq⟩
  case shown =>
    intro s http type parsed truncated hschema hhttp hcalls hframed
    have hsame : SameResult (fun _ doc => ShowsBody doc parsed truncated)
        (segments (resourceOf (pathOf r))) (ofRequest ⟨schema, false⟩ v r) :=
      hcalls.sameResult rfl hschema hhttp hframed
    refine ⟨hsame, fun hplain => ?_⟩
    have hpath : pathOf r = http.path.toList := by
      rw [pathOf, hhttp, Option.map_some, Option.getD_some]
    obtain ⟨parts, hparts⟩ := exists_segments hplain hcalls.method
    rw [hpath, hparts] at hsame
    exact hsame.exists_eq_ok
  case unshown =>
    intro s http type m hschema hhttp hcalls hcarries
    refine ⟨fun hordinary => hcalls.exists_framed hordinary hcarries, fun hform => ?_⟩
    obtain ⟨f, hf⟩ := hcalls.exists_ofRequest_error (o := ⟨schema, false⟩) rfl hschema hhttp
      hcarries hform v
    exact ⟨f, hf, kind_of_ofRequest_error hf⟩

/-- A service with one method, which takes a name. -/
def greeter : Proto.Schema where
  messages := [⟨"demo.HelloRequest", [.single 1 "name" .string]⟩]
  enumerations := []
  services := [⟨"demo.Greeter", [⟨"SayHello", "demo.HelloRequest", "demo.HelloRequest"⟩]⟩]

theorem plain_greeter : greeter.Plain := by
  intro service hservice
  obtain rfl := List.mem_singleton.1 hservice
  refine ⟨by decide +kernel, fun method hmethod => ?_⟩
  obtain rfl := List.mem_singleton.1 hmethod
  decide +kernel

theorem ordinary_greeter : greeter.Ordinary := by
  intro type htype
  obtain rfl := List.mem_singleton.1 htype
  decide +kernel

/-- A call of the method with a frame and one more byte after it. -/
def greeting : HttpRequest :=
  post "/demo.Greeter/SayHello" [("Content-Type", "application/grpc")]
    (frame [0x0A, 2, 0x48, 0x69] ++ [0xFF])

/-- Of a frame and the byte after it the frame is shown. -/
theorem ofRequest_framed_greeting : greeter.Ordinary ∧ ∃ doc parsed,
    ofRequest ⟨some greeter, false⟩ .v3 (posting greeting) = .ok doc ∧
      ShowsBody doc parsed false ∧ (parsed.field? "name").bind Json.asString? = some "Hi" := by
  have hname : ((methodInput? greeter greeting.path.toList).bind fun type =>
      (Proto.merge greeter type [] [0x0A, 2, 0x48, 0x69]).bind fun m =>
        (m.toJson? greeter type).bind fun form => (form.field? "name").bind Json.asString?) =
      some "Hi" := by
    decide +kernel
  obtain ⟨type, hmethod, hname⟩ := Option.bind_eq_some_iff.1 hname
  obtain ⟨m, hmessage, hname⟩ := Option.bind_eq_some_iff.1 hname
  obtain ⟨form, hform, hname⟩ := Option.bind_eq_some_iff.1 hname
  have hcalls : Calls greeter greeting type :=
    ⟨BodyFormat.ofContentType_eq_iff.1 (by decide +kernel), hmethod,
      header?_eq_none_iff.1 (by decide +kernel)⟩
  have hbody : bodyBytes greeting = frame [0x0A, 2, 0x48, 0x69] ++ [0xFF] := by decide +kernel
  have hcarries : Carries greeter type (bodyBytes greeting) m :=
    hbody ▸ .first (by decide) hmessage [0xFF]
  have hframed : Framed greeter type (bodyBytes greeting) form false := .message hcarries hform
  obtain ⟨-, hshown, -, -⟩ := ofRequest_framed (some greeter) .v3 (posting greeting)
  obtain ⟨doc, hdoc, hshows⟩ := (hshown _ _ _ _ _ rfl rfl hcalls hframed).2 plain_greeter
  exact ⟨ordinary_greeter, doc, _, hdoc, hshows, hname⟩

/-- A service with one method, which takes a value whose type is named. -/
def porter : Proto.Schema where
  messages := [⟨"demo.Parcel", [.nested 1 "content" "google.protobuf.Any"]⟩,
    ⟨"google.protobuf.Any", [{ Proto.Field.single 1 "type_url" .string with jsonName := "typeUrl" },
      .single 2 "value" .bytes]⟩]
  enumerations := []
  services := [⟨"demo.Porter", [⟨"Send", "demo.Parcel", "demo.Parcel"⟩]⟩]

/-- A message of the method around a value of a type that the schema does not know. -/
def parcel : List UInt8 := [0x0A, 0x0E, 0x0A, 0x0C] ++ Text.Utf8.encode "demo/Missing".toList

/-- A call of the method. -/
def sending : HttpRequest :=
  post "/demo.Porter/Send" [("Content-Type", "application/grpc")] (frame parcel)

/-- A complete frame of a message of the method is not always shown. -/
theorem ofRequest_not_framed_sending : ∃ type m, Calls porter sending type ∧
    parcel.length < 2 ^ 32 ∧ Proto.merge porter type [] parcel = some m ∧
      bodyBytes sending = frame parcel ∧
        ∀ doc, ofRequest ⟨some porter, false⟩ .v3 (posting sending) ≠ .ok doc := by
  have hform : ((methodInput? porter sending.path.toList).bind fun type =>
      (Proto.merge porter type [] parcel).map fun m => (m.toJson? porter type).isNone) =
      some true := by
    decide +kernel
  obtain ⟨type, hmethod, hform⟩ := Option.bind_eq_some_iff.1 hform
  obtain ⟨m, hmessage, hform⟩ := Option.map_eq_some_iff.1 hform
  have hcalls : Calls porter sending type :=
    ⟨BodyFormat.ofContentType_eq_iff.1 (by decide +kernel), hmethod,
      header?_eq_none_iff.1 (by decide +kernel)⟩
  have hsize : parcel.length < 2 ^ 32 := by decide +kernel
  have hbody : bodyBytes sending = frame parcel := by decide +kernel
  have hcarries : Carries porter type (bodyBytes sending) m := by
    rw [hbody, ← List.append_nil (frame parcel)]
    exact .first hsize hmessage []
  refine ⟨type, m, hcalls, hsize, hmessage, hbody, fun doc hdoc => ?_⟩
  obtain ⟨f, hf⟩ := hcalls.exists_ofRequest_error (o := ⟨some porter, false⟩) (r := posting sending)
    rfl rfl rfl hcarries (Option.isNone_iff_eq_none.1 hform) .v3
  rw [hdoc] at hf
  cases hf

end Input

end AuthGate
