import AuthGate.Input.Path
import AuthGate.Json.Parser
import AuthGate.Proto.Json
import AuthGate.Proto.Reader
import AuthGate.Request.Basic
import AuthGate.Text.Quoted

set_option autoImplicit false

/-! # Request bodies

The body of a request as a document. The headers decide: how long the body is said to be, and of
what type. A body that is shorter than it is said to be is truncated, and only a form is parsed
nevertheless. A gRPC body is parsed if a schema knows the method that the path names: its first
frame is a flag byte, four bytes of length and a message, which must have a form in JSON. -/

namespace AuthGate.Input

/-- A body as far as it could be parsed. -/
structure Body where
  parsed : Option Json
  truncated : Bool

/-- The value of a header, whatever the case of its name. -/
def header? (name : String) (http : HttpRequest) : Option String :=
  (http.headers.find? fun (k, _) => Text.sameIgnoringCase k.toList name.toList).map (·.2)

/-- The bytes of a body, sent as bytes or else as text. -/
def bodyBytes (http : HttpRequest) : List UInt8 :=
  if http.rawBody.isEmpty then Text.Utf8.encode http.body.toList else http.rawBody

/-- Whether the body is shorter than the header says. -/
def isTruncated (http : HttpRequest) (length : Nat) : Except Failure Bool :=
  match header? "content-length" http with
  | none => .ok false
  | some text =>
    match Text.word64? (Text.trim text.toList) with
    | some n => .ok (length < n)
    | none =>
      .error ⟨.inputConversion, s!"invalid content-length header {Text.quoted text}"⟩

/-- How a body of some type is parsed. -/
inductive BodyFormat where
  | json
  | form
  | grpc
  | other
  deriving DecidableEq, Repr

/-- The format that a content type asks for: the first of the names that occurs in it. -/
def BodyFormat.ofContentType (type : String) : BodyFormat :=
  let has (name : String) : Bool := Text.occursIn name.toList type.toList
  if has "application/json" then .json
  else if has "application/x-www-form-urlencoded" then .form
  else if has "application/grpc" then .grpc
  else .other

/-! ## gRPC -/

/-- The type of the messages that the method of a path takes. -/
def methodInput? (s : Proto.Schema) (path : List Char) : Option Proto.MessageType := do
  let (service, method) ← Text.splitOnce '/' (path.dropWhile (· == '/'))
  let name := (Text.dropStart? ['.'] service).getD service
  let service ← s.service? (String.ofList name)
  let method ← service.methods.find? (·.name == String.ofList method)
  s.message? method.input

/-- The number of bytes before a frame's message. -/
def frameHeader : Nat := 5

/-- What the bytes of a gRPC body hold. -/
inductive Frame where
  | short
  | compressed
  | cut
  | message (payload : List UInt8)
  deriving DecidableEq, Repr

/-- The number that bytes are, the most significant first. -/
def bigEndian (bs : List UInt8) : Nat := bs.foldl (fun n b => n * 256 + b.toNat) 0

/-- The first frame of a gRPC body. -/
def Frame.ofBytes (bs : List UInt8) : Frame :=
  match bs with
  | flag :: a :: b :: c :: d :: payload =>
    if flag != 0 then .compressed
    else
      let n := bigEndian [a, b, c, d]
      if payload.length < n then .cut else .message (payload.take n)
  | _ => .short

/-- A gRPC body that is not truncated. -/
def grpcBody (s : Proto.Schema) (path : String) (bs : List UInt8) : Except Failure Body :=
  match methodInput? s path.toList with
  | none => .ok ⟨none, false⟩
  | some type =>
    match Frame.ofBytes bs with
    | .short => .error ⟨.inputConversion, "gRPC body shorter than the frame header"⟩
    | .compressed => .ok ⟨none, false⟩
    | .cut => .ok ⟨none, true⟩
    | .message payload =>
      match Proto.merge s type [] payload with
      | none =>
        .error ⟨.inputConversion, s!"failed to decode gRPC body: the bytes are no {type.name}"⟩
      | some m =>
        match m.toJson? s type with
        | some form => .ok ⟨some form, false⟩
        | none =>
          .error ⟨.inputConversion,
            s!"failed to encode gRPC body: the {type.name} has no form in JSON"⟩

/-! ## Bodies -/

/-- The body of a request; `schema` is there to decode gRPC bodies with. -/
def parseBody (schema : Option Proto.Schema) (http : HttpRequest) : Except Failure Body := do
  let bytes := bodyBytes http
  let truncated ← isTruncated http bytes.length
  if bytes.isEmpty then return ⟨none, truncated⟩
  match BodyFormat.ofContentType ((header? "content-type" http).getD "") with
  | .json =>
    if truncated then return ⟨none, true⟩
    else match Json.ofBytes? bytes with
    | some v => return ⟨some v, false⟩
    | none => .error ⟨.inputConversion, "body is not valid JSON: the bytes are no document"⟩
  | .form => return ⟨some (parametersJson bytes), truncated⟩
  | .grpc =>
    match schema with
    | none => return ⟨none, truncated⟩
    | some s => if truncated then return ⟨none, true⟩ else grpcBody s http.path bytes
  | .other => return ⟨none, truncated⟩

end AuthGate.Input
