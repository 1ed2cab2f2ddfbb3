import AuthGate.Decision.Basic
import AuthGate.Response.Basic
import AuthGate.Response.StatusCode
import AuthGate.Struct.Json
import AuthGate.Text.Quoted

set_option autoImplicit false

/-! # Responses of decisions

The response that a decision asks for. The fields of a structured decision are read one after the
other, and the first one that is malformed is the failure of the whole. -/

namespace AuthGate.Decision

/-- A header to set. -/
def headerOption (key value : String) : HeaderOption := ⟨some ⟨key, value, []⟩, none⟩

/-- The headers that one field of a header object stands for. -/
def headersOfField (key : String) : Json → Except Failure (List HeaderOption)
  | .string v => .ok [headerOption key v]
  | .array values =>
    values.mapM fun v =>
      match v with
      | .string v => .ok (headerOption key v)
      | _ =>
        .error (malformed
          s!"type assertion error, expected string value for header {Text.quoted key}")
  | v =>
    .error (malformed ("type assertion error, expected string or array of strings for header " ++
      s!"{Text.quoted key}, got {v.render}"))

/-- The headers of a header object, by name. -/
def headersOfObject (fields : List (String × Json)) : Except Failure (List HeaderOption) := do
  let headers ← fields.mapM fun (key, v) => headersOfField key v
  return headers.flatten

/-- The headers of a field: an object, or an array of objects. -/
def headers : Option Json → Except Failure (List HeaderOption)
  | none => .ok []
  | some (.object fields) => headersOfObject fields
  | some (.array items) => do
    let headers ← items.mapM fun item =>
      match item with
      | .object fields => headersOfObject fields
      | v => .error (malformed
          s!"type assertion error, expected headers object, got {v.render}")
    return headers.flatten
  | some v =>
    .error (malformed ("type assertion error, expected headers to be an object or an array of " ++
      s!"objects, got {v.render}"))

/-- The texts of a field. -/
def strings : Option Json → Except Failure (List String)
  | none => .ok []
  | some (.array items) =>
    items.mapM fun item =>
      match item with
      | .string s => .ok s
      | v => .error (malformed s!"type assertion error, expected string, got {v.render}")
  | some v =>
    .error (malformed s!"type assertion error, expected array of strings, got {v.render}")

/-- The body of a field. -/
def body : Option Json → Except Failure String
  | none => .ok ""
  | some (.string s) => .ok s
  | some v => .error (malformed s!"type assertion error, expected string body, got {v.render}")

/-- The whole number that a number equals, brought into the range of 64 signed bits. -/
def clamped? (n : Number) : Option Int :=
  n.toInt?.map fun i => max (-(0x8000000000000000)) (min (0x8000000000000000 - 1) i)

/-- The HTTP status code of a field. -/
def httpStatus : Option Json → Except Failure Int
  | none => .ok HttpStatus.forbidden
  | some (.number n) =>
    match clamped? n with
    | some code =>
      if HttpStatus.isCode code then .ok code
      else .error (malformed s!"Invalid HTTP status code {code}")
    | none => .error (notNumeric (.number n))
  | some v => .error (notNumeric v)
where
  /-- The failure of a value that is no whole number. -/
  notNumeric (v : Json) : Failure :=
    malformed s!"type assertion error, expected numeric http status, got {v.render}"

/-- The metadata of a field. -/
def dynamicMetadata : Option Json → Except Failure (Option Struct)
  | none => .ok none
  | some (.object fields) => .ok (some (Struct.ofFields fields))
  | some v =>
    .error (malformed
      s!"type assertion error, expected dynamic_metadata to be an object, got {v.render}")

/-- A failure told with the part of the response that it concerns. -/
def about {α : Type} (part : String) (r : Except Failure α) : Except Failure α :=
  r.mapError (Failure.within s!"failed to get {part}")

/-- The part about HTTP of a request that may pass. -/
def okBranch (fields : List (String × Json)) (headers : List HeaderOption) :
    Except Failure HttpBranch := do
  let remove ← about "request headers to remove"
    (strings (Fields.get? "request_headers_to_remove" fields))
  let add ← about "response headers to send to client"
    (Decision.headers (Fields.get? "response_headers_to_add" fields))
  return .ok ⟨headers, remove, add⟩

/-- The part about HTTP of a request that may not pass. -/
def deniedBranch (fields : List (String × Json)) (headers : List HeaderOption) :
    Except Failure HttpBranch := do
  let body ← about "response body" (Decision.body (Fields.get? "body" fields))
  let status ← about "response http status" (httpStatus (Fields.get? "http_status" fields))
  return .denied ⟨some status, headers, body⟩

/-- The response that a decision asks for. -/
def shape (d : Decision) : Except Failure CheckResponse := do
  let allowed ← about "response status" d.isAllowed
  let status := RpcStatus.of (if allowed then .ok else .permissionDenied) ""
  match d with
  | .structured fields =>
    let headers ← about "response headers" (Decision.headers (Fields.get? "headers" fields))
    let metadata ← about "dynamic metadata"
      (dynamicMetadata (Fields.get? "dynamic_metadata" fields))
    let branch ← if allowed then okBranch fields headers else deniedBranch fields headers
    return ⟨some status, some branch, metadata⟩
  | _ => return ⟨some status, none, none⟩

end AuthGate.Decision
