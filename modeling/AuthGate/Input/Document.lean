import AuthGate.Input.Attributes
import AuthGate.Input.Body

set_option autoImplicit false

/-! # The policy input

The document that a policy decides on: the attributes of the request, its path, parameters and body
in parsed form, and the version of the protocol. -/

namespace AuthGate.Input

/-- How requests are read. -/
structure Options where
  /-- The types of gRPC messages that are known. -/
  schema : Option Proto.Schema
  /-- Whether bodies are left alone. -/
  skipBody : Bool

/-- The fields of a parsed body. -/
def bodyFields (b : Body) : List (String × Json) :=
  [("parsed_body", b.parsed.getD .null), ("truncated_body", .bool b.truncated)]

/-- The policy input of a request. -/
def ofRequest (o : Options) (version : ApiVersion) (r : CheckRequest) : Except Failure Json := do
  let http := r.http?
  let target := Target.ofText ((http.map (·.path)).getD "").toList
  let path ← segments target.path
  let body ←
    match http with
    | some http =>
      if o.skipBody then pure [] else do
        let body ← parseBody o.schema http
        pure (bodyFields body)
    | none => pure []
  return .ofFields (optionalField "attributes" (r.attributes.map attributesJson) ++
    [("parsed_path", .ofStrings path),
      ("parsed_query", parametersJson (Text.Utf8.encode target.query))] ++ body ++
    [("version", .ofFields [("encoding", .string "protojson"),
      ("ext_authz", .string version.label)])])

end AuthGate.Input
