import AuthGate.Instant
import AuthGate.Json.Basic
import AuthGate.Request.Basic
import AuthGate.Struct.Json
import AuthGate.Text.Base64

set_option autoImplicit false

/-! # Attributes as a document

The attributes of a request as the policy sees them: fields that are empty or missing are left out,
64-bit numbers are text and bytes are base64. -/

namespace AuthGate.Input

/-- A field of text, left out if empty. -/
def textField (name value : String) : List (String × Json) :=
  if value.isEmpty then [] else [(name, .string value)]

/-- A field of a map of texts, left out if empty. -/
def mapField (name : String) (entries : List (String × String)) : List (String × Json) :=
  if entries.isEmpty then [] else [(name, .ofTexts entries)]

/-- A field that is left out if there is no value. -/
def optionalField (name : String) (value : Option Json) : List (String × Json) :=
  match value with
  | some v => [(name, v)]
  | none => []

/-- The field of a port; it is there even if the number is zero or the name empty. -/
def portField : Option Port → List (String × Json)
  | some (.number n) => [("portValue", .ofNat n)]
  | some (.named name) => [("namedPort", .string name)]
  | none => []

def addressJson : Address → Json
  | .socket s =>
    .ofFields [("socketAddress", .ofFields
      (textField "address" s.address ++ textField "resolverName" s.resolverName ++
        portField s.port))]
  | .pipe path _ => .ofFields [("pipe", .ofFields (textField "path" path))]
  | .internal _ _ => .ofFields []
  | .unset => .ofFields []

def peerJson (p : Peer) : Json :=
  .ofFields (optionalField "address" (p.address.map addressJson) ++
    textField "service" p.service ++ mapField "labels" p.labels ++
    textField "principal" p.principal ++ textField "certificate" p.certificate)

/-- A moment as text, if it is one; negative nanoseconds count as none. -/
def timeJson? (t : Timestamp) : Option Json :=
  (Instant.ofTimestamp? t.seconds t.nanos.toNat).map fun i => .string i.render

def httpJson (h : HttpRequest) : Json :=
  .ofFields (textField "id" h.id ++ textField "method" h.method ++ mapField "headers" h.headers ++
    textField "path" h.path ++ textField "host" h.host ++ textField "scheme" h.scheme ++
    textField "query" h.query ++ textField "fragment" h.fragment ++
    optionalField "size"
      (if h.size = 0 then none else some (.string (String.ofList (Text.ofInt h.size)))) ++
    textField "protocol" h.protocol ++ textField "body" h.body ++
    textField "rawBody" (String.ofList (Text.Base64.encode h.rawBody)))

def requestJson (r : TimedRequest) : Json :=
  .ofFields (optionalField "time" (r.time.bind timeJson?) ++
    optionalField "http" (r.http.map httpJson))

def metadataJson (m : Metadata) : Json :=
  if m.filters.isEmpty then .ofFields []
  else .ofFields [("filterMetadata", .ofFields (Fields.mapValues Struct.toJson m.filters))]

/-- The attributes of a request. -/
def attributesJson (a : Attributes) : Json :=
  .ofFields (optionalField "source" (a.source.map peerJson) ++
    optionalField "destination" (a.destination.map peerJson) ++
    optionalField "request" (a.request.map requestJson) ++
    mapField "contextExtensions" a.contextExtensions ++
    optionalField "metadataContext" (a.metadata.map metadataJson) ++
    optionalField "tlsSession" (a.tlsSession.map fun t => .ofFields (textField "sni" t.sni)))

end AuthGate.Input
