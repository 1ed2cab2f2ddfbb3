import AuthGate.Struct.Any
import AuthGate.Struct.Basic

set_option autoImplicit false

/-! # Check requests

What the proxy tells about a request that it wants to have decided: who sends it and to whom, the
HTTP request itself, and what else the proxy has been configured to say. Every part may be missing,
and a part that is present but empty differs from one that is missing. Maps keep the order in which
they came; a name occurs once in them. -/

namespace AuthGate

/-- The port of a socket address. -/
inductive Port where
  | number (n : Nat)
  | named (name : String)
  deriving DecidableEq, Repr

/-- The address of a socket. -/
structure SocketAddress where
  protocol : Int
  address : String
  port : Option Port
  resolverName : String
  ipv4Compat : Bool
  networkNamespace : String
  deriving DecidableEq, Repr

/-- Where a peer is reached. -/
inductive Address where
  | unset
  | socket (s : SocketAddress)
  | pipe (path : String) (mode : Nat)
  /-- Inside the proxy: the name of a listener and what tells its endpoints apart. -/
  | internal (listener : Option String) (endpoint : String)
  deriving DecidableEq, Repr

/-- A party to the request. -/
structure Peer where
  address : Option Address
  service : String
  labels : List (String × String)
  principal : String
  certificate : String
  deriving DecidableEq, Repr

/-- A moment as the proxy states it. -/
structure Timestamp where
  seconds : Int
  nanos : Int
  deriving DecidableEq, Repr

/-- A header with its value as text or as bytes. -/
structure HeaderValue where
  key : String
  value : String
  raw : List UInt8
  deriving DecidableEq, Repr

/-- The HTTP request. -/
structure HttpRequest where
  id : String
  method : String
  headers : List (String × String)
  path : String
  host : String
  scheme : String
  query : String
  fragment : String
  size : Int
  protocol : String
  body : String
  rawBody : List UInt8
  /-- The headers in order, repeated names included. -/
  headerMap : Option (List HeaderValue)
  deriving DecidableEq, Repr

/-- The request and the time at which the proxy received its first byte. -/
structure TimedRequest where
  time : Option Timestamp
  http : Option HttpRequest
  deriving DecidableEq, Repr

/-- What filters of the proxy say, by their names. -/
structure Metadata where
  filters : List (String × Struct)
  typed : List (String × AnyValue)

/-- The TLS session of the request. -/
structure TlsSession where
  sni : String
  deriving DecidableEq, Repr

/-- The attributes of a request. -/
structure Attributes where
  source : Option Peer
  destination : Option Peer
  request : Option TimedRequest
  contextExtensions : List (String × String)
  metadata : Option Metadata
  routeMetadata : Option Metadata
  tlsSession : Option TlsSession

/-- What the proxy asks. -/
structure CheckRequest where
  attributes : Option Attributes

namespace CheckRequest

/-- The HTTP request, if there is one. -/
def http? (r : CheckRequest) : Option HttpRequest := do
  let attributes ← r.attributes
  let request ← attributes.request
  request.http

end CheckRequest

/-- The version of the protocol that a request was made in. -/
inductive ApiVersion where
  | v2
  | v3
  deriving DecidableEq, Repr

/-- The label of a version. -/
def ApiVersion.label : ApiVersion → String
  | .v2 => "v2"
  | .v3 => "v3"

end AuthGate
