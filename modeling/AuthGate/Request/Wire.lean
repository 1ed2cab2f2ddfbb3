import AuthGate.Proto.Reader
import AuthGate.Proto.Writer
import AuthGate.Request.Basic
import AuthGate.Struct.Wire

set_option autoImplicit false

/-! # Check requests on the wire

The messages that check requests travel in. Both versions of the protocol use the same ones. -/

namespace AuthGate

open Proto

namespace CheckRequest

/-! ## The messages -/

/-- The messages of addresses and peers. -/
def peerTypes : List MessageType := [
  ⟨"SocketAddress", [.single 1 "protocol" (.enumeration "Protocol"), .single 2 "address" .string,
    .member "port_specifier" 3 "port_value" .uint32,
    .member "port_specifier" 4 "named_port" .string, .single 5 "resolver_name" .string,
    .single 6 "ipv4_compat" .bool, .single 7 "network_namespace_filepath" .string]⟩,
  ⟨"Pipe", [.single 1 "path" .string, .single 2 "mode" .uint32]⟩,
  ⟨"InternalAddress", [.member "specifier" 1 "server_listener_name" .string,
    .single 2 "endpoint_id" .string]⟩,
  ⟨"Address", [.member "address" 1 "socket_address" (.message "SocketAddress"),
    .member "address" 2 "pipe" (.message "Pipe"),
    .member "address" 3 "envoy_internal_address" (.message "InternalAddress")]⟩,
  .entry "TextEntry" .string .string,
  ⟨"Peer", [.nested 1 "address" "Address", .single 2 "service" .string,
    .mapOf 3 "labels" "TextEntry", .single 4 "principal" .string,
    .single 5 "certificate" .string]⟩]

/-- The messages of the HTTP request. -/
def httpTypes : List MessageType := [
  ⟨"HeaderValue", [.single 1 "key" .string, .single 2 "value" .string,
    .single 3 "raw_value" .bytes]⟩,
  ⟨"HeaderMap", [.repeated 1 "headers" (.message "HeaderValue")]⟩,
  ⟨"HttpRequest", [.single 1 "id" .string, .single 2 "method" .string,
    .mapOf 3 "headers" "TextEntry", .single 4 "path" .string, .single 5 "host" .string,
    .single 6 "scheme" .string, .single 7 "query" .string, .single 8 "fragment" .string,
    .single 9 "size" .int64, .single 10 "protocol" .string, .single 11 "body" .string,
    .single 12 "raw_body" .bytes, .nested 13 "header_map" "HeaderMap"]⟩,
  ⟨"Timestamp", [.single 1 "seconds" .int64, .single 2 "nanos" .int32]⟩,
  ⟨"Request", [.nested 1 "time" "Timestamp", .nested 2 "http" "HttpRequest"]⟩]

/-- The messages of the attributes. -/
def attributeTypes : List MessageType := [
  AnyValue.messageType,
  .entry "AnyEntry" .string (.message "Any"),
  .entry "StructEntry" .string (.message "Struct"),
  ⟨"Metadata", [.mapOf 1 "filter_metadata" "StructEntry",
    .mapOf 2 "typed_filter_metadata" "AnyEntry"]⟩,
  ⟨"TlsSession", [.single 1 "sni" .string]⟩,
  ⟨"AttributeContext", [.nested 1 "source" "Peer", .nested 2 "destination" "Peer",
    .nested 4 "request" "Request", .mapOf 10 "context_extensions" "TextEntry",
    .nested 11 "metadata_context" "Metadata", .nested 12 "tls_session" "TlsSession",
    .nested 13 "route_metadata_context" "Metadata"]⟩,
  ⟨"CheckRequest", [.nested 1 "attributes" "AttributeContext"]⟩]

/-- The schema of check requests. -/
def schema : Schema :=
  .ofMessages (Struct.types ++ peerTypes ++ httpTypes ++ attributeTypes)

end CheckRequest

/-! ## From messages -/

/-- The entries of a map of texts. -/
def textsOf (number : Nat) (m : Message) : List (String × String) :=
  (m.byName number).filterMap fun (k, v) =>
    match v with
    | .text s => some (k, s)
    | _ => none

/-- The entries of a map of messages. -/
def messagesOf (number : Nat) (m : Message) : List (String × Message) :=
  (m.byName number).filterMap fun (k, v) =>
    match v with
    | .message fields => some (k, fields)
    | _ => none

def SocketAddress.ofMessage (m : Message) : SocketAddress where
  protocol := m.int 1
  address := m.text 2
  port :=
    match m.int? 3, m.one? 4 with
    | some n, _ => some (.number n.toNat)
    | none, some (.text name) => some (.named name)
    | none, _ => none
  resolverName := m.text 5
  ipv4Compat := m.bool 6
  networkNamespace := m.text 7

def Address.ofMessage (m : Message) : Address :=
  match m.nested? 1, m.nested? 2, m.nested? 3 with
  | some s, _, _ => .socket (.ofMessage s)
  | none, some p, _ => .pipe (p.text 1) (p.int 2).toNat
  | none, none, some i =>
    .internal
      (match i.one? 1 with
      | some (.text name) => some name
      | _ => none)
      (i.text 2)
  | none, none, none => .unset

def Peer.ofMessage (m : Message) : Peer where
  address := (m.nested? 1).map .ofMessage
  service := m.text 2
  labels := textsOf 3 m
  principal := m.text 4
  certificate := m.text 5

def Timestamp.ofMessage (m : Message) : Timestamp := ⟨m.int 1, m.int 2⟩

def HeaderValue.ofMessage (m : Message) : HeaderValue := ⟨m.text 1, m.text 2, m.bytes 3⟩

def HttpRequest.ofMessage (m : Message) : HttpRequest where
  id := m.text 1
  method := m.text 2
  headers := textsOf 3 m
  path := m.text 4
  host := m.text 5
  scheme := m.text 6
  query := m.text 7
  fragment := m.text 8
  size := m.int 9
  protocol := m.text 10
  body := m.text 11
  rawBody := m.bytes 12
  headerMap := (m.nested? 13).map fun h => (h.messages 1).map .ofMessage

def TimedRequest.ofMessage (m : Message) : TimedRequest where
  time := (m.nested? 1).map .ofMessage
  http := (m.nested? 2).map .ofMessage

def Metadata.ofMessage (m : Message) : Metadata where
  filters := (messagesOf 1 m).map fun (k, v) => (k, Struct.ofMessage v)
  typed := (messagesOf 2 m).map fun (k, v) => (k, .ofMessage v)

def Attributes.ofMessage (m : Message) : Attributes where
  source := (m.nested? 1).map .ofMessage
  destination := (m.nested? 2).map .ofMessage
  request := (m.nested? 4).map .ofMessage
  contextExtensions := textsOf 10 m
  metadata := (m.nested? 11).map .ofMessage
  routeMetadata := (m.nested? 13).map .ofMessage
  tlsSession := (m.nested? 12).map fun t => ⟨t.text 1⟩

def CheckRequest.ofMessage (m : Message) : CheckRequest := ⟨(m.nested? 1).map .ofMessage⟩

/-- The request that bytes are. -/
def CheckRequest.decode? (bs : List UInt8) : Option CheckRequest :=
  (Proto.decode? schema "CheckRequest" bs).map .ofMessage

/-! ## To messages -/

/-- A map of texts as a field's content. -/
def textEntries (number : Nat) (entries : List (String × String)) : Message :=
  if entries.isEmpty then []
  else [(number, .map (entries.map fun (k, v) => (.text k, .text v)))]

/-- A map of messages as a field's content. -/
def messageEntries (number : Nat) (entries : List (String × Message)) : Message :=
  if entries.isEmpty then []
  else [(number, .map (entries.map fun (k, v) => (.text k, .message v)))]

def SocketAddress.toMessage (s : SocketAddress) : Message :=
  Message.ofInt 1 s.protocol ++ Message.ofText 2 s.address ++
    (match s.port with
    | some (.number n) => [(3, .one (.int n))]
    | some (.named name) => [(4, .one (.text name))]
    | none => []) ++
    Message.ofText 5 s.resolverName ++ Message.ofBool 6 s.ipv4Compat ++
    Message.ofText 7 s.networkNamespace

def Address.toMessage : Address → Message
  | .unset => []
  | .socket s => [(1, .one (.message s.toMessage))]
  | .pipe path mode => [(2, .one (.message (Message.ofText 1 path ++ Message.ofInt 2 mode)))]
  | .internal listener endpoint =>
    [(3, .one (.message
      ((match listener with
        | some name => [(1, .one (.text name))]
        | none => []) ++ Message.ofText 2 endpoint)))]

def Peer.toMessage (p : Peer) : Message :=
  Message.ofNested 1 (p.address.map (·.toMessage)) ++ Message.ofText 2 p.service ++
    textEntries 3 p.labels ++ Message.ofText 4 p.principal ++ Message.ofText 5 p.certificate

def Timestamp.toMessage (t : Timestamp) : Message :=
  Message.ofInt 1 t.seconds ++ Message.ofInt 2 t.nanos

def HeaderValue.toMessage (h : HeaderValue) : Message :=
  Message.ofText 1 h.key ++ Message.ofText 2 h.value ++ Message.ofBytes 3 h.raw

def HttpRequest.toMessage (h : HttpRequest) : Message :=
  Message.ofText 1 h.id ++ Message.ofText 2 h.method ++ textEntries 3 h.headers ++
    Message.ofText 4 h.path ++ Message.ofText 5 h.host ++ Message.ofText 6 h.scheme ++
    Message.ofText 7 h.query ++ Message.ofText 8 h.fragment ++ Message.ofInt 9 h.size ++
    Message.ofText 10 h.protocol ++ Message.ofText 11 h.body ++ Message.ofBytes 12 h.rawBody ++
    Message.ofNested 13 (h.headerMap.map fun hs => Message.ofMany 1 (hs.map (·.toMessage)))

def TimedRequest.toMessage (r : TimedRequest) : Message :=
  Message.ofNested 1 (r.time.map (·.toMessage)) ++ Message.ofNested 2 (r.http.map (·.toMessage))

def Metadata.toMessage (m : Metadata) : Message :=
  messageEntries 1 (m.filters.map fun (k, v) => (k, Struct.toMessage v)) ++
    messageEntries 2 (m.typed.map fun (k, v) => (k, v.toMessage))

def Attributes.toMessage (a : Attributes) : Message :=
  Message.ofNested 1 (a.source.map (·.toMessage)) ++
    Message.ofNested 2 (a.destination.map (·.toMessage)) ++
    Message.ofNested 4 (a.request.map (·.toMessage)) ++ textEntries 10 a.contextExtensions ++
    Message.ofNested 11 (a.metadata.map (·.toMessage)) ++
    Message.ofNested 12 (a.tlsSession.map fun t => Message.ofText 1 t.sni) ++
    Message.ofNested 13 (a.routeMetadata.map (·.toMessage))

def CheckRequest.toMessage (r : CheckRequest) : Message :=
  Message.ofNested 1 (r.attributes.map (·.toMessage))

/-- The bytes of a request. -/
def CheckRequest.encode (r : CheckRequest) : List UInt8 :=
  Proto.encode schema "CheckRequest" r.toMessage

end AuthGate
