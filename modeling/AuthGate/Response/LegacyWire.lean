import AuthGate.Proto.Writer
import AuthGate.Response.Legacy

set_option autoImplicit false

/-! # Older check responses on the wire

The messages that responses of version 2 travel in. Whether a header is appended is a message of its
own, so that false differs from not said. -/

namespace AuthGate.Legacy

open Proto

/-- The schema of responses. -/
def schema : Schema := .ofMessages [
  AnyValue.messageType,
  ⟨"Status", [.single 1 "code" .int32, .single 2 "message" .string,
    .repeated 3 "details" (.message "Any")]⟩,
  ⟨"HttpStatus", [.single 1 "code" (.enumeration "StatusCode")]⟩,
  ⟨"HeaderValue", [.single 1 "key" .string, .single 2 "value" .string]⟩,
  ⟨"BoolValue", [.single 1 "value" .bool]⟩,
  ⟨"HeaderValueOption", [.nested 1 "header" "HeaderValue", .nested 2 "append" "BoolValue"]⟩,
  ⟨"DeniedHttpResponse", [.nested 1 "status" "HttpStatus",
    .repeated 2 "headers" (.message "HeaderValueOption"), .single 3 "body" .string]⟩,
  ⟨"OkHttpResponse", [.repeated 2 "headers" (.message "HeaderValueOption")]⟩,
  ⟨"CheckResponse", [.nested 1 "status" "Status",
    .member "http_response" 2 "denied_response" (.message "DeniedHttpResponse"),
    .member "http_response" 3 "ok_response" (.message "OkHttpResponse")]⟩]

/-! ## To messages -/

def statusMessage (s : RpcStatus) : Message :=
  Message.ofInt 1 s.code ++ Message.ofText 2 s.message ++
    Message.ofMany 3 (s.details.map (·.toMessage))

def HeaderOption.toMessage (o : HeaderOption) : Message :=
  Message.ofNested 1 (o.header.map fun h => Message.ofText 1 h.key ++ Message.ofText 2 h.value) ++
    Message.ofNested 2 (o.append.map fun b => Message.ofBool 1 b)

def HttpBranch.toMessage : HttpBranch → Message
  | .denied status headers body =>
    [(2, .one (.message (Message.ofNested 1 (status.map fun c => Message.ofInt 1 c) ++
      Message.ofMany 2 (headers.map (·.toMessage)) ++ Message.ofText 3 body)))]
  | .ok headers => [(3, .one (.message (Message.ofMany 2 (headers.map (·.toMessage)))))]

def CheckResponse.toMessage (r : CheckResponse) : Message :=
  Message.ofNested 1 (r.status.map statusMessage) ++
    (match r.http with
    | some b => b.toMessage
    | none => [])

/-- The bytes of a response. -/
def CheckResponse.encode (r : CheckResponse) : List UInt8 :=
  Proto.encode schema "CheckResponse" r.toMessage

/-! ## From messages -/

def statusOf (m : Message) : RpcStatus := ⟨m.int 1, m.text 2, (m.messages 3).map .ofMessage⟩

def HeaderOption.ofMessage (m : Message) : HeaderOption where
  header := (m.nested? 1).map fun h => ⟨h.text 1, h.text 2⟩
  append := (m.nested? 2).map fun b => b.bool 1

def HttpBranch.ofMessage? (m : Message) : Option HttpBranch :=
  match m.nested? 2, m.nested? 3 with
  | some d, _ =>
    some (.denied ((d.nested? 1).map (·.int 1)) ((d.messages 2).map .ofMessage) (d.text 3))
  | none, some o => some (.ok ((o.messages 2).map .ofMessage))
  | none, none => none

def CheckResponse.ofMessage (m : Message) : CheckResponse :=
  ⟨(m.nested? 1).map statusOf, HttpBranch.ofMessage? m⟩

/-- The response that bytes are. -/
def CheckResponse.decode? (bs : List UInt8) : Option CheckResponse :=
  (Proto.decode? schema "CheckResponse" bs).map .ofMessage

end AuthGate.Legacy
