import AuthGate.Proto.Writer
import AuthGate.Request.Wire
import AuthGate.Response.Basic

set_option autoImplicit false

/-! # Check responses on the wire

The messages that responses travel in. Whether a header is appended is a message of its own, so that
false differs from not said. -/

namespace AuthGate

open Proto

/-- The schema of responses. -/
def CheckResponse.schema : Schema := .ofMessages (AnyValue.messageType :: Struct.types ++ [
  ⟨"Status", [.single 1 "code" .int32, .single 2 "message" .string,
    .repeated 3 "details" (.message "Any")]⟩,
  ⟨"HttpStatus", [.single 1 "code" (.enumeration "StatusCode")]⟩,
  ⟨"HeaderValue", [.single 1 "key" .string, .single 2 "value" .string,
    .single 3 "raw_value" .bytes]⟩,
  ⟨"BoolValue", [.single 1 "value" .bool]⟩,
  ⟨"HeaderValueOption", [.nested 1 "header" "HeaderValue", .nested 2 "append" "BoolValue"]⟩,
  ⟨"DeniedHttpResponse", [.nested 1 "status" "HttpStatus",
    .repeated 2 "headers" (.message "HeaderValueOption"), .single 3 "body" .string]⟩,
  ⟨"OkHttpResponse", [.repeated 2 "headers" (.message "HeaderValueOption"),
    .repeated 5 "headers_to_remove" .string,
    .repeated 6 "response_headers_to_add" (.message "HeaderValueOption")]⟩,
  ⟨"CheckResponse", [.nested 1 "status" "Status",
    .member "http_response" 2 "denied_response" (.message "DeniedHttpResponse"),
    .member "http_response" 3 "ok_response" (.message "OkHttpResponse"),
    .nested 4 "dynamic_metadata" "Struct"]⟩])

def RpcStatus.toMessage (s : RpcStatus) : Message :=
  Message.ofInt 1 s.code ++ Message.ofText 2 s.message ++
    Message.ofMany 3 (s.details.map (·.toMessage))

def HeaderOption.toMessage (o : HeaderOption) : Message :=
  Message.ofNested 1 (o.header.map (·.toMessage)) ++
    Message.ofNested 2 (o.append.map fun b => Message.ofBool 1 b)

/-- The messages of headers. -/
def headerMessages (number : Nat) (os : List HeaderOption) : Message :=
  Message.ofMany number (os.map (·.toMessage))

/-- A field of texts. -/
def textsMessage (number : Nat) (ss : List String) : Message :=
  if ss.isEmpty then [] else [(number, .many (ss.map .text))]

def OkResponse.toMessage (r : OkResponse) : Message :=
  headerMessages 2 r.headers ++ textsMessage 5 r.headersToRemove ++
    headerMessages 6 r.responseHeadersToAdd

def DeniedResponse.toMessage (r : DeniedResponse) : Message :=
  Message.ofNested 1 (r.status.map fun c => Message.ofInt 1 c) ++ headerMessages 2 r.headers ++
    Message.ofText 3 r.body

def HttpBranch.toMessage : HttpBranch → Message
  | .denied r => Message.ofNested 2 (some r.toMessage)
  | .ok r => Message.ofNested 3 (some r.toMessage)

def CheckResponse.toMessage (r : CheckResponse) : Message :=
  Message.ofNested 1 (r.status.map (·.toMessage)) ++
    (match r.http with
    | some b => b.toMessage
    | none => []) ++
    Message.ofNested 4 (r.dynamicMetadata.map (·.toMessage))

/-- The bytes of a response. -/
def CheckResponse.encode (r : CheckResponse) : List UInt8 :=
  Proto.encode schema "CheckResponse" r.toMessage

end AuthGate
