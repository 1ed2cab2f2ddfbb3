import AuthGate.Failure
import AuthGate.Request.Basic

set_option autoImplicit false

/-! # Check responses

The answer to the proxy: a status that lets the request pass or not, what is to be changed about the
request or sent to the client instead, and metadata for other filters. -/

namespace AuthGate

/-- A header to set; `append` says whether it is added to values that are there. -/
structure HeaderOption where
  header : Option HeaderValue
  append : Option Bool
  deriving DecidableEq, Repr

/-- The outcome of a call: a status code, a message and details. -/
structure RpcStatus where
  code : Int
  message : String
  details : List AnyValue
  deriving DecidableEq, Repr

/-- What is changed about a request that may pass. -/
structure OkResponse where
  headers : List HeaderOption := []
  headersToRemove : List String := []
  responseHeadersToAdd : List HeaderOption := []
  deriving DecidableEq, Repr

/-- What is sent to the client of a request that may not pass. -/
structure DeniedResponse where
  /-- The HTTP status code, if there is an HTTP status at all. -/
  status : Option Int
  headers : List HeaderOption
  body : String
  deriving DecidableEq, Repr

/-- The part of a response about HTTP. -/
inductive HttpBranch where
  | ok (r : OkResponse)
  | denied (r : DeniedResponse)
  deriving DecidableEq, Repr

/-- The answer to the proxy. -/
structure CheckResponse where
  status : Option RpcStatus
  http : Option HttpBranch
  dynamicMetadata : Option Struct

/-- The status of a code without details. -/
def RpcStatus.of (code : StatusCode) (message : String) : RpcStatus := ⟨code.toInt, message, []⟩

namespace CheckResponse

/-- Whether the request may pass. -/
def isOk (r : CheckResponse) : Bool :=
  match r.status with
  | some s => s.code == StatusCode.ok.toInt
  | none => false

/-- The response of a dry run: one that would not let the request pass does so, and changes
    nothing about it. -/
def dryRun (r : CheckResponse) : CheckResponse :=
  if r.isOk then r
  else { r with status := some (.of .ok ""), http := some (.ok {}) }

@[simp] theorem isOk_dryRun (r : CheckResponse) : r.dryRun.isOk = true := by
  simp only [dryRun]
  split
  · assumption
  · rfl

end CheckResponse

end AuthGate
