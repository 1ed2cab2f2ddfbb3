import AuthGate.Response.Basic
import AuthGate.Response.StatusCode

set_option autoImplicit false

/-! # Check responses of the older protocol

Version 2 of the protocol has no headers to remove, no response headers and no metadata; a header
is a key and a value and is never appended. -/

namespace AuthGate.Legacy

/-- A header. -/
structure HeaderValue where
  key : String
  value : String
  deriving DecidableEq, Repr

/-- A header to set. -/
structure HeaderOption where
  header : Option HeaderValue
  append : Option Bool
  deriving DecidableEq, Repr

/-- The part of a response about HTTP. -/
inductive HttpBranch where
  | ok (headers : List HeaderOption)
  | denied (status : Option Int) (headers : List HeaderOption) (body : String)
  deriving DecidableEq, Repr

/-- The answer to the proxy. -/
structure CheckResponse where
  status : Option RpcStatus
  http : Option HttpBranch
  deriving DecidableEq, Repr

/-- A header as version 2 can carry it. -/
def HeaderOption.ofCurrent (o : AuthGate.HeaderOption) : HeaderOption :=
  let h := o.header.getD ⟨"", "", []⟩
  ⟨some ⟨h.key, h.value⟩, none⟩

/-- A status code as version 2 knows it, zero if it does not. -/
def statusCode (code : Int) : Int := if HttpStatus.isCode code then code else 0

/-- The part about HTTP as version 2 can carry it. -/
def HttpBranch.ofCurrent : AuthGate.HttpBranch → HttpBranch
  | .ok r => .ok (r.headers.map .ofCurrent)
  | .denied r => .denied (r.status.map statusCode) (r.headers.map .ofCurrent) r.body

/-- A response as version 2 can carry it. -/
def CheckResponse.ofCurrent (r : AuthGate.CheckResponse) : CheckResponse :=
  ⟨r.status, r.http.map .ofCurrent⟩

end AuthGate.Legacy
