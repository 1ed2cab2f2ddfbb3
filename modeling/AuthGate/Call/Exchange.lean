import AuthGate.Call.Service
import AuthGate.Request.Wire
import AuthGate.Response.LegacyWire
import AuthGate.Response.Wire

set_option autoImplicit false

/-! # Calls in bytes

A call as it comes over a connection: the bytes of a request are answered by the bytes of a response.
Neither may have more bytes than is configured; the size of a request is looked at before anything
else. -/

namespace AuthGate.Exchange

variable {σ ρ : Type}

/-- The status of a message that is too large. -/
def tooLarge (verb : String) (size limit : Nat) : CallStatus :=
  ⟨.outOfRange, s!"Error, {verb} message length too large: found {size} bytes, " ++
    s!"the limit is: {limit} bytes"⟩

/-- Nothing, if a message is not too large. -/
def checkSize (verb : String) (limit : Nat) (bs : List UInt8) : Except CallStatus Unit :=
  if bs.length ≤ limit then .ok () else .error (tooLarge verb bs.length limit)

/-- The request that bytes are. -/
def receive (limit : Nat) (bs : List UInt8) : Except CallStatus CheckRequest := do
  checkSize "decoded" limit bs
  match CheckRequest.decode? bs with
  | some r => return r
  | none => .error ⟨.internal, "the bytes are no check request"⟩

/-- The bytes of a response. -/
def send (limit : Nat) (bs : List UInt8) : Except CallStatus (List UInt8) := do
  checkSize "encoded" limit bs
  return bs

/-- A call of some version, `check` answering requests with what `encode` makes bytes of. -/
def call {α : Type} (conf : Config.Resolved) (check : CheckRequest → Shared σ ρ →
    Except CallStatus α × Shared σ ρ) (encode : α → List UInt8) (bs : List UInt8)
    (s : Shared σ ρ) : Except CallStatus (List UInt8) × Shared σ ρ :=
  match receive conf.config.maxReceive bs with
  | .error status => (.error status, s)
  | .ok r =>
    let (o, s) := check r s
    (o.bind fun a => send conf.config.maxSend (encode a), s)

/-- A call of version 3. -/
def callV3 (conf : Config.Resolved) (c : Collaborators σ ρ) (task : String)
    (timeout : Option (List UInt8)) (bs : List UInt8) (s : Shared σ ρ) :
    Except CallStatus (List UInt8) × Shared σ ρ :=
  call conf (Service.checkV3 conf c task timeout) CheckResponse.encode bs s

/-- A call of version 2. -/
def callV2 (conf : Config.Resolved) (c : Collaborators σ ρ) (task : String)
    (timeout : Option (List UInt8)) (bs : List UInt8) (s : Shared σ ρ) :
    Except CallStatus (List UInt8) × Shared σ ρ :=
  call conf (Service.checkV2 conf c task timeout) Legacy.CheckResponse.encode bs s

end AuthGate.Exchange
