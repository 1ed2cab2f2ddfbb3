import AuthGate.Call.Pipeline
import AuthGate.Response.Legacy
import AuthGate.Server.Timeout

set_option autoImplicit false

/-! # The services

Calls of either version of the protocol go through the same pipeline. A failure becomes the status
of the call; version 2 is given the response as far as it can carry it. -/

namespace AuthGate.Service

variable {σ ρ : Type}

/-- The deadline of a call that arrives at a moment with this header. -/
def deadline (now : Nat) (header : Option (List UInt8)) : Option Nat :=
  (header.bind Timeout.ofHeader?).map (now + ·)

/-- The status of a call that broke off; `task` names what ran it. -/
def crashStatus (task cause : String) : CallStatus :=
  ⟨.internal, s!"check task failed: task {task} panicked with message {Text.quoted cause}"⟩

/-- The answer to the caller. -/
def answer (task : String) : Outcome → Except CallStatus CheckResponse
  | .answered (.ok r) => .ok r
  | .answered (.error f) => .error f.status
  | .crashed cause => .error (crashStatus task cause)

/-- A call of some version. -/
def decide (conf : Config.Resolved) (c : Collaborators σ ρ) (task : String) (version : ApiVersion)
    (timeout : Option (List UInt8)) (r : CheckRequest) (s : Shared σ ρ) :
    Except CallStatus CheckResponse × Shared σ ρ :=
  let (o, s) := Pipeline.check conf c ⟨r, version, deadline (c.now s.world) timeout⟩ s
  (answer task o, s)

/-- A call of version 3. -/
def checkV3 (conf : Config.Resolved) (c : Collaborators σ ρ) (task : String)
    (timeout : Option (List UInt8)) (r : CheckRequest) (s : Shared σ ρ) :
    Except CallStatus CheckResponse × Shared σ ρ :=
  decide conf c task .v3 timeout r s

/-- A call of version 2. -/
def checkV2 (conf : Config.Resolved) (c : Collaborators σ ρ) (task : String)
    (timeout : Option (List UInt8)) (r : CheckRequest) (s : Shared σ ρ) :
    Except CallStatus Legacy.CheckResponse × Shared σ ρ :=
  let (r, s) := decide conf c task .v2 timeout r s
  (r.map .ofCurrent, s)

end AuthGate.Service
