import AuthGate.FileTree
import AuthGate.Server.Address
import AuthGate.Text.Digits
import AuthGate.Text.Utf8

set_option autoImplicit false

/-! # Listeners

A listener is bound to a port of the machine, to a socket in the file system or to a name in the
abstract namespace. A socket takes the place of a file that was left there, though not of a folder;
a port or a name is taken by one listener at a time. -/

namespace AuthGate

/-- What a listener is bound to. -/
inductive Endpoint where
  /-- A port of a host; port 0 is one that is free. -/
  | port (host : String) (number : Nat)
  /-- A socket in the file system, by the names along its path. -/
  | socket (path : List String)
  | abstractName (name : String)
  deriving DecidableEq, Repr

/-- Why an address cannot be bound. -/
inductive BindFault where
  | file (f : FileFault)
  | invalidPort
  | unknownHost
  | notLocal
  | inUse
  | pathTooLong
  | nameTooLong
  deriving DecidableEq, Repr

/-- The wording of a fault. -/
def BindFault.message : BindFault → String
  | .file f => f.message
  | .invalidPort => "invalid port value"
  | .unknownHost =>
    "failed to lookup address information: Temporary failure in name resolution"
  | .notLocal => "Cannot assign requested address (os error 99)"
  | .inUse => "Address already in use (os error 98)"
  | .pathTooLong => "path must be shorter than SUN_LEN"
  | .nameTooLong => "abstract socket name must be shorter than SUN_LEN"

/-- What listeners share: the files, and the endpoints that are taken. -/
structure Machine where
  files : FileTree
  taken : List Endpoint := []

namespace Machine

/-- How many bytes the path of a socket must stay below. -/
def socketPathLimit : Nat := 108

/-- Hosts that stand for every interface. -/
def anyHosts : List String := ["0.0.0.0", "[::]"]

/-- The four numbers of a host. -/
def hostNumbers? (host : String) : Option (List Nat) := do
  let parts := Text.splitAll '.' host.toList
  let numbers ← parts.mapM (Text.natInBase? 10)
  if numbers.length = 4 ∧ numbers.all (· < 256) ∧ parts.all (·.length ≤ 3) then return numbers
  else none

/-- Nothing, if a host is this machine. -/
def checkHost (host : String) : Except BindFault Unit :=
  if anyHosts.contains host || host == "[::1]" || host == "localhost" then .ok ()
  else
    match hostNumbers? host with
    | some (127 :: _) => .ok ()
    | some _ => .error .notLocal
    | none => .error .unknownHost

/-- Host and port of a text: what stands before and after its last colon. -/
def splitPort (hostPort : String) : String × List Char :=
  let back := hostPort.toList.reverse
  (String.ofList (back.dropWhile (· != ':')).tail.reverse,
    (back.takeWhile (· != ':')).reverse)

/-- Whether two endpoints cannot be taken at once. -/
def collide : Endpoint → Endpoint → Bool
  | .port h n, .port k m =>
    n == m && n != 0 && (h == k || anyHosts.contains h || anyHosts.contains k)
  | .abstractName a, .abstractName b => a == b
  | _, _ => false

/-- The machine with an endpoint taken. -/
def take (m : Machine) (e : Endpoint) : Except BindFault (Endpoint × Machine) :=
  if m.taken.any (collide e) then .error .inUse
  else .ok (e, { m with taken := e :: m.taken })

/-- The machine without an endpoint taken once. -/
def release (m : Machine) (e : Endpoint) : Machine := { m with taken := m.taken.erase e }

/-- The machine without the file at a path, where a socket is about to stand. -/
def clearPath (m : Machine) (path : String) : Except BindFault Machine :=
  match m.files.find path with
  | .ok .folder => .error (.file .isFolder)
  | .ok _ => .ok { m with files := m.files.remove (m.files.absolute path) }
  | .error .missing => .ok m
  | .error f => .error (.file f)

/-- A socket bound at a path. -/
def bindSocket (m : Machine) (path : String) : Except BindFault (Endpoint × Machine) := do
  let m ← m.clearPath path
  if socketPathLimit ≤ Text.Utf8.width path.toList then .error .pathTooLong
  else
    let at_ := m.files.absolute path
    match m.files.walk [] at_.dropLast with
    | .ok .folder => m.take (.socket at_) |>.map fun (e, m) =>
        (e, { m with files := m.files.put at_ .socket })
    | .ok _ => .error (.file .notFolder)
    | .error f => .error (.file f)

/-- A port bound. -/
def bindPort (m : Machine) (hostPort : String) : Except BindFault (Endpoint × Machine) := do
  let (host, port) := splitPort hostPort
  match Text.unsignedInBase? 10 port with
  | some n =>
    if n < 65536 then do
      checkHost host
      m.take (.port host n)
    else .error .invalidPort
  | none => .error .invalidPort

/-- An address bound: the endpoint and the machine after it. -/
def bind (m : Machine) : ListenAddress → Except BindFault (Endpoint × Machine)
  | .tcp hostPort => m.bindPort hostPort
  | .unix path => m.bindSocket path
  | .abstractSocket name =>
    if socketPathLimit ≤ Text.Utf8.width name.toList then .error .nameTooLong
    else m.take (.abstractName name)

/-- The failure to bind an address. -/
def bindFailure (a : ListenAddress) (f : BindFault) : Failure :=
  ⟨.listener, s!"unable to bind {a.render}: {f.message}"⟩

end Machine

end AuthGate
