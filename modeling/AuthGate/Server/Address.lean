import AuthGate.Failure
import AuthGate.Text.Blank
import AuthGate.Text.Quoted

set_option autoImplicit false

/-! # Listener addresses

Where the server listens: a TCP port, a socket in the file system, or one in the abstract
namespace. -/

namespace AuthGate

/-- An address to listen on. -/
inductive ListenAddress where
  /-- Host and port. -/
  | tcp (hostPort : String)
  /-- The path of a socket. -/
  | unix (path : String)
  /-- The name of a socket in the abstract namespace. -/
  | abstractSocket (name : String)
  deriving DecidableEq, Repr

namespace ListenAddress

/-- What sets a scheme apart. -/
def schemeMark : List Char := "://".toList

def tcpScheme : List Char := "grpc://".toList

def unixScheme : List Char := "unix://".toList

/-- The TCP address of host and port; no host is every interface. -/
def ofHostPort (hostPort : List Char) : Except Failure ListenAddress :=
  if hostPort.contains ':' then
    .ok (.tcp (String.ofList
      (if hostPort.head? = some ':' then "0.0.0.0".toList ++ hostPort else hostPort)))
  else
    .error ⟨.listener, s!"missing port in address {Text.quoted (String.ofList hostPort)}"⟩

/-- The address of a socket, after its scheme. -/
def ofSocket : List Char → Except Failure ListenAddress
  | [] => .error ⟨.listener, "empty unix socket path"⟩
  | ['@'] => .error ⟨.listener, "empty abstract socket name"⟩
  | '@' :: name => .ok (.abstractSocket (String.ofList name))
  | path => .ok (.unix (String.ofList path))

/-- The address of a text; without a scheme it is host and port. -/
def parse (text : String) : Except Failure ListenAddress :=
  let cs := text.toList
  let cs := if Text.occursIn schemeMark cs then cs else tcpScheme ++ cs
  match Text.dropStart? tcpScheme cs, Text.dropStart? unixScheme cs with
  | some hostPort, _ => ofHostPort hostPort
  | none, some rest => ofSocket rest
  | none, none =>
    .error ⟨.listener, s!"invalid url scheme in address {Text.quoted (String.ofList cs)}"⟩

/-- The text of an address. -/
def render : ListenAddress → String
  | .tcp hostPort => String.ofList (tcpScheme ++ hostPort.toList)
  | .unix path => String.ofList (unixScheme ++ path.toList)
  | .abstractSocket name => String.ofList (unixScheme ++ '@' :: name.toList)

end ListenAddress

end AuthGate
