import AuthGate.Proto.Descriptor
import AuthGate.Proto.Writer

set_option autoImplicit false

/-! # Reflection

A server with reflection says which services it has: the authorization service in both versions of
the protocol, each described in a file of its own by the names of its messages and methods alone. -/

namespace AuthGate.Reflection

open Proto

/-- A file that describes services. The names in it are short, those of a method's messages full and
    after a dot. -/
structure File where
  name : String
  package : String
  messages : List String
  services : List Service
  form : String
  deriving Repr

/-- The file of one version of the protocol. -/
def file (version : String) : File :=
  let package := "envoy.service.auth." ++ version
  { name := s!"envoy/service/auth/{version}/external_auth.proto"
    package
    messages := ["CheckRequest", "CheckResponse"]
    services := [⟨"Authorization",
      [⟨"Check", s!".{package}.CheckRequest", s!".{package}.CheckResponse"⟩]⟩]
    form := "proto3" }

/-- The files of both versions. -/
def files : List File := [file "v2", file "v3"]

/-- The full names of a file's services. -/
def File.serviceNames (f : File) : List String := f.services.map fun s => f.package ++ "." ++ s.name

/-- The full names of all services. -/
def serviceNames : List String := files.flatMap File.serviceNames

/-- A text that is set, empty or not. -/
def setText (number : Nat) (s : String) : Message := [(number, .one (.text s))]

def methodMessage (m : Method) : Message :=
  setText 1 m.name ++ setText 2 m.input ++ setText 3 m.output

def serviceMessage (s : Service) : Message :=
  setText 1 s.name ++ Message.ofMany 2 (s.methods.map methodMessage)

def File.toMessage (f : File) : Message :=
  setText 1 f.name ++ setText 2 f.package ++ Message.ofMany 4 (f.messages.map (setText 1)) ++
    Message.ofMany 6 (f.services.map serviceMessage) ++ setText 12 f.form

/-- The descriptor set of the files. -/
def descriptorSet : List UInt8 :=
  encode DescriptorSet.schema "Set" (Message.ofMany 1 (files.map File.toMessage))

/-- Whether the files can be served: each of them describes what is known by its name. -/
def isServable : Bool :=
  match Schema.ofDescriptorSet descriptorSet with
  | .ok s => serviceNames.all fun name => (s.service? name).isSome
  | .error _ => false

end AuthGate.Reflection
