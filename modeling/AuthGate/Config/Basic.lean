import AuthGate.EntryPoint.Parser
import AuthGate.Proto.Descriptor

set_option autoImplicit false

/-! # Configuration

What the operator decides. The entry point is given as a path or as a query, never as both; it is
resolved once, when the configuration is. -/

namespace AuthGate

/-- The settings as the operator writes them. -/
structure Config where
  /-- The address to listen on. -/
  addr : String := ":9191"
  /-- The query of the entry point; a path is preferred. -/
  query : String := ""
  /-- The path of the entry point. -/
  path : String := ""
  /-- Decide and log, but let every request pass. -/
  dryRun : Bool := false
  /-- Offer the reflection service. -/
  enableReflection : Bool := false
  /-- The file of a descriptor set that gRPC bodies are decoded with, empty for none. -/
  protoDescriptor : String := ""
  /-- The most bytes that a received message may have. -/
  maxReceive : Nat := 4194304
  /-- The most bytes that a sent message may have. -/
  maxSend : Nat := 2147483647
  /-- Leave request bodies alone. -/
  skipBodyParse : Bool := false
  /-- Observe how long each call takes. -/
  enableMetrics : Bool := false
  deriving DecidableEq, Repr

namespace Config

/-- The path of the entry point when neither a path nor a query is given. -/
def defaultPath : String := "envoy/authz/allow"

/-- Settings whose entry point is known. -/
structure Resolved where
  config : Config
  entryPoint : EntryPoint
  /-- The types of gRPC messages, if a descriptor set is configured. -/
  schema : Option Proto.Schema

/-- The settings with their entry point, before any file is read. -/
def resolveEntryPoint (c : Config) : Except Failure (Config × EntryPoint) := do
  if !c.path.isEmpty && !c.query.isEmpty then
    .error ⟨.config, "specify a value for only the \"path\" field"⟩
  else if !c.query.isEmpty then
    return (c, ← EntryPoint.parse c.query)
  else
    let c := if c.path.isEmpty then { c with path := defaultPath } else c
    return (c, ← EntryPoint.parse (EntryPoint.ofPath c.path).render)

/-- A file as it is read: its bytes, or why it cannot be read. -/
abbrev FileReader := String → Except String (List UInt8)

/-- The schema of a file's descriptor set. -/
def loadSchema (read : FileReader) (file : String) : Except Failure Proto.Schema :=
  match read file with
  | .error cause => .error ⟨.config, s!"failed to read proto descriptor {file}: {cause}"⟩
  | .ok bytes =>
    match Proto.Schema.ofDescriptorSet bytes with
    | .ok s => .ok s
    | .error fault =>
      .error ⟨.config, s!"failed to parse proto descriptor {file}: {fault.message}"⟩

/-- The settings with all that they refer to. -/
def resolve (read : FileReader) (c : Config) : Except Failure Resolved := do
  let (c, entryPoint) ← c.resolveEntryPoint
  if c.protoDescriptor.isEmpty then return ⟨c, entryPoint, none⟩
  else
    let schema ← loadSchema read c.protoDescriptor
    return ⟨c, entryPoint, some schema⟩

end Config

end AuthGate
