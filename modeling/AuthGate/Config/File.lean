import AuthGate.Config.Basic
import AuthGate.Yaml.Scalar

set_option autoImplicit false

/-! # Configuration files

A configuration file is YAML: a mapping from the names of settings to scalars. A setting that is
not given keeps its default; one that is unknown or given twice is an error, and so is a scalar of
the wrong kind. An empty file gives the defaults. -/

namespace AuthGate

namespace Config

open Yaml

/-- What a scalar gives as text: its text, whatever it could stand for. -/
def text? : Node → Option String
  | .scalar _ text => some text
  | _ => none

/-- What a scalar gives as a truth value: one without quotes that stands for one. -/
def bool? : Node → Option Bool
  | .scalar true text => Plain.bool? text.toList
  | _ => none

/-- What a scalar gives as a size: one without quotes that is a whole number of 64 bits without a
    minus. -/
def size? : Node → Option Nat
  | .scalar true text => (Plain.unsigned? text.toList).filter Text.fitsWord64
  | _ => none

/-- The settings with one more of them given. -/
def set? (name : String) (value : Node) (c : Config) : Option Config :=
  match name with
  | "addr" => (text? value).map fun v => { c with addr := v }
  | "query" => (text? value).map fun v => { c with query := v }
  | "path" => (text? value).map fun v => { c with path := v }
  | "dry-run" => (bool? value).map fun v => { c with dryRun := v }
  | "enable-reflection" => (bool? value).map fun v => { c with enableReflection := v }
  | "proto-descriptor" => (text? value).map fun v => { c with protoDescriptor := v }
  | "grpc-max-recv-msg-size" => (size? value).map fun v => { c with maxReceive := v }
  | "grpc-max-send-msg-size" => (size? value).map fun v => { c with maxSend := v }
  | "skip-request-body-parse" => (bool? value).map fun v => { c with skipBodyParse := v }
  | "enable-performance-metrics" => (bool? value).map fun v => { c with enableMetrics := v }
  | _ => none

/-- The settings of a mapping's entries; `seen` are the names that have been given. -/
def ofEntries : List String → Config → List (Node × Node) → Option Config
  | _, c, [] => some c
  | seen, c, (key, value) :: rest => do
    let name ← text? key
    if seen.contains name then none
    else
      let c ← c.set? name value
      ofEntries (name :: seen) c rest

/-- The settings of a file's document. -/
def ofDocument? : Option Node → Option Config
  | none => some {}
  | some (.scalar true "") => some {}
  | some (.mapping entries) => ofEntries [] {} entries
  | some _ => none

/-- A byte that is an ASCII blank; a vertical tab is none. -/
def isBlankByte (b : UInt8) : Bool := b == 32 || b == 9 || b == 10 || b == 12 || b == 13

/-- The settings of a file. -/
def ofBytes (bs : List UInt8) : Except Failure Config :=
  if bs.all isBlankByte then .ok {}
  else
    match (document? bs).bind ofDocument? with
    | some c => .ok c
    | none => .error ⟨.config, "malformed configuration: the file holds no known settings"⟩

/-- The resolved settings of a file. -/
def load (read : FileReader) (bs : List UInt8) : Except Failure Resolved := do
  (← ofBytes bs).resolve read

end Config

end AuthGate
