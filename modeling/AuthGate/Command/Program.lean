import AuthGate.Command.Options
import AuthGate.Config.File
import AuthGate.Log.Filter
import AuthGate.Policy.Watch
import AuthGate.Rego.Session
import AuthGate.Server.Plugin

set_option autoImplicit false

/-! # The program

The program reads its configuration, its data and its policy, binds the address of the diagnostics
and starts to serve; then it runs until it is interrupted. Whatever goes wrong before that ends it.
All that it does on the way is told to the log. -/

namespace AuthGate.Program

/-- A part of a run: it logs events, and it may end the run with the text of what went wrong. -/
abbrev Run (α : Type) := ExceptT String (StateM (List LogEvent)) α

/-- An event logged. -/
def log (e : LogEvent) : Run Unit := modify (· ++ [e])

/-- A result whose failure ends the run. -/
def orFail {α : Type} (r : Except Failure α) : Run α :=
  match r with
  | .ok a => pure a
  | .error f => throw f.text

/-- The target of the program's own events. -/
def target : String := "extauthz"

/-- The target of a part of the program. -/
def targetOf (part : String) : String := target ++ "::" ++ part

/-! ## Reading -/

/-- The bytes of the configuration; without a file there are none. -/
def readConfig (files : FileTree) : Option String → Run (List UInt8)
  | none => return []
  | some path =>
    match files.read path with
    | .ok bytes => return bytes
    | .error fault => throw s!"failed to read config {path}: {fault.message}"

/-- The configuration. -/
def loadConfig (files : FileTree) (path : Option String) : Run Config.Resolved := do
  let bytes ← readConfig files path
  let conf ← orFail (Config.load (fun p => (files.read p).mapError (·.message)) bytes)
  log ⟨.debug, targetOf "config", "Resolved plugin configuration",
    [("entry_point", .string conf.entryPoint.render)]⟩
  return conf

/-- A store with the data of a file. -/
def loadData (files : FileTree) : Option String → Run Store
  | none => return {}
  | some path => do
    let data ← orFail (Policy.loadData files path)
    log ⟨.debug, targetOf "store", "Data document replaced", []⟩
    return ({} : Store).setData data

/-- A store with the modules of a folder. -/
def loadPolicy (files : FileTree) (folder : String) (store : Store) : Run Store := do
  let modules ← orFail (Policy.load files folder)
  if modules.isEmpty then
    log ⟨.warn, target, "No policy modules found", [("dir", .string folder)]⟩
  log ⟨.info, targetOf "store", "Policy modules replaced", [("modules", .ofNat modules.length)]⟩
  return (store.replace modules).1

/-! ## Starting -/

/-- The machine with the address of the diagnostics bound. -/
def bindDiagnostics (m : Machine) (a : HostPort) : Run Machine :=
  match m.bindPort a.render with
  | .ok (_, m) => return m
  | .error fault => do
    log ⟨.error, targetOf "diagnostics", "Failed to bind diagnostic address",
      [("addr", .string a.render), ("error", .string fault.message)]⟩
    orFail (.error ⟨.listener,
      s!"unable to bind diagnostic address {a.render}: {fault.message}"⟩)

/-- A watch of the policy, if it is asked for. -/
def startWatch (files : FileTree) (o : Options) (store : Store) : Run (Option Policy.Watch) := do
  if o.watch then
    let w ← orFail (Policy.Watch.start files o.policy store)
    log ⟨.info, targetOf "watcher", "Watching for policy changes", [("dir", .string o.policy)]⟩
    return some w
  else return none

/-- A program that serves. -/
structure Serving where
  plugin : Plugin Unit Rego.Session
  watch : Option Policy.Watch

/-- The program started. -/
def start (o : Options) (m : Machine) : Run Serving := do
  let conf ← loadConfig m.files o.config
  let store ← loadData m.files o.data
  let store ← loadPolicy m.files o.policy store
  let m ← bindDiagnostics m o.diagnosticAddress
  let watch ← startWatch m.files o store
  let (started, plugin, events) := (Plugin.ofStore conf Rego.interpreter m store ()).start
  modify (· ++ events)
  let _ ← orFail started
  return { plugin, watch }

/-- What is logged when the program is interrupted and ends. -/
def interrupt (s : Serving) : List LogEvent :=
  let (_, _, events) := s.plugin.shutDown
  ⟨.info, target, "Shutting down", []⟩ :: events

/-! ## The whole of a run -/

/-- What a program is started with. -/
structure Setting where
  arguments : List String
  environment : List (String × String)
  machine : Machine

/-- How a run goes: its log, what it writes besides, and how it ends. The run of a program that
    serves has not ended. -/
structure Report where
  events : List LogEvent := []
  out : List String := []
  err : List String := []
  exit : Nat := 0
  serving : Option Serving := none

/-- The line that says the version. -/
def versionLine : String := "extauthz 0.1.0"

/-- The lines of help. -/
def helpLines : List String :=
  ["Envoy ext_authz decision service evaluating Rego policies", "",
    "Usage: extauthz [OPTIONS] --policy <POLICY>"]

/-- The variable that sets the filter of the log. -/
def filterVariable : String := "RUST_LOG"

/-- The filter of the log in an environment. -/
def filterOf (environment : List (String × String)) : LogFilter :=
  .ofSetting (Fields.get? filterVariable environment)

/-- The lines of a failed run. -/
def errorLines (text : String) : List String :=
  (Text.splitAll '\n' ("Error: " ++ text).toList).map String.ofList

/-- A run of the program. -/
def execute (s : Setting) : Report :=
  match Command.ofArguments (Fields.get? · s.environment) s.arguments with
  | .error fault => { err := [fault.message], exit := 2 }
  | .ok .version => { out := [versionLine] }
  | .ok .help => { out := helpLines }
  | .ok (.run o) =>
    let (r, events) := (start o s.machine).run.run []
    let events := events.filter (filterOf s.environment).admits
    match r with
    | .ok serving => { events, serving := some serving }
    | .error text => { events, err := errorLines text, exit := 1 }

/-- A run that is interrupted once the program serves. -/
def executeAndInterrupt (s : Setting) : Report :=
  let r := execute s
  match r.serving with
  | some serving =>
    { r with
      events := r.events ++ (interrupt serving).filter (filterOf s.environment).admits
      serving := none }
  | none => r

end AuthGate.Program
