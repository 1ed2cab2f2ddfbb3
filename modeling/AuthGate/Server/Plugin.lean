import AuthGate.Call.Exchange
import AuthGate.Engine.Query
import AuthGate.Log.Event
import AuthGate.Server.Lifecycle
import AuthGate.Server.Listener

set_option autoImplicit false

/-! # The plugin

The plugin answers check calls over a store of policies and serves them at the configured address.
It keeps the compiled query until the modules change. -/

namespace AuthGate

/-- A plugin with the interpreter of its policies and the machine that it runs on. -/
structure Plugin (σ ε : Type) where
  conf : Config.Resolved
  interpreter : Interpreter ε
  shared : Shared (World σ) (CompiledQuery ε)
  life : Lifecycle := {}
  machine : Machine
  /-- The endpoints of the tasks that serve. -/
  endpoints : List (Nat × Endpoint) := []

namespace Plugin

variable {σ ε : Type}

/-- The trigger by which the plugin is told of a change of modules. -/
def resetTrigger : String := "reset compiled query"

/-- A plugin over a store. Latencies are observed if the configuration says so. -/
def ofStore (conf : Config.Resolved) (interpreter : Interpreter ε) (machine : Machine)
    (store : Store) (outside : σ) : Plugin σ ε where
  conf
  interpreter
  shared := {
    world := ⟨store.register resetTrigger, outside⟩
    latency := if conf.config.enableMetrics then some {} else none }
  machine

/-- The store. -/
def store (p : Plugin σ ε) : Store := p.shared.world.store

/-- The plugin after its store has changed and has fired triggers. -/
def withStore (p : Plugin σ ε) (change : Store.Fired) : Plugin σ ε :=
  let (store, fired) := change
  let cache :=
    if fired.any (·.trigger == resetTrigger) then p.shared.cache.invalidate else p.shared.cache
  { p with shared := { p.shared with world := { p.shared.world with store }, cache } }

/-- The plugin with one module set. -/
def upsert (p : Plugin σ ε) (id source : String) : Plugin σ ε :=
  p.withStore (p.store.upsert id source)

/-- The plugin without a module, and whether it was there. -/
def remove (p : Plugin σ ε) (id : String) : Bool × Plugin σ ε :=
  let (found, change) := p.store.remove id
  (found, p.withStore change)

/-- The plugin with other modules. -/
def replace (p : Plugin σ ε) (modules : Policy.Modules) : Plugin σ ε :=
  p.withStore (p.store.replace modules)

/-- The plugin with other data. -/
def setData (p : Plugin σ ε) (data : Json) : Plugin σ ε := p.withStore (p.store.setData data, [])

/-! ## Serving -/

/-- The target of events in the life of a server. -/
def lifeTarget : String := "extauthz::lifecycle"

/-- The event of a start at an address. -/
def startEvent (conf : Config.Resolved) (a : ListenAddress) : LogEvent :=
  ⟨.info, lifeTarget, "Starting gRPC server.", [("addr", .string a.render),
    ("query", .string conf.config.query), ("path", .string conf.config.path),
    ("dry_run", .bool conf.config.dryRun),
    ("enable_reflection", .bool conf.config.enableReflection)]⟩

/-- The event of an address that could not be bound. -/
def bindEvent (f : Failure) : LogEvent :=
  ⟨.error, lifeTarget, "Unable to create listener.", [("error", .string f.text)]⟩

/-- The event of a task's exit. -/
def exitEvent : LogEvent := ⟨.info, lifeTarget, "Listener exited.", []⟩

/-- A start: the endpoint or why there is none, the plugin after it, and what was logged. -/
def start (p : Plugin σ ε) : Except Failure Endpoint × Plugin σ ε × List LogEvent :=
  let failed : Plugin σ ε := { p with life := p.life.step .failed }
  match ListenAddress.parse p.conf.config.addr with
  | .error f => (.error f, failed, [])
  | .ok a =>
    match p.machine.bind a with
    | .error fault =>
      let f := Machine.bindFailure a fault
      (.error f, failed, [startEvent p.conf a, bindEvent f])
    | .ok (endpoint, machine) =>
      (.ok endpoint,
        { p with
          machine
          life := p.life.step .started
          endpoints := p.endpoints ++ [(p.life.nextTask, endpoint)] },
        [startEvent p.conf a])

/-- The plugin after the exit of a task, and what was logged. -/
def exit (p : Plugin σ ε) (task : Nat) : Plugin σ ε × List LogEvent :=
  match p.endpoints.find? (·.1 == task) with
  | none => (p, [])
  | some (_, endpoint) =>
    ({ p with
        life := p.life.step (.exited task)
        machine := p.machine.release endpoint
        endpoints := p.endpoints.filter (·.1 != task) }, [exitEvent])

/-- The plugin told to stop; its tasks are about to exit. -/
def stop (p : Plugin σ ε) : Plugin σ ε := { p with life := p.life.step .stopped }

/-- The plugin stopped and all its tasks exited, first the one that began first: which tasks those
    were, the plugin after it, and what was logged. -/
def shutDown (p : Plugin σ ε) : List Nat × Plugin σ ε × List LogEvent :=
  let stopped := p.stop
  let tasks := stopped.life.serving
  let (p, events) := tasks.foldl (fun (p, events) task =>
    let (p, more) := p.exit task
    (p, events ++ more)) (stopped, [])
  (tasks, p, events)

/-! ## Calls -/

/-- A call as the pipeline answers it. -/
def check (c : Surroundings σ) (call : CallInput) (p : Plugin σ ε) : Outcome × Plugin σ ε :=
  let (o, shared) := Pipeline.check p.conf (c.collaborators p.interpreter) call p.shared
  (o, { p with shared })

/-- A call of version 3. -/
def checkV3 (c : Surroundings σ) (task : String) (timeout : Option (List UInt8))
    (r : CheckRequest) (p : Plugin σ ε) : Except CallStatus CheckResponse × Plugin σ ε :=
  let (o, shared) := Service.checkV3 p.conf (c.collaborators p.interpreter) task timeout r p.shared
  (o, { p with shared })

/-- A call of version 2. -/
def checkV2 (c : Surroundings σ) (task : String) (timeout : Option (List UInt8))
    (r : CheckRequest) (p : Plugin σ ε) : Except CallStatus Legacy.CheckResponse × Plugin σ ε :=
  let (o, shared) := Service.checkV2 p.conf (c.collaborators p.interpreter) task timeout r p.shared
  (o, { p with shared })

/-- A call of version 3 in bytes. -/
def callV3 (c : Surroundings σ) (task : String) (timeout : Option (List UInt8))
    (bs : List UInt8) (p : Plugin σ ε) : Except CallStatus (List UInt8) × Plugin σ ε :=
  let (o, shared) := Exchange.callV3 p.conf (c.collaborators p.interpreter) task timeout bs p.shared
  (o, { p with shared })

/-- A call of version 2 in bytes. -/
def callV2 (c : Surroundings σ) (task : String) (timeout : Option (List UInt8))
    (bs : List UInt8) (p : Plugin σ ε) : Except CallStatus (List UInt8) × Plugin σ ε :=
  let (o, shared) := Exchange.callV2 p.conf (c.collaborators p.interpreter) task timeout bs p.shared
  (o, { p with shared })

end Plugin

end AuthGate
