import AuthGate.Call.Audit
import AuthGate.Call.Timers
import AuthGate.Config.Basic
import AuthGate.Decision.Shape
import AuthGate.Engine.QueryCache
import AuthGate.Input.Document
import AuthGate.Server.Latency
import AuthGate.Store.Basic

set_option autoImplicit false

/-! # The pipeline of a call

A check call goes through five steps: it is given an id, opens a transaction, is evaluated, leaves
its audit entry, and closes its transaction. Whatever goes wrong once the transaction is open is
carried to the last two steps, so that there is one entry and one end of the transaction however
the call ends. The steps of several calls may alternate.

What a call works with besides the pipeline itself, its collaborators, is a record of functions on a
state `σ`; the engine makes queries of a type `ρ`. -/

namespace AuthGate

/-- What the evaluation of a query gives. -/
structure Evaluation where
  /-- The decision, if there is one. -/
  decision : Option Json
  /-- What the engine measured. -/
  metrics : Measured := {}
  /-- Results of builtins that may differ from call to call, if they were recorded. -/
  builtinResults : Option Json := none

/-- Why a step does not go on: it failed, or it broke off and nothing of the call is finished. -/
inductive Stop where
  | failed (f : Failure)
  | crashed (cause : String)
  deriving DecidableEq, Repr

/-- What a call works with. -/
structure Collaborators (σ ρ : Type) where
  nextId : σ → Except Failure String × σ
  openTransaction : σ → Except Failure Transaction × σ
  closeTransaction : Transaction → Bool → σ → Except Failure Unit × σ
  /-- The policy input as a value of the engine. -/
  convert : Json → Except Failure Json
  prepare : EntryPoint → σ → Except Failure ρ × σ
  evaluate : ρ → Json → Transaction → σ → Except Stop Evaluation × σ
  log : AuditEntry → σ → Except Failure Unit × σ
  /-- Nanoseconds on a clock that never goes back. -/
  clock : σ → UInt64
  /-- The time of day. -/
  today : σ → Instant

/-- The moment that the clock shows. -/
def Collaborators.now {σ ρ : Type} (c : Collaborators σ ρ) (s : σ) : Nat := (c.clock s).toNat

/-- What a call is asked. The deadline is a moment on the clock. -/
structure CallInput where
  request : CheckRequest
  version : ApiVersion
  deadline : Option Nat

/-- What all calls share: the collaborators' state, the compiled query, and the latencies if they
    are observed. -/
structure Shared (σ ρ : Type) where
  world : σ
  cache : QueryCache ρ := {}
  latency : Option Latency := none

/-- What is known of a call under way. -/
structure CallContext where
  decisionId : String
  startedAt : Instant
  /-- The moment on the clock at which the call began. -/
  began : Nat
  timers : Timers
  decision : Option Json := none
  builtinResults : Option Json := none

/-- How a call ends. -/
inductive Outcome where
  | answered (r : Except Failure CheckResponse)
  | crashed (cause : String)

/-- Where a call stands. -/
inductive Phase where
  | arrived (began : Nat)
  | begun (ctx : CallContext)
  | opened (ctx : CallContext) (t : Transaction)
  | evaluated (ctx : CallContext) (t : Transaction) (input : Option Json)
      (result : Except Failure CheckResponse)
  | logged (ctx : CallContext) (t : Transaction) (result : Except Failure CheckResponse)
      (logged : Except Failure Unit)
  | done (o : Outcome)

namespace Pipeline

variable {σ ρ : Type}

/-- The fault of a timer whose total is too long. -/
def timerOverflow : Stop := .crashed "overflow when adding durations"

/-- The call is given an id. -/
def start (c : Collaborators σ ρ) (began : Nat) (s : Shared σ ρ) : Phase × Shared σ ρ :=
  let timers := ({} : Timers).start handlerTimer (c.now s.world)
  let (id, world) := c.nextId s.world
  let s := { s with world }
  match id with
  | .error f => (.done (.answered (.error f)), s)
  | .ok decisionId => (.begun { decisionId, startedAt := c.today world, began, timers }, s)

/-- The call opens a transaction. -/
def openTransaction (c : Collaborators σ ρ) (ctx : CallContext) (s : Shared σ ρ) :
    Phase × Shared σ ρ :=
  let (t, world) := c.openTransaction s.world
  let s := { s with world }
  match t with
  | .error f => (.done (.answered (.error f)), s)
  | .ok t => (.opened ctx t, s)

/-! ## Evaluation -/

/-- How far the evaluation of a call came. -/
structure Evaluated where
  ctx : CallContext
  input : Option Json
  result : Except Stop CheckResponse

/-- A failed evaluation. -/
def Evaluated.failed (ctx : CallContext) (input : Option Json) (f : Failure) : Evaluated :=
  ⟨ctx, input, .error (.failed f)⟩

/-- Whether the deadline of a call has passed. -/
def isLate (c : Collaborators σ ρ) (call : CallInput) (s : Shared σ ρ) : Bool :=
  match call.deadline with
  | some d => d ≤ c.now s.world
  | none => false

/-- The compiled query, from the cache or made for it. -/
def prepared (c : Collaborators σ ρ) (e : EntryPoint) (s : Shared σ ρ) :
    Except Failure ρ × Shared σ ρ :=
  QueryCache.getOrCompile (·.cache) (fun cache s => { s with cache })
    (fun s =>
      let (q, world) := c.prepare e s.world
      (q, { s with world })) s

/-- What the engine measured, added to the timers. -/
def recordMetrics (metrics : Measured) (t : Timers) : Option Timers :=
  metrics.entries.foldlM (fun t (name, nanos) => t.record name nanos.toNat) t

/-- The response of an evaluation. -/
def conclude (ctx : CallContext) (input : Json) (e : Evaluation) : Evaluated :=
  match recordMetrics e.metrics ctx.timers with
  | none => ⟨ctx, some input, .error timerOverflow⟩
  | some timers =>
    let ctx := { ctx with timers, builtinResults := e.builtinResults }
    match e.decision with
    | none => .failed ctx (some input) ⟨.evaluation, "undefined decision"⟩
    | some d =>
      ⟨{ ctx with decision := some d }, some input, (Decision.ofJson d).shape.mapError .failed⟩

/-- The query evaluated on an input that has been converted to `value`. -/
def runQuery (c : Collaborators σ ρ) (e : EntryPoint) (ctx : CallContext) (t : Transaction)
    (input value : Json) (s : Shared σ ρ) : Evaluated × Shared σ ρ :=
  let (q, s) := prepared c e s
  match q with
  | .error f => (.failed ctx (some input) f, s)
  | .ok q =>
    let (r, world) := c.evaluate q value t s.world
    let s := { s with world }
    match r with
    | .error stop => (⟨ctx, some input, .error stop⟩, s)
    | .ok e => (conclude ctx input e, s)

/-- The input built, converted and decided on, unless the deadline has passed. -/
def decide (conf : Config.Resolved) (c : Collaborators σ ρ) (call : CallInput) (ctx : CallContext)
    (t : Transaction) (s : Shared σ ρ) : Evaluated × Shared σ ρ :=
  if isLate c call s then (.failed ctx none ⟨.timeout, "context deadline exceeded"⟩, s)
  else
    let ctx := { ctx with timers := ctx.timers.start inputTimer (c.now s.world) }
    let options : Input.Options := ⟨conf.schema, conf.config.skipBodyParse⟩
    match Input.ofRequest options call.version call.request with
    | .error f => (.failed ctx none f, s)
    | .ok input =>
      match c.convert input with
      | .error f => (.failed ctx (some input) f, s)
      | .ok value =>
        match ctx.timers.stop inputTimer (c.now s.world) with
        | none => (⟨ctx, some input, .error timerOverflow⟩, s)
        | some (_, timers) => runQuery c conf.entryPoint { ctx with timers } t input value s

/-- The call is evaluated; in a dry run it lets the request pass whatever was decided. -/
def evaluate (conf : Config.Resolved) (c : Collaborators σ ρ) (call : CallInput)
    (ctx : CallContext) (t : Transaction) (s : Shared σ ρ) : Phase × Shared σ ρ :=
  let (e, s) := decide conf c call ctx t s
  match e.result with
  | .error (.crashed cause) => (.done (.crashed cause), s)
  | .error (.failed f) => (.evaluated e.ctx t e.input (.error f), s)
  | .ok r => (.evaluated e.ctx t e.input (.ok (if conf.config.dryRun then r.dryRun else r)), s)

/-! ## The end of a call -/

/-- A text, unless it is empty. -/
def nonempty (s : String) : Option String := if s.isEmpty then none else some s

/-- The error of a result. -/
def errorOf {α : Type} : Except Failure α → Option Failure
  | .ok _ => none
  | .error f => some f

/-- The audit entry of a call. -/
def entry (conf : Config.Resolved) (ctx : CallContext) (t : Transaction) (input : Option Json)
    (result : Except Failure CheckResponse) (metrics : List (String × Nat)) : AuditEntry where
  decisionId := ctx.decisionId
  timestamp := ctx.startedAt
  path := nonempty conf.config.path
  query := nonempty conf.config.query
  input
  result := ctx.decision
  error := (errorOf result).map (·.text)
  transaction := some t.id
  metrics
  builtinResults := ctx.builtinResults

/-- The call leaves its audit entry. -/
def log (conf : Config.Resolved) (c : Collaborators σ ρ) (ctx : CallContext) (t : Transaction)
    (input : Option Json) (result : Except Failure CheckResponse) (s : Shared σ ρ) :
    Phase × Shared σ ρ :=
  match ctx.timers.stopAll (c.now s.world) with
  | none => (.done (.crashed "overflow when adding durations"), s)
  | some timers =>
    let (r, world) := c.log (entry conf ctx t input result timers.all) s.world
    (.logged { ctx with timers } t result r, { s with world })

/-- Whether the transaction of a call with this result is aborted. -/
def aborts (result : Except Failure CheckResponse) : Bool :=
  match errorOf result with
  | some f => f.aborts
  | none => false

/-- A response whose entry could not be logged says so in its status. -/
def override (logged : Except Failure Unit) (r : CheckResponse) : CheckResponse :=
  match errorOf logged with
  | some f => { r with status := some (.of .unknown f.text) }
  | none => r

/-- The call closes its transaction, and its latency is observed. A transaction that cannot be
    closed does not change the response. -/
def finish (c : Collaborators σ ρ) (ctx : CallContext) (t : Transaction)
    (result : Except Failure CheckResponse) (logged : Except Failure Unit) (s : Shared σ ρ) :
    Phase × Shared σ ρ :=
  let (_, world) := c.closeTransaction t (aborts result) s.world
  let latency := s.latency.map (·.observe (c.now world - ctx.began))
  (.done (.answered (result.map (override logged))), { s with world, latency })

/-! ## Calls -/

/-- The next step of a call. -/
def step (conf : Config.Resolved) (c : Collaborators σ ρ) (call : CallInput) (p : Phase)
    (s : Shared σ ρ) : Phase × Shared σ ρ :=
  match p with
  | .arrived began => start c began s
  | .begun ctx => openTransaction c ctx s
  | .opened ctx t => evaluate conf c call ctx t s
  | .evaluated ctx t input result => log conf c ctx t input result s
  | .logged ctx t result logged => finish c ctx t result logged s
  | .done o => (.done o, s)

/-- So many steps of a call without any of another between them. -/
def steps (conf : Config.Resolved) (c : Collaborators σ ρ) (call : CallInput) :
    Nat → Phase → Shared σ ρ → Phase × Shared σ ρ
  | 0, p, s => (p, s)
  | n + 1, p, s =>
    let (p, s) := step conf c call p s
    steps conf c call n p s

/-- The outcome of a phase; a call that is not done has none of its own. -/
def Phase.outcome : Phase → Outcome
  | .done o => o
  | _ => .crashed "the call is not done"

/-- A whole call. Five steps end it. -/
def check (conf : Config.Resolved) (c : Collaborators σ ρ) (call : CallInput) (s : Shared σ ρ) :
    Outcome × Shared σ ρ :=
  let (p, s) := steps conf c call 5 (.arrived (c.now s.world)) s
  (Phase.outcome p, s)

end Pipeline

end AuthGate
