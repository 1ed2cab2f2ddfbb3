import AuthGate.Proofs.Call.Record
import AuthGate.Proofs.Call.Stages

set_option autoImplicit false

/-! # What a call asks of the engine

The engine writes down what it is asked for and what it answers, as the other collaborators do in
the record of a call. A call does not notice that either (`step_watched`). The main statement is
`engineRecordOf_of_opened`: all of it is asked while the call is evaluated. -/

namespace AuthGate

/-- What a call asked the engine, and the answer. -/
inductive EngineEvent (ρ : Type) where
  | prepared (e : EntryPoint) (r : Except Failure ρ)
  | evaluated (q : ρ) (value : Json) (t : Transaction) (r : Except Stop Evaluation)

variable {σ ρ : Type}

namespace EngineEvent

/-- The evaluation that the engine gave. -/
@[simp] def evaluation? : EngineEvent ρ → Option Evaluation
  | evaluated _ _ _ r => r.toOption
  | prepared .. => none

/-- What the engine broke off with. -/
@[simp] def crash? : EngineEvent ρ → Option String
  | evaluated _ _ _ (.error (.crashed cause)) => some cause
  | prepared .. | evaluated .. => none

end EngineEvent

/-- The collaborators with a record of the engine beside their state. -/
def Collaborators.watched (c : Collaborators σ ρ) : Collaborators (σ × List (EngineEvent ρ)) ρ where
  nextId w :=
    let (r, world) := c.nextId w.1
    (r, world, w.2)
  openTransaction w :=
    let (r, world) := c.openTransaction w.1
    (r, world, w.2)
  closeTransaction t abort w :=
    let (r, world) := c.closeTransaction t abort w.1
    (r, world, w.2)
  convert := c.convert
  prepare e w :=
    let (r, world) := c.prepare e w.1
    (r, world, w.2 ++ [.prepared e r])
  evaluate q v t w :=
    let (r, world) := c.evaluate q v t w.1
    (r, world, w.2 ++ [.evaluated q v t r])
  log e w :=
    let (r, world) := c.log e w.1
    (r, world, w.2)
  clock w := c.clock w.1
  today w := c.today w.1

/-- A shared state with a record of the engine. -/
def Shared.watching (s : Shared σ ρ) (events : List (EngineEvent ρ)) :
    Shared (σ × List (EngineEvent ρ)) ρ := s.map fun w => (w, events)

namespace Pipeline

variable {conf : Config.Resolved} {c : Collaborators σ ρ} {call : CallInput} {s : Shared σ ρ}
  {events : List (EngineEvent ρ)}

/-! ## The evaluation -/

/-- What is asked for the compiled query, which is nothing if there is one. -/
def preparationEvents (c : Collaborators σ ρ) (e : EntryPoint) (s : Shared σ ρ) :
    List (EngineEvent ρ) :=
  match s.cache.slot s.cache.epoch with
  | .ready _ => []
  | .empty | .compiling => [.prepared e (c.prepare e s.world).1]

/-- What is asked to evaluate the query on a value. -/
def queryEvents (c : Collaborators σ ρ) (e : EntryPoint) (t : Transaction) (value : Json)
    (s : Shared σ ρ) : List (EngineEvent ρ) :=
  preparationEvents c e s ++
    match prepared c e s with
    | (.error _, _) => []
    | (.ok q, s') => [.evaluated q value t (c.evaluate q value t s'.world).1]

/-- What is asked during the evaluation of a call. -/
def evaluationEvents (conf : Config.Resolved) (c : Collaborators σ ρ) (call : CallInput)
    (ctx : CallContext) (t : Transaction) (s : Shared σ ρ) : List (EngineEvent ρ) :=
  if isLate c call s then []
  else
    match Input.ofRequest (inputOptions conf) call.version call.request with
    | .error _ => []
    | .ok input =>
      match c.convert input with
      | .error _ => []
      | .ok value =>
        match (ctx.timers.start inputTimer (c.now s.world)).stop inputTimer (c.now s.world) with
        | none => []
        | some _ => queryEvents c conf.entryPoint t value s

theorem prepared_watched (e : EntryPoint) :
    prepared c.watched e (s.watching events) =
      ((prepared c e s).1,
        (prepared c e s).2.watching (events ++ preparationEvents c e s)) := by
  cases h : s.cache.slot s.cache.epoch <;>
    simp only [prepared, QueryCache.getOrCompile, Shared.watching, Shared.map,
      Collaborators.watched, preparationEvents, h, List.append_nil]

theorem runQuery_watched (e : EntryPoint) (ctx : CallContext) (t : Transaction)
    (input value : Json) :
    runQuery c.watched e ctx t input value (s.watching events) =
      ((runQuery c e ctx t input value s).1,
        (runQuery c e ctx t input value s).2.watching (events ++ queryEvents c e t value s)) := by
  simp only [runQuery, prepared_watched, queryEvents]
  rcases prepared c e s with ⟨f | q, s'⟩
  · simp only [List.append_nil]
  · simp only [Collaborators.watched, Shared.watching, Shared.map, List.append_assoc]
    split <;> rfl

theorem decide_watched (ctx : CallContext) (t : Transaction) :
    decide conf c.watched call ctx t (s.watching events) =
      ((decide conf c call ctx t s).1,
        (decide conf c call ctx t s).2.watching
          (events ++ evaluationEvents conf c call ctx t s)) := by
  have hlate : isLate c.watched call (s.watching events) = isLate c call s := rfl
  have hnow : c.watched.now (s.watching events).world = c.now s.world := rfl
  have hconvert : c.watched.convert = c.convert := rfl
  simp only [decide, evaluationEvents, inputOptions, hlate, hnow, hconvert]
  split
  · simp only [List.append_nil]
  rcases Input.ofRequest ⟨conf.schema, conf.config.skipBodyParse⟩ call.version call.request
    with f | input
  · simp only [List.append_nil]
  dsimp only
  rcases c.convert input with f | value
  · simp only [List.append_nil]
  dsimp only
  rcases (ctx.timers.start inputTimer (c.now s.world)).stop inputTimer (c.now s.world)
    with _ | ⟨r, timers⟩
  · simp only [List.append_nil]
  · exact runQuery_watched ..

/-! ## The whole call -/

/-- What a step asks of the engine. -/
def engineEventsOf (conf : Config.Resolved) (c : Collaborators σ ρ) (call : CallInput) (p : Phase)
    (s : Shared σ ρ) : List (EngineEvent ρ) :=
  match p with
  | .opened ctx t => evaluationEvents conf c call ctx t s
  | .arrived _ | .begun _ | .evaluated .. | .logged .. | .done _ => []

/-- A step does the same whether the engine keeps a record or not. -/
theorem step_watched (p : Phase) :
    step conf c.watched call p (s.watching events) =
      ((step conf c call p s).1,
        (step conf c call p s).2.watching (events ++ engineEventsOf conf c call p s)) := by
  cases p with
  | arrived began =>
    simp only [step, start, Collaborators.watched, Shared.watching, Shared.map, engineEventsOf,
      List.append_nil]
    split <;> rfl
  | begun ctx =>
    simp only [step, openTransaction, Collaborators.watched, Shared.watching, Shared.map,
      engineEventsOf, List.append_nil]
    split <;> rfl
  | opened ctx t =>
    simp only [step, evaluate, decide_watched, engineEventsOf]
    split <;> rfl
  | evaluated ctx t input result =>
    have hnow : c.watched.now (s.watching events).world = c.now s.world := rfl
    simp only [step, log, hnow, engineEventsOf, List.append_nil]
    split <;> rfl
  | logged ctx t result logged =>
    simp only [engineEventsOf, List.append_nil]
    rfl
  | done o => simp only [step, engineEventsOf, List.append_nil]

/-- What a whole call asked of the engine. -/
def engineRecordOf (conf : Config.Resolved) (c : Collaborators σ ρ) (call : CallInput)
    (s : Shared σ ρ) : List (EngineEvent ρ) :=
  (check conf c.watched call (s.watching [])).2.world.2

/-- Whether the evaluation of a call is over. -/
def isOver : Phase → Bool
  | .evaluated .. | .logged .. | .done _ => true
  | .arrived _ | .begun _ | .opened .. => false

theorem isOver_evaluate (ctx : CallContext) (t : Transaction) :
    isOver (evaluate conf c call ctx t s).1 = true := by
  simp only [evaluate]
  split <;> rfl

theorem isOver_step {p : Phase} (h : isOver p = true) : isOver (step conf c call p s).1 = true := by
  cases p with
  | arrived | begun | opened => cases h
  | evaluated ctx t input result =>
    simp only [step, log]
    split <;> rfl
  | logged | done => rfl

theorem engineEventsOf_of_isOver {p : Phase} (h : isOver p = true) :
    engineEventsOf conf c call p s = [] := by
  cases p with
  | arrived | begun | opened => cases h
  | evaluated | logged | done => rfl

/-- What a call that has opened a transaction asks of the engine is asked during its evaluation. -/
theorem engineRecordOf_of_opened {id : String} {t : Transaction} {w₁ w₂ : σ}
    (hid : c.nextId s.world = (.ok id, w₁)) (hopened : c.openTransaction w₁ = (.ok t, w₂)) :
    engineRecordOf conf c call s =
      evaluationEvents conf c call (newContext c (c.now s.world) s id w₁) t
        { s with world := w₂ } := by
  have hnow : c.watched.now (s.watching []).world = c.now s.world := rfl
  have hover : isOver (step conf c call (.opened (newContext c (c.now s.world) s id w₁) t)
      { s with world := w₂ }).1 = true := isOver_evaluate _ t
  simp only [engineRecordOf, check, steps, hnow, step_watched, step_arrived_of_identified hid,
    step_begun_of_opened hopened, engineEventsOf_of_isOver hover,
    engineEventsOf_of_isOver (isOver_step hover), List.append_nil]
  rfl

end Pipeline

end AuthGate
