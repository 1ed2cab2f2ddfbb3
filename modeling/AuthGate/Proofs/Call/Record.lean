import AuthGate.Call.Pipeline

set_option autoImplicit false

/-! # The record of a call

What a call asks of its collaborators, written down by the collaborators themselves. A call does not
notice that a record is kept: the main statement, `step_recorded`, says that its steps do the same
with and without, and what each of them adds to the record. -/

namespace AuthGate

/-- What a call asked that concerns others, and the answer. -/
inductive CallEvent where
  | identified (r : Except Failure String)
  | opened (r : Except Failure Transaction)
  | logged (e : AuditEntry) (r : Except Failure Unit)
  | closed (t : Transaction) (abort : Bool) (r : Except Failure Unit)

/-- The entry that was sent to the logger. -/
@[simp] def CallEvent.entry : CallEvent → Option AuditEntry
  | .logged e _ => some e
  | .identified _ | .opened _ | .closed .. => none

variable {σ τ ρ : Type}

/-- The collaborators with a record beside their state. -/
def Collaborators.recorded (c : Collaborators σ ρ) : Collaborators (σ × List CallEvent) ρ where
  nextId w :=
    let (r, world) := c.nextId w.1
    (r, world, w.2 ++ [.identified r])
  openTransaction w :=
    let (r, world) := c.openTransaction w.1
    (r, world, w.2 ++ [.opened r])
  closeTransaction t abort w :=
    let (r, world) := c.closeTransaction t abort w.1
    (r, world, w.2 ++ [.closed t abort r])
  convert := c.convert
  prepare e w :=
    let (r, world) := c.prepare e w.1
    (r, world, w.2)
  evaluate q v t w :=
    let (r, world) := c.evaluate q v t w.1
    (r, world, w.2)
  log e w :=
    let (r, world) := c.log e w.1
    (r, world, w.2 ++ [.logged e r])
  clock w := c.clock w.1
  today w := c.today w.1

/-- A shared state whose world is looked at in another way. -/
def Shared.map (f : σ → τ) (s : Shared σ ρ) : Shared τ ρ := ⟨f s.world, s.cache, s.latency⟩

/-- A shared state with a record. -/
def Shared.noting (s : Shared σ ρ) (record : List CallEvent) : Shared (σ × List CallEvent) ρ :=
  s.map fun w => (w, record)

namespace Pipeline

variable {conf : Config.Resolved} {c : Collaborators σ ρ} {call : CallInput} {s : Shared σ ρ}
  {record : List CallEvent}

/-- What a step adds to the record of a call. -/
def eventsOf (conf : Config.Resolved) (c : Collaborators σ ρ) (p : Phase) (s : Shared σ ρ) :
    List CallEvent :=
  match p with
  | .arrived _ => [.identified (c.nextId s.world).1]
  | .begun _ => [.opened (c.openTransaction s.world).1]
  | .evaluated ctx t input result =>
    match ctx.timers.stopAll (c.now s.world) with
    | none => []
    | some timers =>
      let e := entry conf ctx t input result timers.all
      [.logged e (c.log e s.world).1]
  | .logged _ t result _ =>
    [.closed t (aborts result) (c.closeTransaction t (aborts result) s.world).1]
  | .opened .. | .done _ => []

theorem prepared_recorded (e : EntryPoint) :
    prepared c.recorded e (s.noting record) =
      ((prepared c e s).1, (prepared c e s).2.noting record) := by
  cases h : s.cache.slot s.cache.epoch <;>
    simp only [prepared, QueryCache.getOrCompile, Shared.noting, Shared.map,
      Collaborators.recorded, h]

theorem decide_recorded (ctx : CallContext) (t : Transaction) :
    decide conf c.recorded call ctx t (s.noting record) =
      ((decide conf c call ctx t s).1, (decide conf c call ctx t s).2.noting record) := by
  have hlate : isLate c.recorded call (s.noting record) = isLate c call s := rfl
  have hnow : c.recorded.now (s.noting record).world = c.now s.world := rfl
  have hconvert : c.recorded.convert = c.convert := rfl
  simp only [decide, hlate, hnow, hconvert, runQuery, prepared_recorded]
  split
  · rfl
  split
  · rfl
  split
  · rfl
  split
  · rfl
  rcases prepared c conf.entryPoint s with ⟨f | q, s'⟩
  · rfl
  · simp only [Collaborators.recorded, Shared.noting, Shared.map]
    split <;> rfl

/-- A step does the same whether a record is kept or not. -/
theorem step_recorded (p : Phase) :
    step conf c.recorded call p (s.noting record) =
      ((step conf c call p s).1,
        (step conf c call p s).2.noting (record ++ eventsOf conf c p s)) := by
  cases p with
  | arrived began =>
    simp only [step, start, Collaborators.recorded, Shared.noting, Shared.map, eventsOf]
    split <;> rfl
  | begun ctx =>
    simp only [step, openTransaction, Collaborators.recorded, Shared.noting, Shared.map, eventsOf]
    split <;> rfl
  | opened ctx t =>
    simp only [step, evaluate, decide_recorded, eventsOf, List.append_nil]
    split <;> rfl
  | evaluated ctx t input result =>
    have hnow : c.recorded.now (s.noting record).world = c.now s.world := rfl
    cases hstop : ctx.timers.stopAll (c.now s.world) with
    | none => simp only [step, log, hnow, hstop, eventsOf, List.append_nil]
    | some timers =>
      simp only [step, log, hnow, hstop, eventsOf]
      rfl
  | logged ctx t result logged => rfl
  | done o => simp only [step, eventsOf, List.append_nil]

/-- What so many steps add to the record of a call. -/
def eventsOfSteps (conf : Config.Resolved) (c : Collaborators σ ρ) (call : CallInput) :
    Nat → Phase → Shared σ ρ → List CallEvent
  | 0, _, _ => []
  | n + 1, p, s =>
    let (p', s') := step conf c call p s
    eventsOf conf c p s ++ eventsOfSteps conf c call n p' s'

/-- Any number of steps do the same whether a record is kept or not. -/
theorem steps_recorded (n : Nat) (p : Phase) :
    steps conf c.recorded call n p (s.noting record) =
      ((steps conf c call n p s).1,
        (steps conf c call n p s).2.noting (record ++ eventsOfSteps conf c call n p s)) := by
  induction n generalizing p s record with
  | zero => simp only [steps, eventsOfSteps, List.append_nil]
  | succ n ih => simp only [steps, step_recorded, ih, eventsOfSteps, List.append_assoc]

/-- The record of a whole call. -/
def recordOf (conf : Config.Resolved) (c : Collaborators σ ρ) (call : CallInput) (s : Shared σ ρ) :
    List CallEvent := (check conf c.recorded call (s.noting [])).2.world.2

theorem recordOf_eq : recordOf conf c call s =
    eventsOfSteps conf c call 5 (.arrived (c.now s.world)) s := by
  have hnow : c.recorded.now (s.noting []).world = c.now s.world := rfl
  simp only [recordOf, check, hnow, steps_recorded, List.nil_append]
  rfl

end Pipeline

end AuthGate
