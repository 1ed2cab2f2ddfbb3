import AuthGate.Engine.Query
import AuthGate.Proofs.Call.Stages
import AuthGate.Proofs.Store.Ledger

set_option autoImplicit false

/-! # Calls side by side

Any number of calls over one shared state, their steps in any order. Each call runs with a record of
its own. What a step does to the call's record and to the store's books is `Flight.step_moves`; what
holds of all calls after any steps is `Traffic.Sound`, and `Traffic.run_sound` is the induction. -/

namespace AuthGate

variable {σ ρ : Type}

/-- A call among others. -/
structure Flight where
  input : CallInput
  phase : Phase
  /-- What it asked of the collaborators. -/
  record : List CallEvent := []
  /-- How often its latency was observed. -/
  observed : Nat := 0

/-- The number of observations, if latencies are observed. -/
def Latency.count (l : Option Latency) : Nat := (l.map (·.observations.length)).getD 0

theorem Latency.count_observe (l : Option Latency) (elapsed : Nat) :
    count (l.map (·.observe elapsed)) - count l = l.isSome.toNat := by
  cases l with
  | none => rfl
  | some l => simp [count, observe]

/-- A step of a call. -/
def Flight.step (conf : Config.Resolved) (c : Collaborators σ ρ) (f : Flight) (s : Shared σ ρ) :
    Flight × Shared σ ρ :=
  let (phase, after) := Pipeline.step conf c.recorded f.input f.phase (s.noting f.record)
  let observed := f.observed + (Latency.count after.latency - Latency.count s.latency)
  ({ f with phase, record := after.world.2, observed }, after.map (·.1))

/-- Calls over one shared state, in the order in which they arrived. -/
structure Traffic (σ ρ : Type) where
  shared : Shared σ ρ
  flights : List Flight := []

namespace Traffic

/-- What may happen next: a call arrives, or the call of a number takes a step. -/
inductive Action where
  | arrive (input : CallInput)
  | proceed (n : Nat)

/-- The calls after an action. -/
def step (conf : Config.Resolved) (c : Collaborators σ ρ) (t : Traffic σ ρ) :
    Action → Traffic σ ρ
  | .arrive input =>
    { t with flights := t.flights ++ [{ input, phase := .arrived (c.now t.shared.world) }] }
  | .proceed n =>
    match t.flights[n]? with
    | none => t
    | some f =>
      let (f, shared) := f.step conf c t.shared
      { shared, flights := t.flights.set n f }

/-- The calls after some actions. -/
def run (conf : Config.Resolved) (c : Collaborators σ ρ) (t : Traffic σ ρ)
    (actions : List Action) : Traffic σ ρ := actions.foldl (step conf c) t

end Traffic

/-! ## Transactions of one store -/

/-- Transactions begin and end in a store, and nothing else touches its books. A transaction may
    fail to begin. -/
structure Collaborators.OverStore (c : Collaborators σ ρ) (store : σ → Store) : Prop where
  nextId (w : σ) : (store (c.nextId w).2).ledger = (store w).ledger
  begin (w : σ) :
    (∃ f w', c.openTransaction w = (.error f, w') ∧ (store w').ledger = (store w).ledger) ∨
      ∃ w', c.openTransaction w = (.ok (store w).begin.1, w') ∧
        (store w').ledger = (store w).begin.2.ledger
  close (t : Transaction) (abort : Bool) (w : σ) (s : Store) :
    (store w).close t abort = .ok s → ∃ w', c.closeTransaction t abort w = (.ok (), w') ∧
      (store w').ledger = s.ledger
  prepare (e : EntryPoint) (w : σ) : (store (c.prepare e w).2).ledger = (store w).ledger
  evaluate (q : ρ) (v : Json) (t : Transaction) (w : σ) :
    (store (c.evaluate q v t w).2).ledger = (store w).ledger
  log (e : AuditEntry) (w : σ) : (store (c.log e w).2).ledger = (store w).ledger

/-- The collaborators of a plugin are over its store. -/
theorem Surroundings.overStore {ε : Type} (c : Surroundings σ) (i : Interpreter ε) :
    (c.collaborators i).OverStore World.store where
  nextId _ := rfl
  begin _ := .inr ⟨_, rfl, rfl⟩
  close t abort w s h := ⟨{ w with store := s }, by simp only [collaborators, h], rfl⟩
  prepare _ _ := rfl
  evaluate _ _ _ _ := rfl
  log _ _ := rfl

namespace Pipeline

variable {c : Collaborators σ ρ} {store : σ → Store}

/-- Neither the books nor the latencies have changed. -/
structure Keeps (store : σ → Store) (s s' : Shared σ ρ) : Prop where
  ledger : (store s'.world).ledger = (store s.world).ledger
  latency : s'.latency = s.latency

theorem prepared_keeps (hc : c.OverStore store) (e : EntryPoint) (s : Shared σ ρ) :
    Keeps store s (prepared c e s).2 := by
  have hprepare := hc.prepare e s.world
  simp only [prepared, QueryCache.getOrCompile]
  split
  · exact ⟨rfl, rfl⟩
  · exact ⟨hprepare, rfl⟩

theorem runQuery_keeps (hc : c.OverStore store) (e : EntryPoint) (ctx : CallContext)
    (t : Transaction) (input value : Json) (s : Shared σ ρ) :
    Keeps store s (runQuery c e ctx t input value s).2 := by
  have hprepared := prepared_keeps hc e s
  simp only [runQuery]
  rcases hq : prepared c e s with ⟨f | q, s'⟩ <;> rw [hq] at hprepared
  · exact hprepared
  · have hevaluate := hc.evaluate q value t s'.world
    dsimp only
    split <;> exact ⟨hevaluate.trans hprepared.ledger, hprepared.latency⟩

theorem decide_keeps (conf : Config.Resolved) (call : CallInput) (hc : c.OverStore store)
    (ctx : CallContext) (t : Transaction) (s : Shared σ ρ) :
    Keeps store s (decide conf c call ctx t s).2 := by
  rcases decide_snd_cases conf c call ctx t s with hsame | ⟨ctx', input, value, hran⟩
  · rw [hsame]
    exact ⟨rfl, rfl⟩
  · rw [hran]
    exact runQuery_keeps hc _ ctx' t input value s

/-- The evaluation of a call ends it or leads to its last two steps. -/
theorem evaluate_keeps (conf : Config.Resolved) (call : CallInput) (hc : c.OverStore store)
    (ctx : CallContext) (t : Transaction) (s : Shared σ ρ) :
    Keeps store s (evaluate conf c call ctx t s).2 ∧
      ((∃ cause, (evaluate conf c call ctx t s).1 = .done (.crashed cause)) ∨
        ∃ ctx' input result,
          (evaluate conf c call ctx t s).1 = .evaluated ctx' t input result) := by
  have hkeeps := decide_keeps conf call hc ctx t s
  simp only [evaluate]
  split
  · exact ⟨hkeeps, .inl ⟨_, rfl⟩⟩
  · exact ⟨hkeeps, .inr ⟨_, _, _, rfl⟩⟩
  · exact ⟨hkeeps, .inr ⟨_, _, _, rfl⟩⟩

end Pipeline

/-! ## One call -/

/-- What a call has asked when it stands at a phase, and how often its latency was observed. -/
inductive Stage (metrics : Bool) : Phase → List CallEvent → Nat → Prop
  | arrived {began : Nat} : Stage metrics (.arrived began) [] 0
  | unidentified {f : Failure} :
    Stage metrics (.done (.answered (.error f))) [.identified (.error f)] 0
  | begun {ctx : CallContext} {id : String} :
    Stage metrics (.begun ctx) [.identified (.ok id)] 0
  | unopened {id : String} {f : Failure} :
    Stage metrics (.done (.answered (.error f))) [.identified (.ok id), .opened (.error f)] 0
  | opened {ctx : CallContext} {id : String} {t : Transaction} :
    Stage metrics (.opened ctx t) [.identified (.ok id), .opened (.ok t)] 0
  | crashed {id : String} {t : Transaction} {cause : String} :
    Stage metrics (.done (.crashed cause)) [.identified (.ok id), .opened (.ok t)] 0
  | evaluated {ctx : CallContext} {id : String} {t : Transaction} {input : Option Json}
      {result : Except Failure CheckResponse} :
    Stage metrics (.evaluated ctx t input result) [.identified (.ok id), .opened (.ok t)] 0
  | logged {ctx : CallContext} {id : String} {t : Transaction} {e : AuditEntry}
      {result : Except Failure CheckResponse} {logged : Except Failure Unit}
      (names : e.transaction = some t.id) :
    Stage metrics (.logged ctx t result logged)
      [.identified (.ok id), .opened (.ok t), .logged e logged] 0
  | closed {id : String} {t : Transaction} {e : AuditEntry}
      {result : Except Failure CheckResponse} {logged : Except Failure Unit}
      (names : e.transaction = some t.id) :
    Stage metrics (.done (.answered (result.map (Pipeline.override logged))))
      [.identified (.ok id), .opened (.ok t), .logged e logged,
        .closed t (Pipeline.aborts result) (.ok ())] metrics.toNat

variable {conf : Config.Resolved} {c : Collaborators σ ρ} {store : σ → Store}

/-- A step of a call is a step of the pipeline, and the record tells what it asked. -/
theorem Flight.step_eq (f : Flight) (s : Shared σ ρ) :
    f.step conf c s =
      let (phase, after) := Pipeline.step conf c f.input f.phase s
      ({ f with
          phase
          record := f.record ++ Pipeline.eventsOf conf c f.phase s
          observed := f.observed + (Latency.count after.latency - Latency.count s.latency) },
        after) := by
  simp only [step, Pipeline.step_recorded]
  rfl

/-- A call that no other interrupts takes the steps of the pipeline. -/
theorem Traffic.run_replicate_proceed (conf : Config.Resolved) (c : Collaborators σ ρ) (n : Nat)
    (f : Flight) (s : Shared σ ρ) :
    ∃ record observed, run conf c ⟨s, [f]⟩ (List.replicate n (.proceed 0)) =
      ⟨(Pipeline.steps conf c f.input n f.phase s).2,
        [{ f with phase := (Pipeline.steps conf c f.input n f.phase s).1, record, observed }]⟩ := by
  induction n generalizing f s with
  | zero => exact ⟨f.record, f.observed, rfl⟩
  | succ n ih =>
    obtain ⟨record, observed, hrest⟩ := ih (f.step conf c s).1 (f.step conf c s).2
    refine ⟨record, observed, ?_⟩
    have hfirst : run conf c ⟨s, [f]⟩ (List.replicate (n + 1) (.proceed 0)) =
        run conf c ⟨(f.step conf c s).2, [(f.step conf c s).1]⟩ (List.replicate n (.proceed 0)) :=
      rfl
    rw [hfirst, hrest, Flight.step_eq, Pipeline.steps_succ]

/-- A whole call is a run in which it is alone. -/
theorem Traffic.run_alone (input : CallInput) (s : Shared σ ρ) :
    ∃ f, run conf c ⟨s, []⟩ (.arrive input :: List.replicate 5 (.proceed 0)) =
      ⟨(Pipeline.check conf c input s).2, [f]⟩ ∧
      Pipeline.Phase.outcome f.phase = (Pipeline.check conf c input s).1 := by
  obtain ⟨record, observed, hrun⟩ := run_replicate_proceed conf c 5
    { input, phase := .arrived (c.now s.world) } s
  exact ⟨_, hrun, rfl⟩

/-- What a step does to a call, its record and the books. -/
structure Flight.Moves (store : σ → Store) (metrics : Bool) (f f' : Flight) (s s' : Shared σ ρ) :
    Prop where
  stage : Stage metrics f'.phase f'.record f'.observed
  books : ∃ more, f'.record = f.record ++ more ∧ ∀ initial events,
    Balanced initial (store s.world).ledger events →
      Balanced initial (store s'.world).ledger (events ++ more)
  latency : s'.latency.isSome = s.latency.isSome

theorem Flight.moves_of_step {metrics : Bool} {f : Flight} {s after : Shared σ ρ} {phase : Phase}
    {more : List CallEvent} (hstep : Pipeline.step conf c f.input f.phase s = (phase, after))
    (hevents : Pipeline.eventsOf conf c f.phase s = more)
    (hstage : Stage metrics phase (f.record ++ more)
      (f.observed + (Latency.count after.latency - Latency.count s.latency)))
    (hbooks : ∀ initial events, Balanced initial (store s.world).ledger events →
      Balanced initial (store after.world).ledger (events ++ more))
    (hlatency : after.latency.isSome = s.latency.isSome) :
    Moves store metrics f (f.step conf c s).1 s (f.step conf c s).2 := by
  rw [step_eq, hstep, hevents]
  exact ⟨hstage, ⟨more, rfl, hbooks⟩, hlatency⟩

/-- A step that asks nothing of others. -/
theorem Flight.moves_of_quiet_step {metrics : Bool} {f : Flight} {s after : Shared σ ρ}
    {phase : Phase} (hstep : Pipeline.step conf c f.input f.phase s = (phase, after))
    (hevents : Pipeline.eventsOf conf c f.phase s = [])
    (hstage : Stage metrics phase f.record f.observed) (hkeeps : Pipeline.Keeps store s after) :
    Moves store metrics f (f.step conf c s).1 s (f.step conf c s).2 := by
  refine moves_of_step hstep hevents ?_ (fun initial events h => ?_) (by rw [hkeeps.latency])
  · rw [hkeeps.latency, Nat.sub_self, List.append_nil]
    exact hstage
  · rw [List.append_nil, hkeeps.ledger]
    exact h

/-- A step that asks something that does not concern transactions. -/
theorem Flight.moves_of_asking_step {metrics : Bool} {f : Flight} {s : Shared σ ρ} {w : σ}
    {phase : Phase} {e : CallEvent}
    (hstep : Pipeline.step conf c f.input f.phase s = (phase, { s with world := w }))
    (hevents : Pipeline.eventsOf conf c f.phase s = [e])
    (hstage : Stage metrics phase (f.record ++ [e]) f.observed)
    (hledger : (store w).ledger = (store s.world).ledger) (hopened : e.openedId = none)
    (hclosed : e.closedId = none) :
    Moves store metrics f (f.step conf c s).1 s (f.step conf c s).2 := by
  refine moves_of_step hstep hevents ?_ (fun initial events h => ?_) rfl
  · rw [Nat.sub_self]
    exact hstage
  · rw [← hledger] at h
    exact h.snoc hopened hclosed

/-- A call takes a step as its stage demands, and the books stay right. A transaction that is to be
    closed must be open. -/
theorem Flight.step_moves (conf : Config.Resolved) (hc : c.OverStore store) {metrics : Bool}
    {f : Flight} {s : Shared σ ρ} (hmetrics : s.latency.isSome = metrics)
    (hf : Stage metrics f.phase f.record f.observed)
    (hopen : ∀ ctx t result logged, f.phase = .logged ctx t result logged →
      t.id ∈ (store s.world).opened) :
    Moves store metrics f (f.step conf c s).1 s (f.step conf c s).2 := by
  obtain ⟨input, phase, record, observed⟩ := f
  dsimp only at hf hopen
  cases hf with
  | @arrived began =>
    have hledger := hc.nextId s.world
    have hevents : Pipeline.eventsOf conf c (.arrived began) s =
        [.identified (c.nextId s.world).1] := rfl
    rcases hid : c.nextId s.world with ⟨f | id, w⟩ <;> rw [hid] at hledger hevents
    · exact moves_of_asking_step (Pipeline.start_of_error hid _) hevents .unidentified hledger rfl
        rfl
    · exact moves_of_asking_step (Pipeline.start_of_ok hid _) hevents .begun hledger rfl rfl
  | @begun ctx id =>
    have hevents : Pipeline.eventsOf conf c (.begun ctx) s =
        [.opened (c.openTransaction s.world).1] := rfl
    rcases hc.begin s.world with ⟨f, w, hopened, hledger⟩ | ⟨w, hopened, hledger⟩ <;>
      rw [hopened] at hevents
    · exact moves_of_asking_step (Pipeline.openTransaction_of_error hopened _) hevents .unopened
        hledger rfl rfl
    · refine moves_of_step (Pipeline.openTransaction_of_ok hopened _) hevents ?_
        (fun initial events h => ?_) rfl
      · rw [Nat.sub_self]
        exact .opened
      · rw [hledger]
        exact h.begin
  | @opened ctx id t =>
    obtain ⟨hkeeps, ⟨cause, hphase⟩ | ⟨ctx', read, result, hphase⟩⟩ :=
      Pipeline.evaluate_keeps conf input hc ctx t s
    · exact moves_of_quiet_step (Prod.ext hphase rfl) rfl .crashed hkeeps
    · exact moves_of_quiet_step (Prod.ext hphase rfl) rfl .evaluated hkeeps
  | @evaluated ctx id t read result =>
    cases hstop : ctx.timers.stopAll (c.now s.world) with
    | none =>
      have hstep : Pipeline.step conf c input (.evaluated ctx t read result) s =
          (.done (.crashed "overflow when adding durations"), s) := by
        simp only [Pipeline.step, Pipeline.log, hstop]
      have hevents : Pipeline.eventsOf conf c (.evaluated ctx t read result) s = [] := by
        simp only [Pipeline.eventsOf, hstop]
      exact moves_of_quiet_step hstep hevents .crashed ⟨rfl, rfl⟩
    | some timers =>
      let e := Pipeline.entry conf ctx t read result timers.all
      have hledger := hc.log e s.world
      rcases hlog : c.log e s.world with ⟨logged, w⟩
      rw [hlog] at hledger
      have hevents : Pipeline.eventsOf conf c (.evaluated ctx t read result) s =
          [.logged e logged] := by
        simp only [Pipeline.eventsOf, hstop, e, hlog]
      exact moves_of_asking_step (Pipeline.log_of_stopped hstop hlog) hevents (.logged rfl) hledger
        rfl rfl
  | @logged ctx id t e result logged names =>
    have hmem := hopen ctx t result logged rfl
    obtain ⟨closed, hclose⟩ := Store.exists_close_eq_ok hmem (Pipeline.aborts result)
    obtain ⟨w, hclosed, hledger⟩ := hc.close t (Pipeline.aborts result) s.world closed hclose
    have hevents : Pipeline.eventsOf conf c (.logged ctx t result logged) s =
        [.closed t (Pipeline.aborts result) (.ok ())] := by
      simp only [Pipeline.eventsOf, hclosed]
    have hstep : Pipeline.step conf c input (.logged ctx t result logged) s =
        (.done (.answered (result.map (Pipeline.override logged))),
          { s with world := w, latency := s.latency.map (·.observe (c.now w - ctx.began)) }) := by
      simp only [Pipeline.step, Pipeline.finish, hclosed]
    refine moves_of_step hstep hevents ?_ (fun initial events h => ?_) Option.isSome_map
    · rw [Latency.count_observe, hmetrics, Nat.zero_add]
      exact .closed names
    · rw [hledger]
      exact h.close hmem hclose
  | unidentified => exact moves_of_quiet_step rfl rfl .unidentified ⟨rfl, rfl⟩
  | unopened => exact moves_of_quiet_step rfl rfl .unopened ⟨rfl, rfl⟩
  | crashed => exact moves_of_quiet_step rfl rfl .crashed ⟨rfl, rfl⟩
  | closed names => exact moves_of_quiet_step rfl rfl (.closed names) ⟨rfl, rfl⟩

end AuthGate
