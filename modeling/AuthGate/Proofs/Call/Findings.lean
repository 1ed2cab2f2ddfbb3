import AuthGate.Proofs.Call.EngineRecord
import AuthGate.Proofs.Call.TimerNames
import AuthGate.Proofs.Result

set_option autoImplicit false

/-! # What is known after the evaluation

However the evaluation of a call ends, the call then knows exactly what its stages have found out so
far: `decide_findings`. A call breaks off only if the engine does: `crashIn_of_check`. -/

namespace AuthGate.Pipeline

variable {σ ρ : Type} {conf : Config.Resolved} {c : Collaborators σ ρ} {call : CallInput}
  {s : Shared σ ρ}

/-- The evaluation that the engine gave, if it did. -/
def evaluationIn (events : List (EngineEvent ρ)) : Option Evaluation :=
  events.findSome? EngineEvent.evaluation?

/-- What the engine broke off with, if it did. -/
def crashIn (events : List (EngineEvent ρ)) : Option String :=
  events.findSome? EngineEvent.crash?

/-- The policy input of a call, if the call was in time and an input could be built. -/
def builtInput? (conf : Config.Resolved) (c : Collaborators σ ρ) (call : CallInput)
    (s : Shared σ ρ) : Option Json :=
  if isLate c call s then none
  else (Input.ofRequest (inputOptions conf) call.version call.request).toOption

/-- What a call knows after its evaluation: the input, what the engine gave, and which timers there
    are, `started` being those of the stages before the engine. -/
structure Findings (input : Option Json) (evaluation : Option Evaluation)
    (started : String → Prop) (e : Evaluated) : Prop where
  input : e.input = input
  decision : e.ctx.decision = evaluation.bind (·.decision)
  builtinResults : e.ctx.builtinResults = evaluation.bind (·.builtinResults)
  timers (name : String) : e.ctx.timers.Has name ↔
    started name ∨ ∃ v, evaluation = some v ∧ name ∈ v.metrics.entries.map (·.1)

/-- A context in which nothing has been decided. -/
structure Undecided (ctx : CallContext) : Prop where
  decision : ctx.decision = none
  builtinResults : ctx.builtinResults = none

variable {ctx : CallContext} {t : Transaction}

theorem Undecided.withTimers (h : Undecided ctx) (timers : Timers) :
    Undecided { ctx with timers } :=
  ⟨h.decision, h.builtinResults⟩

/-- What is known if the engine gave nothing. -/
theorem Undecided.findings (h : Undecided ctx) (input : Option Json)
    (result : Except Stop CheckResponse) :
    Findings input none (fun name => ctx.timers.Has name) ⟨ctx, input, result⟩ where
  input := rfl
  decision := h.decision
  builtinResults := h.builtinResults
  timers _ := by simp

theorem conclude_findings (hctx : Undecided ctx) {input : Json} {v : Evaluation}
    (h : (conclude ctx input v).result ≠ .error timerOverflow) :
    Findings (some input) (some v) (fun name => ctx.timers.Has name) (conclude ctx input v) := by
  cases hrecord : recordMetrics v.metrics ctx.timers with
  | none => simp only [conclude, hrecord, ne_eq, not_true_eq_false] at h
  | some timers =>
    have htimers (name : String) : timers.Has name ↔
        ctx.timers.Has name ∨ ∃ v', some v = some v' ∧ name ∈ v'.metrics.entries.map (·.1) := by
      simp only [Timers.has_of_recordMetrics hrecord, Option.some.injEq, exists_eq_left', or_comm]
    simp only [conclude, hrecord]
    cases hdecision : v.decision with
    | none => exact ⟨rfl, hctx.decision.trans hdecision.symm, rfl, htimers⟩
    | some d => exact ⟨rfl, hdecision.symm, rfl, htimers⟩

/-- What is looked for in the answers of the engine is in the one to the query, if it was asked. -/
theorem findSome?_queryEvents {α : Type} {f : EngineEvent ρ → Option α}
    (hf : ∀ e r, f (.prepared e r) = none) {e : EntryPoint} {value : Json} :
    (queryEvents c e t value s).findSome? f =
      match prepared c e s with
      | (.error _, _) => none
      | (.ok q, s') => f (.evaluated q value t (c.evaluate q value t s'.world).1) := by
  have hprepare : (preparationEvents c e s).findSome? f = none := by
    simp only [preparationEvents]
    split <;> simp [hf]
  rw [queryEvents, List.findSome?_append, hprepare, Option.none_or]
  rcases prepared c e s with ⟨f | q, s'⟩
  · rfl
  · simp

theorem runQuery_findings (hctx : Undecided ctx) {e : EntryPoint} {input value : Json}
    (h : (runQuery c e ctx t input value s).1.result ≠ .error timerOverflow) :
    Findings (some input) (evaluationIn (queryEvents c e t value s))
      (fun name => ctx.timers.Has name) (runQuery c e ctx t input value s).1 := by
  rw [evaluationIn, findSome?_queryEvents fun _ _ => rfl]
  rcases hprepared : prepared c e s with ⟨f | q, s'⟩
  · simp only [runQuery, hprepared]
    exact hctx.findings ..
  · rcases hevaluated : c.evaluate q value t s'.world with ⟨stop | v, w⟩
    · simp only [runQuery, hprepared, hevaluated]
      exact hctx.findings ..
    · simp only [runQuery, hprepared, hevaluated] at h ⊢
      exact conclude_findings hctx h

/-- What a call knows after its evaluation, if no timer broke that off. -/
theorem decide_findings (conf : Config.Resolved) (c : Collaborators σ ρ) (call : CallInput)
    (t : Transaction) (s : Shared σ ρ) (hctx : Undecided ctx)
    (h : (decide conf c call ctx t s).1.result ≠ .error timerOverflow) :
    Findings (builtInput? conf c call s) (evaluationIn (evaluationEvents conf c call ctx t s))
      (fun name => ctx.timers.Has name ∨ isLate c call s = false ∧ name = inputTimer)
      (decide conf c call ctx t s).1 := by
  simp only [decide, builtInput?, evaluationEvents, inputOptions] at h ⊢
  cases hlate : isLate c call s with
  | true =>
    simp only [if_true, Bool.true_eq_false, false_and, or_false]
    exact hctx.findings ..
  | false =>
    simp only [hlate, Bool.false_eq_true, if_false, true_and] at h ⊢
    have hstarted (name : String) : (ctx.timers.start inputTimer (c.now s.world)).Has name ↔
        ctx.timers.Has name ∨ name = inputTimer := by
      rw [Timers.has_start, or_comm]
    simp only [← hstarted]
    rcases hbuilt : Input.ofRequest ⟨conf.schema, conf.config.skipBodyParse⟩ call.version
      call.request with f | input
    · exact (hctx.withTimers _).findings ..
    rcases hconverted : c.convert input with f | value
    · simp only [hconverted]
      exact (hctx.withTimers _).findings ..
    rcases hstop : (ctx.timers.start inputTimer (c.now s.world)).stop inputTimer (c.now s.world)
      with _ | ⟨r, timers⟩
    · simp only [hbuilt, hconverted, hstop, ne_eq, not_true_eq_false] at h
    · have hstopped (name : String) : timers.Has name ↔
          (ctx.timers.start inputTimer (c.now s.world)).Has name :=
        (Timers.names_of_stop hstop).2
      simp only [hbuilt, hconverted, hstop] at h ⊢
      simp only [← hstopped]
      exact runQuery_findings (hctx.withTimers timers) h

/-! ## Breaking off -/

variable {began : UInt64}

/-- Once the input has been converted, nothing keeps a call from asking the engine. -/
theorem evaluationEvents_of_converted
    (hctx : ctx.timers = ({} : Timers).start handlerTimer began.toNat) {input value : Json}
    (hintime : isLate c call s = false)
    (hbuilt : Input.ofRequest (inputOptions conf) call.version call.request = .ok input)
    (hconverted : c.convert input = .ok value) :
    evaluationEvents conf c call ctx t s = queryEvents c conf.entryPoint t value s := by
  have hbuilding := Timers.small_of_built began.toNat (c.now s.world)
  obtain ⟨r, timers, hstop, -⟩ :=
    hbuilding.stop_eq_some (by omega) inputTimer (c.clock s.world)
  rw [← hctx, show (c.clock s.world).toNat = c.now s.world from rfl] at hstop
  simp only [evaluationEvents, hintime, Bool.false_eq_true, if_false, hbuilt, hconverted, hstop]

/-- The evaluation of a call breaks off only if the engine does. -/
theorem crashIn_of_decide (conf : Config.Resolved) (c : Collaborators σ ρ) (call : CallInput)
    (t : Transaction) (s : Shared σ ρ)
    (hctx : ctx.timers = ({} : Timers).start handlerTimer began.toNat) (cause : String)
    (h : (decide conf c call ctx t s).1.result = .error (.crashed cause)) :
    crashIn (evaluationEvents conf c call ctx t s) = some cause := by
  have hdecides := decides conf c call t s hctx
  rcases hdecide : decide conf c call ctx t s with ⟨e, s'⟩
  rw [hdecide] at h hdecides
  cases hdecides with
  | late | unbuilt | unconverted | unprepared | undefined => cases h
  | decided =>
    obtain ⟨f, -, hf⟩ := mapError_eq_error_iff.1 h
    cases hf
  | stopped hintime hbuilt hconverted hprepared hevaluated =>
    cases h
    rw [evaluationEvents_of_converted hctx hintime hbuilt hconverted, crashIn,
      findSome?_queryEvents fun _ _ => rfl]
    simp only [hprepared, hevaluated, EngineEvent.crash?]

/-- After the evaluation of a call all its timers can be stopped. -/
theorem exists_stopAll_of_decide (conf : Config.Resolved) (c : Collaborators σ ρ)
    (call : CallInput) (t : Transaction) (s : Shared σ ρ)
    (hctx : ctx.timers = ({} : Timers).start handlerTimer began.toNat) :
    ∃ timers, (decide conf c call ctx t s).1.ctx.timers.stopAll
      (c.now (decide conf c call ctx t s).2.world) = some timers := by
  have hdecides := decides conf c call t s hctx
  generalize decide conf c call ctx t s = ended at hdecides ⊢
  obtain ⟨e, s'⟩ := ended
  have hstarted : ctx.timers.Small 0 := by
    rw [hctx]
    exact ⟨Nat.le_succ 1, fun _ => Nat.zero_le _⟩
  cases hdecides with
  | late => exact hstarted.stopAll_eq_some (by omega) _
  | unbuilt _ _ hsmall | unconverted _ _ _ hsmall | unprepared _ _ _ _ hsmall
  | stopped _ _ _ _ _ hsmall => exact hsmall.stopAll_eq_some (by omega) _
  | undefined _ _ _ _ _ htimers | decided _ _ _ _ _ htimers =>
    exact ⟨_, Timers.stopAll_eq_some_ofCall htimers _⟩

/-! ## Being answered -/

/-- The answer of an evaluation that did not break off. -/
def Evaluated.answer? (e : Evaluated) : Option (Except Failure CheckResponse) :=
  match e.result with
  | .ok r => some (.ok r)
  | .error (.failed f) => some (.error f)
  | .error (.crashed _) => none

theorem Evaluated.answer?_eq_none_iff {e : Evaluated} :
    e.answer? = none ↔ ∃ cause, e.result = .error (.crashed cause) := by
  obtain ⟨ctx, input, (f | cause) | r⟩ := e <;> simp [answer?]

theorem evaluate_of_answer {e : Evaluated} {s' : Shared σ ρ}
    (hdecide : decide conf c call ctx t s = (e, s')) {a : Except Failure CheckResponse}
    (ha : e.answer? = some a) :
    evaluate conf c call ctx t s =
      (.evaluated e.ctx t e.input (a.map fun r => if conf.config.dryRun then r.dryRun else r),
        s') := by
  obtain ⟨ctx', input, (f | cause) | r⟩ := e <;> cases ha
  · exact evaluate_of_failed hdecide
  · exact evaluate_of_ok hdecide

@[simp] theorem errorOf_map {α β : Type} (f : α → β) (r : Except Failure α) :
    errorOf (r.map f) = errorOf r := by
  cases r <;> rfl

section

variable {id : String} {w₁ w₂ : σ} {e : Evaluated} {s' : Shared σ ρ}
  (hid : c.nextId s.world = (.ok id, w₁)) (hopened : c.openTransaction w₁ = (.ok t, w₂))
  (hdecide : decide conf c call (newContext c (c.now s.world) s id w₁) t
    { s with world := w₂ } = (e, s'))

include hid hopened hdecide

/-- A call whose evaluation broke off does so too. -/
theorem outcome_of_crashed {cause : String} (h : e.result = .error (.crashed cause)) :
    (check conf c call s).1 = .crashed cause := by
  obtain ⟨ctx, input, result⟩ := e
  obtain rfl : result = .error (.crashed cause) := h
  rw [check_of_opened hid hopened, evaluate_of_crashed hdecide]
  rfl

/-- A call whose evaluation did not break off is answered in its error. -/
theorem outcome_of_answer {a : Except Failure CheckResponse} (ha : e.answer? = some a)
    {timers : Timers} (hstop : e.ctx.timers.stopAll (c.now s'.world) = some timers) :
    ∃ answer, (check conf c call s).1 = .answered answer ∧ errorOf answer = errorOf a := by
  let result := a.map fun r => if conf.config.dryRun then r.dryRun else r
  rcases hlog : c.log (entry conf e.ctx t e.input result timers.all) s'.world with ⟨logged, w⟩
  have hend : steps conf c call 2 (.evaluated e.ctx t e.input result) s' =
      finish c { e.ctx with timers } t result logged { s' with world := w } :=
    steps_two_of_evaluated hstop hlog
  rw [check_of_opened hid hopened, evaluate_of_answer hdecide ha]
  refine ⟨result.map (override logged), congrArg (fun p => Phase.outcome p.1) hend, ?_⟩
  rw [errorOf_map, errorOf_map]

end

/-- A call breaks off only if the engine does. -/
theorem crashIn_of_check {cause : String} (h : (check conf c call s).1 = .crashed cause) :
    crashIn (engineRecordOf conf c call s) = some cause := by
  rcases hid : c.nextId s.world with ⟨f | id, w₁⟩
  · rw [check_of_unidentified hid] at h
    cases h
  rcases hopened : c.openTransaction w₁ with ⟨f | t, w₂⟩
  · rw [check_of_unopened hid hopened] at h
    cases h
  have hctx : (newContext c (c.now s.world) s id w₁).timers =
      ({} : Timers).start handlerTimer (c.clock s.world).toNat := rfl
  obtain ⟨timers, hstop⟩ := exists_stopAll_of_decide conf c call t { s with world := w₂ } hctx
  have hcrash := crashIn_of_decide conf c call t { s with world := w₂ } hctx cause
  rw [engineRecordOf_of_opened hid hopened]
  rcases hdecide : decide conf c call (newContext c (c.now s.world) s id w₁) t
    { s with world := w₂ } with ⟨e, s'⟩
  rw [hdecide] at hstop hcrash
  cases ha : e.answer? with
  | none =>
    obtain ⟨cause', hcrashed⟩ := Evaluated.answer?_eq_none_iff.1 ha
    cases (outcome_of_crashed hid hopened hdecide hcrashed).symm.trans h
    exact hcrash hcrashed
  | some a =>
    obtain ⟨answer, hanswer, -⟩ := outcome_of_answer hid hopened hdecide ha hstop
    cases hanswer.symm.trans h

end AuthGate.Pipeline
