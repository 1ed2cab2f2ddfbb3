import AuthGate.Proofs.Call.Durations

set_option autoImplicit false

/-! # What the steps of a call do

Every way in which a step of a call can end, said once: other statements about calls go through
these and do not open the pipeline. The main statement is `decides`. -/

namespace AuthGate.Pipeline

variable {σ ρ : Type} {conf : Config.Resolved} {c : Collaborators σ ρ} {call : CallInput}
  {s : Shared σ ρ}

/-! ## The beginning -/

/-- What is known of a call that has just been given an id. -/
def newContext (c : Collaborators σ ρ) (began : Nat) (s : Shared σ ρ) (id : String) (w : σ) :
    CallContext where
  decisionId := id
  startedAt := c.today w
  began
  timers := ({} : Timers).start handlerTimer (c.now s.world)

theorem start_of_error {f : Failure} {w : σ} (h : c.nextId s.world = (.error f, w)) (began : Nat) :
    start c began s = (.done (.answered (.error f)), { s with world := w }) := by
  simp only [start, h]

theorem start_of_ok {id : String} {w : σ} (h : c.nextId s.world = (.ok id, w)) (began : Nat) :
    start c began s = (.begun (newContext c began s id w), { s with world := w }) := by
  simp only [start, h, newContext]

theorem openTransaction_of_error {f : Failure} {w : σ}
    (h : c.openTransaction s.world = (.error f, w)) (ctx : CallContext) :
    openTransaction c ctx s = (.done (.answered (.error f)), { s with world := w }) := by
  simp only [openTransaction, h]

theorem openTransaction_of_ok {t : Transaction} {w : σ}
    (h : c.openTransaction s.world = (.ok t, w)) (ctx : CallContext) :
    openTransaction c ctx s = (.opened ctx t, { s with world := w }) := by
  simp only [openTransaction, h]

/-! ## The evaluation -/

/-- How requests are read under a configuration. -/
def inputOptions (conf : Config.Resolved) : Input.Options :=
  ⟨conf.schema, conf.config.skipBodyParse⟩

/-- The evaluation of a call leaves the shared state alone, or runs the query. -/
theorem decide_snd_cases (conf : Config.Resolved) (c : Collaborators σ ρ) (call : CallInput)
    (ctx : CallContext) (t : Transaction) (s : Shared σ ρ) :
    (decide conf c call ctx t s).2 = s ∨ ∃ ctx' input value,
      (decide conf c call ctx t s).2 = (runQuery c conf.entryPoint ctx' t input value s).2 := by
  simp only [decide]
  split
  · exact .inl rfl
  split
  · exact .inl rfl
  split
  · exact .inl rfl
  split
  · exact .inl rfl
  · exact .inr ⟨_, _, _, rfl⟩

/-- The ways in which the evaluation of a call ends that began at some moment: how far it came, and
    the state after it. -/
inductive Decides (conf : Config.Resolved) (c : Collaborators σ ρ) (call : CallInput)
    (began : UInt64) (ctx : CallContext) (t : Transaction) (s : Shared σ ρ) :
    Evaluated → Shared σ ρ → Prop
  | late (hlate : isLate c call s = true) :
    Decides conf c call began ctx t s (.failed ctx none ⟨.timeout, "context deadline exceeded"⟩) s
  | unbuilt {f : Failure} {timers : Timers} (hintime : isLate c call s = false)
      (hbuilt : Input.ofRequest (inputOptions conf) call.version call.request = .error f)
      (hsmall : timers.Small 0) :
    Decides conf c call began ctx t s (.failed { ctx with timers } none f) s
  | unconverted {input : Json} {f : Failure} {timers : Timers} (hintime : isLate c call s = false)
      (hbuilt : Input.ofRequest (inputOptions conf) call.version call.request = .ok input)
      (hconverted : c.convert input = .error f) (hsmall : timers.Small 0) :
    Decides conf c call began ctx t s (.failed { ctx with timers } (some input) f) s
  | unprepared {input value : Json} {f : Failure} {timers : Timers} {s' : Shared σ ρ}
      (hintime : isLate c call s = false)
      (hbuilt : Input.ofRequest (inputOptions conf) call.version call.request = .ok input)
      (hconverted : c.convert input = .ok value)
      (hprepared : prepared c conf.entryPoint s = (.error f, s')) (hsmall : timers.Small 1) :
    Decides conf c call began ctx t s (.failed { ctx with timers } (some input) f) s'
  | stopped {input value : Json} {q : ρ} {stop : Stop} {timers : Timers} {s' : Shared σ ρ} {w : σ}
      (hintime : isLate c call s = false)
      (hbuilt : Input.ofRequest (inputOptions conf) call.version call.request = .ok input)
      (hconverted : c.convert input = .ok value)
      (hprepared : prepared c conf.entryPoint s = (.ok q, s'))
      (hevaluated : c.evaluate q value t s'.world = (.error stop, w)) (hsmall : timers.Small 1) :
    Decides conf c call began ctx t s ⟨{ ctx with timers }, some input, .error stop⟩
      { s' with world := w }
  | undefined {input value : Json} {q : ρ} {e : Evaluation} {timers : Timers} {s' : Shared σ ρ}
      {w : σ} (hintime : isLate c call s = false)
      (hbuilt : Input.ofRequest (inputOptions conf) call.version call.request = .ok input)
      (hconverted : c.convert input = .ok value)
      (hprepared : prepared c conf.entryPoint s = (.ok q, s'))
      (hevaluated : c.evaluate q value t s'.world = (.ok e, w))
      (htimers : Timers.evaluated? began (c.clock s.world) e.metrics = some timers)
      (hdecision : e.decision = none) :
    Decides conf c call began ctx t s
      (.failed { ctx with timers, builtinResults := e.builtinResults } (some input)
        ⟨.evaluation, "undefined decision"⟩) { s' with world := w }
  | decided {input value d : Json} {q : ρ} {e : Evaluation} {timers : Timers} {s' : Shared σ ρ}
      {w : σ} (hintime : isLate c call s = false)
      (hbuilt : Input.ofRequest (inputOptions conf) call.version call.request = .ok input)
      (hconverted : c.convert input = .ok value)
      (hprepared : prepared c conf.entryPoint s = (.ok q, s'))
      (hevaluated : c.evaluate q value t s'.world = (.ok e, w))
      (htimers : Timers.evaluated? began (c.clock s.world) e.metrics = some timers)
      (hdecision : e.decision = some d) :
    Decides conf c call began ctx t s
      ⟨{ ctx with timers, builtinResults := e.builtinResults, decision := some d }, some input,
        (Decision.ofJson d).shape.mapError .failed⟩ { s' with world := w }

/-- The evaluation of a call ends in one of these ways; no timer breaks it off. -/
theorem decides (conf : Config.Resolved) (c : Collaborators σ ρ) (call : CallInput)
    (t : Transaction) (s : Shared σ ρ) {began : UInt64} {ctx : CallContext}
    (hctx : ctx.timers = ({} : Timers).start handlerTimer began.toNat) :
    Decides conf c call began ctx t s (decide conf c call ctx t s).1
      (decide conf c call ctx t s).2 := by
  have hbuilding := Timers.small_of_built began.toNat (c.now s.world)
  rw [← hctx] at hbuilding
  simp only [decide]
  cases hlate : isLate c call s with
  | true => exact .late hlate
  | false =>
    simp only [Bool.false_eq_true, if_false]
    cases hbuilt : Input.ofRequest (inputOptions conf) call.version call.request with
    | error f =>
      rw [inputOptions] at hbuilt
      simp only [hbuilt]
      exact .unbuilt hlate hbuilt hbuilding
    | ok input =>
      have hbuilt' := hbuilt
      rw [inputOptions] at hbuilt'
      simp only [hbuilt']
      cases hconverted : c.convert input with
      | error f => exact .unconverted hlate hbuilt hconverted hbuilding
      | ok value =>
        obtain ⟨r, stopped, hstop, hsmall⟩ :=
          hbuilding.stop_eq_some (by omega) inputTimer (c.clock s.world)
        have hstop' : (ctx.timers.start inputTimer (c.now s.world)).stop inputTimer
            (c.now s.world) = some (r, stopped) := hstop
        simp only [hstop', runQuery]
        rcases hprepared : prepared c conf.entryPoint s with ⟨_ | q, s'⟩
        · exact .unprepared hlate hbuilt hconverted hprepared hsmall
        · rcases hevaluated : c.evaluate q value t s'.world with ⟨stop | e, w⟩
          · simp only [hevaluated]
            exact .stopped hlate hbuilt hconverted hprepared hevaluated hsmall
          · obtain ⟨timers, hrecord, -⟩ := hsmall.recordMetrics_eq_some (by omega) e.metrics
            have htimers : Timers.evaluated? began (c.clock s.world) e.metrics = some timers := by
              simp only [Timers.evaluated?, ← hctx]
              rw [show (c.clock s.world).toNat = c.now s.world from rfl, hstop']
              exact hrecord
            simp only [hevaluated, conclude, hrecord]
            cases hdecision : e.decision with
            | none =>
              exact .undefined hlate hbuilt hconverted hprepared hevaluated htimers hdecision
            | some d =>
              exact .decided hlate hbuilt hconverted hprepared hevaluated htimers hdecision

/-- The evaluation of a call that reaches a decision. -/
theorem decide_of_defined {began : UInt64} {ctx : CallContext} {t : Transaction}
    (hctx : ctx.timers = ({} : Timers).start handlerTimer began.toNat) {input value d : Json}
    {q : ρ} {e : Evaluation} {timers : Timers} {s' : Shared σ ρ} {w : σ}
    (hintime : isLate c call s = false)
    (hbuilt : Input.ofRequest (inputOptions conf) call.version call.request = .ok input)
    (hconverted : c.convert input = .ok value)
    (hprepared : prepared c conf.entryPoint s = (.ok q, s'))
    (hevaluated : c.evaluate q value t s'.world = (.ok e, w))
    (htimers : Timers.evaluated? began (c.clock s.world) e.metrics = some timers)
    (hdecision : e.decision = some d) :
    decide conf c call ctx t s =
      (⟨{ ctx with timers, builtinResults := e.builtinResults, decision := some d }, some input,
        (Decision.ofJson d).shape.mapError .failed⟩, { s' with world := w }) := by
  have hdecides := decides conf c call t s hctx
  rcases hdecide : decide conf c call ctx t s with ⟨ended, s₁⟩
  rw [hdecide] at hdecides
  cases hdecides <;> simp_all

theorem evaluate_of_ok {ctx ctx' : CallContext} {t : Transaction} {input : Option Json}
    {r : CheckResponse} {s' : Shared σ ρ}
    (h : decide conf c call ctx t s = (⟨ctx', input, .ok r⟩, s')) :
    evaluate conf c call ctx t s =
      (.evaluated ctx' t input (.ok (if conf.config.dryRun then r.dryRun else r)), s') := by
  simp only [evaluate, h]

theorem evaluate_of_failed {ctx ctx' : CallContext} {t : Transaction} {input : Option Json}
    {f : Failure} {s' : Shared σ ρ}
    (h : decide conf c call ctx t s = (⟨ctx', input, .error (.failed f)⟩, s')) :
    evaluate conf c call ctx t s = (.evaluated ctx' t input (.error f), s') := by
  simp only [evaluate, h]

theorem evaluate_of_crashed {ctx ctx' : CallContext} {t : Transaction} {input : Option Json}
    {cause : String} {s' : Shared σ ρ}
    (h : decide conf c call ctx t s = (⟨ctx', input, .error (.crashed cause)⟩, s')) :
    evaluate conf c call ctx t s = (.done (.crashed cause), s') := by
  simp only [evaluate, h]

/-! ## The end -/

theorem log_of_stopped {ctx : CallContext} {timers : Timers}
    (h : ctx.timers.stopAll (c.now s.world) = some timers) {t : Transaction} {input : Option Json}
    {result : Except Failure CheckResponse} {logged : Except Failure Unit} {w : σ}
    (hlog : c.log (entry conf ctx t input result timers.all) s.world = (logged, w)) :
    log conf c ctx t input result s =
      (.logged { ctx with timers } t result logged, { s with world := w }) := by
  simp only [log, h, hlog]

/-- The last two steps of a call whose timers can be stopped. -/
theorem steps_two_of_evaluated {ctx : CallContext} {timers : Timers}
    (h : ctx.timers.stopAll (c.now s.world) = some timers) {t : Transaction} {input : Option Json}
    {result : Except Failure CheckResponse} {logged : Except Failure Unit} {w : σ}
    (hlog : c.log (entry conf ctx t input result timers.all) s.world = (logged, w)) :
    steps conf c call 2 (.evaluated ctx t input result) s =
      finish c { ctx with timers } t result logged { s with world := w } := by
  simp only [steps, step, log_of_stopped h hlog]

theorem steps_succ (n : Nat) (p : Phase) :
    steps conf c call (n + 1) p s =
      steps conf c call n (step conf c call p s).1 (step conf c call p s).2 :=
  rfl

/-- The first step of a call that is given an id. -/
theorem step_arrived_of_identified {id : String} {w : σ} (hid : c.nextId s.world = (.ok id, w)) :
    step conf c call (.arrived (c.now s.world)) s =
      (.begun (newContext c (c.now s.world) s id w), { s with world := w }) :=
  start_of_ok hid _

/-- The second step of a call that is given a transaction. -/
theorem step_begun_of_opened {t : Transaction} {w₁ w₂ : σ}
    (hopened : c.openTransaction w₁ = (.ok t, w₂)) (ctx : CallContext) :
    step conf c call (.begun ctx) { s with world := w₁ } =
      (.opened ctx t, { s with world := w₂ }) :=
  openTransaction_of_ok (s := { s with world := w₁ }) hopened ctx

/-- A call that is given no id. -/
theorem check_of_unidentified {f : Failure} {w : σ} (hid : c.nextId s.world = (.error f, w)) :
    check conf c call s = (.answered (.error f), { s with world := w }) := by
  have hstart : step conf c call (.arrived (c.now s.world)) s =
      (.done (.answered (.error f)), { s with world := w }) := start_of_error hid _
  rw [check, steps_succ, hstart]
  rfl

/-- A call that is given an id and no transaction. -/
theorem check_of_unopened {id : String} {f : Failure} {w₁ w₂ : σ}
    (hid : c.nextId s.world = (.ok id, w₁)) (hopened : c.openTransaction w₁ = (.error f, w₂)) :
    check conf c call s = (.answered (.error f), { s with world := w₂ }) := by
  have hstart : step conf c call (.arrived (c.now s.world)) s =
      (.begun (newContext c (c.now s.world) s id w₁), { s with world := w₁ }) := start_of_ok hid _
  have hopen : step conf c call (.begun (newContext c (c.now s.world) s id w₁))
      { s with world := w₁ } = (.done (.answered (.error f)), { s with world := w₂ }) :=
    openTransaction_of_error (s := { s with world := w₁ }) hopened _
  rw [check, steps_succ, hstart, steps_succ, hopen]
  rfl

/-- A call that is given an id and a transaction. -/
theorem check_of_opened {id : String} {t : Transaction} {w₁ w₂ : σ}
    (hid : c.nextId s.world = (.ok id, w₁)) (hopened : c.openTransaction w₁ = (.ok t, w₂)) :
    check conf c call s =
      let evaluated := evaluate conf c call (newContext c (c.now s.world) s id w₁) t
        { s with world := w₂ }
      let ended := steps conf c call 2 evaluated.1 evaluated.2
      (Phase.outcome ended.1, ended.2) := by
  have hstart : step conf c call (.arrived (c.now s.world)) s =
      (.begun (newContext c (c.now s.world) s id w₁), { s with world := w₁ }) := start_of_ok hid _
  have hopen : step conf c call (.begun (newContext c (c.now s.world) s id w₁))
      { s with world := w₁ } =
      (.opened (newContext c (c.now s.world) s id w₁) t, { s with world := w₂ }) :=
    openTransaction_of_ok (s := { s with world := w₁ }) hopened _
  rw [check, steps_succ, hstart, steps_succ, hopen, steps_succ]
  rfl

end AuthGate.Pipeline
