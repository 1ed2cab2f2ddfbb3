import AuthGate.Proofs.Call.Stages
import AuthGate.Proofs.Decision.WellFormed

set_option autoImplicit false

/-! # When a request passes

A request passes only if nothing goes wrong on the way: a call answers that it may exactly if every
step of the call succeeded, the decision lets the request pass, and the audit log took the entry.
The main statement is `check_isOk_iff_admitted`. -/

namespace AuthGate.Pipeline

variable {σ ρ : Type} {conf : Config.Resolved} {c : Collaborators σ ρ} {call : CallInput}
  {s : Shared σ ρ}

/-- What a decision must be for the request to pass. In a dry run it need only be one that a
    response can be made of. -/
def Passes (dryRun : Bool) (d : Json) : Prop :=
  if dryRun then ∃ r, (Decision.ofJson d).shape = .ok r else Decision.Allows d

/-- The audit entry of a call with a decision `d` that a response was made of. -/
def decidedEntry (conf : Config.Resolved) (id : String) (startedAt : Instant) (t : Transaction)
    (input d : Json) (e : Evaluation) (timers : Timers) : AuditEntry where
  decisionId := id
  timestamp := startedAt
  path := nonempty conf.config.path
  query := nonempty conf.config.query
  input := some input
  result := some d
  error := none
  transaction := some t.id
  metrics := timers.all
  builtinResults := e.builtinResults

/-- A call every step of which succeeds, in the order of the steps. The worlds are those between
    the steps. -/
inductive Admitted (conf : Config.Resolved) (c : Collaborators σ ρ) (call : CallInput)
    (s : Shared σ ρ) : Prop
  | intro {id : String} {t : Transaction} {input value d : Json} {q : ρ} {e : Evaluation}
      {s' : Shared σ ρ} {w₁ w₂ w₃ w₄ : σ}
      (identified : c.nextId s.world = (.ok id, w₁))
      (opened : c.openTransaction w₁ = (.ok t, w₂))
      (inTime : ∀ deadline, call.deadline = some deadline → c.now w₂ < deadline)
      (built : Input.ofRequest (inputOptions conf) call.version call.request = .ok input)
      (converted : c.convert input = .ok value)
      (prepared : Pipeline.prepared c conf.entryPoint { s with world := w₂ } = (.ok q, s'))
      (evaluated : c.evaluate q value t s'.world = (.ok e, w₃))
      (defined : e.decision = some d)
      (passes : Passes conf.config.dryRun d)
      (logged : c.log (decidedEntry conf id (c.today w₁) t input d e
        (Timers.ofCall (c.clock s.world) (c.clock w₂) (c.clock w₃) e.metrics)) w₃ = (.ok (), w₄))

theorem isLate_eq_false_iff :
    isLate c call s = false ↔
      ∀ deadline, call.deadline = some deadline → c.now s.world < deadline := by
  cases h : call.deadline with
  | none => simp [isLate, h]
  | some d => simp [isLate, h]

/-- Neither a dry run nor the logger turns a denial into a response that lets the request pass,
    except that a dry run does so on purpose. -/
theorem override_isOk_iff {logged : Except Failure Unit} {dryRun : Bool} {r : CheckResponse} :
    (override logged (if dryRun then r.dryRun else r)).isOk = true ↔
      logged = .ok () ∧ (dryRun = true ∨ r.isOk = true) := by
  cases logged with
  | error f => simp [override, errorOf, CheckResponse.isOk, RpcStatus.of, StatusCode.toInt]
  | ok u => cases dryRun <;> simp [override, errorOf]

theorem passes_iff {dryRun : Bool} {d : Json} :
    Passes dryRun d ↔
      ∃ r, (Decision.ofJson d).shape = .ok r ∧ (dryRun = true ∨ r.isOk = true) := by
  cases dryRun with
  | true => simp [Passes]
  | false => simp [Passes, Decision.exists_shape_isOk_iff]

/-! ## From the evaluation to the answer -/

/-- What went wrong stays so to the end of the call. -/
theorem outcome_ne_ok_of_failed {ctx : CallContext} {t : Transaction} {input : Option Json}
    {f : Failure} {r : CheckResponse} :
    Phase.outcome (steps conf c call 2 (.evaluated ctx t input (.error f)) s).1 ≠
      .answered (.ok r) := by
  cases hstop : ctx.timers.stopAll (c.now s.world) with
  | none => simp [steps, step, log, hstop, Phase.outcome]
  | some timers => simp [steps, step, log, hstop, finish, Except.map, Phase.outcome]

/-- The outcome of a call that reached a decision which a response can be made of. -/
theorem check_of_decided {id : String} {t : Transaction} {input value d : Json} {q : ρ}
    {e : Evaluation} {s' : Shared σ ρ} {w₁ w₂ w₃ w₄ : σ} {shaped : CheckResponse}
    {logged : Except Failure Unit}
    (hid : c.nextId s.world = (.ok id, w₁)) (hopened : c.openTransaction w₁ = (.ok t, w₂))
    (hintime : isLate c call { s with world := w₂ } = false)
    (hbuilt : Input.ofRequest (inputOptions conf) call.version call.request = .ok input)
    (hconverted : c.convert input = .ok value)
    (hprepared : prepared c conf.entryPoint { s with world := w₂ } = (.ok q, s'))
    (hevaluated : c.evaluate q value t s'.world = (.ok e, w₃)) (hdecision : e.decision = some d)
    (hshape : (Decision.ofJson d).shape = .ok shaped)
    (hlog : c.log (decidedEntry conf id (c.today w₁) t input d e
      (Timers.ofCall (c.clock s.world) (c.clock w₂) (c.clock w₃) e.metrics)) w₃ = (logged, w₄)) :
    (check conf c call s).1 =
      .answered (.ok (override logged (if conf.config.dryRun then shaped.dryRun else shaped))) := by
  obtain ⟨timers, htimers, -⟩ :=
    Timers.exists_evaluated?_eq_some (c.clock s.world) (c.clock w₂) e.metrics
  have hstop := Timers.stopAll_eq_some_ofCall htimers (c.clock w₃)
  generalize Timers.ofCall (c.clock s.world) (c.clock w₂) (c.clock w₃) e.metrics = stopped
    at hstop hlog
  have hctx : (newContext c (c.now s.world) s id w₁).timers =
      ({} : Timers).start handlerTimer (c.clock s.world).toNat := rfl
  have hdecide := decide_of_defined hctx hintime hbuilt hconverted hprepared hevaluated htimers
    hdecision
  rw [hshape] at hdecide
  rw [check_of_opened hid hopened, evaluate_of_ok hdecide]
  let r := if conf.config.dryRun then shaped.dryRun else shaped
  let ctx : CallContext := { newContext c (c.now s.world) s id w₁ with
    timers, builtinResults := e.builtinResults, decision := some d }
  have hend : steps conf c call 2 (.evaluated ctx t (some input) (.ok r)) { s' with world := w₃ } =
      finish c { ctx with timers := stopped } t (.ok r) logged { s' with world := w₄ } := by
    apply steps_two_of_evaluated
    · exact hstop
    · exact hlog
  exact congrArg (fun p => Phase.outcome p.1) hend

/-- A call lets the request pass exactly if every step of it succeeds, the decision allows it, and
    the entry about it is logged. -/
theorem check_isOk_iff_admitted :
    (∃ r s', check conf c call s = (.answered (.ok r), s') ∧ r.isOk = true) ↔
      Admitted conf c call s := by
  constructor
  · rintro ⟨r, s', hcheck, hok⟩
    rcases hid : c.nextId s.world with ⟨f | id, w₁⟩
    · simp [check_of_unidentified hid] at hcheck
    rcases hopened : c.openTransaction w₁ with ⟨f | t, w₂⟩
    · simp [check_of_unopened hid hopened] at hcheck
    have houtcome : (check conf c call s).1 = .answered (.ok r) := by rw [hcheck]
    have hctx : (newContext c (c.now s.world) s id w₁).timers =
        ({} : Timers).start handlerTimer (c.clock s.world).toNat := rfl
    have hdecides := decides conf c call t { s with world := w₂ } hctx
    rcases hdecide : decide conf c call (newContext c (c.now s.world) s id w₁) t
      { s with world := w₂ } with ⟨e, s₁⟩
    rw [hdecide] at hdecides
    cases hdecides with
    -- whatever failed before the answer is not made good afterwards
    | late | unbuilt | unconverted | unprepared | undefined =>
      rw [check_of_opened hid hopened, evaluate_of_failed hdecide] at houtcome
      exact absurd houtcome outcome_ne_ok_of_failed
    | @stopped input value q stop timers s₂ w₃ _ _ _ _ _ _ =>
      rw [check_of_opened hid hopened] at houtcome
      cases stop with
      | failed f =>
        rw [evaluate_of_failed hdecide] at houtcome
        exact absurd houtcome outcome_ne_ok_of_failed
      | crashed cause =>
        rw [evaluate_of_crashed hdecide] at houtcome
        simp [steps, step, Phase.outcome] at houtcome
    | @decided input value d q e timers s₂ w₃ hintime hbuilt hconverted hprepared hevaluated _
        hdecision =>
      cases hshape : (Decision.ofJson d).shape with
      | error f =>
        rw [hshape] at hdecide
        rw [check_of_opened hid hopened, evaluate_of_failed hdecide] at houtcome
        exact absurd houtcome outcome_ne_ok_of_failed
      | ok shaped =>
        rcases hlog : c.log (decidedEntry conf id (c.today w₁) t input d e
          (Timers.ofCall (c.clock s.world) (c.clock w₂) (c.clock w₃) e.metrics)) w₃
          with ⟨logged, w₄⟩
        rw [check_of_decided hid hopened hintime hbuilt hconverted hprepared hevaluated hdecision
          hshape hlog] at houtcome
        obtain rfl : override logged _ = r := by simpa using houtcome
        obtain ⟨rfl, hpass⟩ := override_isOk_iff.1 hok
        exact .intro hid hopened (isLate_eq_false_iff.1 hintime) hbuilt hconverted hprepared
          hevaluated hdecision (passes_iff.2 ⟨shaped, hshape, hpass⟩) hlog
  · rintro ⟨hid, hopened, hintime, hbuilt, hconverted, hprepared, hevaluated, hdecision, hpasses,
      hlog⟩
    obtain ⟨shaped, hshape, hpass⟩ := passes_iff.1 hpasses
    have houtcome := check_of_decided hid hopened (isLate_eq_false_iff.2 hintime) hbuilt hconverted
      hprepared hevaluated hdecision hshape hlog
    exact ⟨_, _, Prod.ext houtcome rfl, override_isOk_iff.2 ⟨rfl, hpass⟩⟩

end AuthGate.Pipeline
