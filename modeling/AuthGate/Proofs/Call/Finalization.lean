import AuthGate.Proofs.Call.Traffic
import Mathlib.Data.List.Nodup

set_option autoImplicit false

/-! # The end of every call

However calls go and however their steps alternate, a call that opened a transaction leaves one
entry and closes its transaction once, and a call that did not leaves no trace. What one call may
have done at each phase, and the books of the store, are kept by every step (`Sound.step`) and so
by every run; `run_finalized` draws the consequences. -/

namespace AuthGate

variable {σ ρ : Type} {conf : Config.Resolved} {c : Collaborators σ ρ} {store : σ → Store}

/-- The records of calls, one after the other. -/
def Traffic.events (flights : List Flight) : List CallEvent := flights.flatMap fun f => f.record

namespace Stage

variable {metrics : Bool} {phase : Phase} {record : List CallEvent} {observed : Nat}

/-- A call closes only what it opened. -/
theorem closedId_subset (h : Stage metrics phase record observed) :
    record.filterMap CallEvent.closedId ⊆ record.filterMap CallEvent.openedId := by
  cases h <;> simp [List.filterMap_cons]

/-- A call that is to close its transaction has opened it and not closed it yet. -/
theorem openedId_of_logged {ctx : CallContext} {t : Transaction}
    {result : Except Failure CheckResponse} {logged : Except Failure Unit}
    (h : Stage metrics (.logged ctx t result logged) record observed) :
    record.filterMap CallEvent.openedId = [t.id] ∧ record.filterMap CallEvent.closedId = [] := by
  cases h
  simp [List.filterMap_cons]

end Stage

/-- What holds of calls side by side after any steps from a state without calls. -/
structure Traffic.Sound (store : σ → Store) (initial : Shared σ ρ) (t : Traffic σ ρ) : Prop where
  stages : ∀ f ∈ t.flights, Stage initial.latency.isSome f.phase f.record f.observed
  books : Balanced (store initial.world).ledger (store t.shared.world).ledger (events t.flights)
  latency : t.shared.latency.isSome = initial.latency.isSome

namespace Traffic

variable {initial : Shared σ ρ} {t : Traffic σ ρ}

theorem sound_of_no_flights (initial : Shared σ ρ) : Sound store initial ⟨initial, []⟩ where
  stages _ h := by simp at h
  books := .refl _
  latency := rfl

/-- The transaction that a call is about to close is open. -/
theorem Sound.mem_opened (h : Sound store initial t) {n : Nat} {f : Flight}
    (hf : t.flights[n]? = some f) {ctx : CallContext} {txn : Transaction}
    {result : Except Failure CheckResponse} {logged : Except Failure Unit}
    (hphase : f.phase = .logged ctx txn result logged) :
    txn.id ∈ (store t.shared.world).opened := by
  obtain ⟨hn, rfl⟩ := List.getElem?_eq_some_iff.1 hf
  have hstage := h.stages _ (List.getElem_mem hn)
  rw [hphase] at hstage
  obtain ⟨hopened, hclosed⟩ := hstage.openedId_of_logged
  let rest := events (t.flights.eraseIdx n)
  have hevents : (t.flights[n].record ++ rest).Perm (events t.flights) :=
    List.Perm.flatMap_right (fun f : Flight => f.record) (List.getElem_cons_eraseIdx_perm hn)
  have hbooks := h.books.perm hevents
  -- the other calls have not closed it, since they have not opened it
  have hother : txn.id ∉ rest.filterMap CallEvent.closedId := by
    intro hmem
    have hnodup := hbooks.nodup
    rw [List.filterMap_append, hopened] at hnodup
    have hnew := (List.nodup_cons.1 hnodup).1
    apply hnew
    obtain ⟨e, he, hid⟩ := List.mem_filterMap.1 hmem
    obtain ⟨g, hg, heg⟩ := List.mem_flatMap.1 he
    have hsub := (h.stages g (List.mem_of_mem_eraseIdx hg)).closedId_subset
    have hopen := hsub (List.mem_filterMap.2 ⟨e, heg, hid⟩)
    obtain ⟨e', he', hid'⟩ := List.mem_filterMap.1 hopen
    exact List.mem_filterMap.2 ⟨e', List.mem_flatMap.2 ⟨g, hg, he'⟩, hid'⟩
  have hmem : txn.id ∈ (store t.shared.world).opened ++
      (t.flights[n].record ++ rest).filterMap CallEvent.closedId := by
    apply hbooks.opened.mem_iff.2
    simp [List.filterMap_append, hopened]
  rw [List.filterMap_append, hclosed] at hmem
  exact (List.mem_append.1 hmem).resolve_right hother

/-- The calls are still sound after an action. -/
theorem Sound.step (hc : c.OverStore store) (h : Sound store initial t) (a : Action) :
    Sound store initial (t.step conf c a) := by
  cases a with
  | arrive input =>
    refine ⟨fun f hf => ?_, ?_, h.latency⟩
    · rcases List.mem_append.1 hf with hf | hf
      · exact h.stages f hf
      · obtain rfl := List.mem_singleton.1 hf
        exact .arrived
    · have hevents : events (t.flights ++
          [{ input, phase := .arrived (c.now t.shared.world) }]) = events t.flights := by
        simp [events]
      exact hevents ▸ h.books
  | proceed n =>
    simp only [Traffic.step]
    split
    · exact h
    · next f hf =>
      obtain ⟨hn, hget⟩ := List.getElem?_eq_some_iff.1 hf
      have hstage := h.stages f (List.mem_of_getElem? hf)
      obtain ⟨hstage', ⟨more, hrecord, hbooks⟩, hlatency⟩ :=
        Flight.step_moves conf hc h.latency hstage fun _ _ _ _ => h.mem_opened hf
      refine ⟨fun g hg => ?_, ?_, hlatency.trans h.latency⟩
      · rcases List.mem_or_eq_of_mem_set hg with hg | rfl
        · exact h.stages g hg
        · exact hstage'
      · refine (hbooks _ _ h.books).perm ?_
        -- the record of this call stands first, up to the order, and has grown at its end
        have hset := List.Perm.flatMap_right (fun g : Flight => g.record)
          (List.set_perm_cons_eraseIdx hn (f.step conf c t.shared).1)
        have hold := List.Perm.flatMap_right (fun g : Flight => g.record)
          (List.getElem_cons_eraseIdx_perm hn)
        rw [List.flatMap_cons, hrecord, List.append_assoc] at hset
        rw [List.flatMap_cons, hget] at hold
        refine hset.trans (?_ : List.Perm _ _)
        refine (List.Perm.append_left _ List.perm_append_comm).trans ?_
        rw [← List.append_assoc]
        exact hold.append_right _

/-- The calls are sound after any actions. -/
theorem run_sound (conf : Config.Resolved) (hc : c.OverStore store) (initial : Shared σ ρ)
    (actions : List Action) :
    Sound store initial (run conf c ⟨initial, []⟩ actions) := by
  -- the runs of the induction begin anywhere, but the books are those since the beginning
  suffices h : ∀ t, Sound store initial t → Sound store initial (run conf c t actions) from
    h _ (sound_of_no_flights initial)
  induction actions with
  | nil => exact fun t h => h
  | cons a rest ih => exact fun t h => ih _ (h.step hc a)

end Traffic

/-! ## Answered calls -/

/-- Whether a call is answered. -/
def Phase.isAnswered : Phase → Bool
  | .done (.answered _) => true
  | _ => false

theorem Phase.isAnswered_iff (p : Phase) : p.isAnswered = true ↔ ∃ r, p = .done (.answered r) := by
  cases p with
  | done o => cases o <;> simp [isAnswered]
  | _ => simp [isAnswered]

/-- Whether a call is answered with a failed evaluation. -/
def Phase.isEvaluationError : Phase → Bool
  | .done (.answered (.error f)) => f.kind == .evaluation
  | _ => false

namespace Flight

/-- The entries that a call has sent to the logger. -/
def entries (f : Flight) : List AuditEntry := f.record.filterMap CallEvent.entry

/-- Whether a call has opened a transaction. -/
def hasTransaction (f : Flight) : Bool := f.record.any fun e => e.openedId.isSome

/-- What an answered call has asked, from first to last: it was given no id, or no transaction, or
    it left one entry and then closed its transaction. -/
inductive Finalized (metrics : Bool) (f : Flight) (r : Except Failure CheckResponse) : Prop
  | unidentified {e : Failure} (record : f.record = [.identified (.error e)])
      (result : r = .error e) (observed : f.observed = 0)
  | unopened {id : String} {e : Failure}
      (record : f.record = [.identified (.ok id), .opened (.error e)]) (result : r = .error e)
      (observed : f.observed = 0)
  | closed {id : String} {t : Transaction} {e : AuditEntry} {logged : Except Failure Unit}
      {abort : Bool}
      (record : f.record =
        [.identified (.ok id), .opened (.ok t), .logged e logged, .closed t abort (.ok ())])
      (names : e.transaction = some t.id)
      (aborts : abort = true ↔ ∃ e, r = .error e ∧ e.kind = .evaluation)
      (observed : f.observed = metrics.toNat)

theorem aborts_eq_true_iff {result : Except Failure CheckResponse} :
    Pipeline.aborts result = true ↔ ∃ e, result = .error e ∧ e.kind = .evaluation := by
  cases result <;> simp [Pipeline.aborts, Pipeline.errorOf, Failure.aborts]

theorem finalized_of_stage {metrics : Bool} {f : Flight}
    (h : Stage metrics f.phase f.record f.observed) {r : Except Failure CheckResponse}
    (hr : f.phase = .done (.answered r)) : f.Finalized metrics r := by
  obtain ⟨input, phase, record, observed⟩ := f
  dsimp only at h hr
  subst hr
  cases h with
  | unidentified => exact .unidentified rfl rfl rfl
  | unopened => exact .unopened rfl rfl rfl
  | @closed id t e result logged names =>
    refine .closed rfl names ?_ rfl
    rw [aborts_eq_true_iff]
    cases result <;> simp [Except.map]

/-- What the record of a call adds up to once the call is answered. -/
structure Sums (f : Flight) : Prop where
  ids : f.record.filterMap CallEvent.closedId = f.record.filterMap CallEvent.openedId
  names : f.entries.map (·.transaction) = (f.record.filterMap CallEvent.openedId).map some
  ends : f.record.countP (CallEvent.closes false) + f.record.countP (CallEvent.closes true) =
    f.entries.length
  aborts : f.record.countP (CallEvent.closes true) =
    (f.hasTransaction && f.phase.isEvaluationError).toNat

theorem sums_of_finalized {metrics : Bool} {f : Flight} {r : Except Failure CheckResponse}
    (h : f.Finalized metrics r) (hr : f.phase = .done (.answered r)) : f.Sums := by
  obtain ⟨input, phase, record, observed⟩ := f
  dsimp only at hr
  subst hr
  cases h with
  | unidentified record | unopened record =>
    dsimp only at record
    subst record
    exact ⟨rfl, rfl, rfl, rfl⟩
  | @closed id t e logged abort record names aborts observed =>
    dsimp only at record
    subst record
    have haborts : abort = (Phase.done (.answered r)).isEvaluationError := by
      rw [Bool.eq_iff_iff, aborts]
      cases r <;> simp [Phase.isEvaluationError]
    refine ⟨rfl, ?_, ?_, ?_⟩
    · simp [entries, List.filterMap_cons, names]
    · cases abort <;> rfl
    · rw [← haborts]
      cases abort <;> rfl

end Flight

namespace Traffic

/-- The store once all calls are answered. -/
structure Settled (initial now : Ledger) (flights : List Flight) : Prop where
  /-- No transaction of a call is open. -/
  opened : now.opened.Perm initial.opened
  /-- There is an entry for every end of a transaction. -/
  ends : now.commits + now.aborts =
    initial.commits + initial.aborts + (flights.flatMap Flight.entries).length
  /-- The aborted transactions are those of failed evaluations. -/
  aborts : now.aborts = initial.aborts +
    flights.countP fun f => f.hasTransaction && f.phase.isEvaluationError
  /-- No two entries name the same transaction, and all name one. -/
  distinct : ((flights.flatMap Flight.entries).map (·.transaction)).Nodup
  named : ∀ e ∈ flights.flatMap Flight.entries, e.transaction.isSome

/-- What the records of calls add up to, if each of them does. -/
theorem events_sums {flights : List Flight} (h : ∀ f ∈ flights, f.Sums) :
    (events flights).filterMap CallEvent.closedId = (events flights).filterMap CallEvent.openedId ∧
    (flights.flatMap Flight.entries).map (·.transaction) =
      ((events flights).filterMap CallEvent.openedId).map some ∧
    (events flights).countP (CallEvent.closes false) +
      (events flights).countP (CallEvent.closes true) = (flights.flatMap Flight.entries).length ∧
    (events flights).countP (CallEvent.closes true) =
      flights.countP fun f => f.hasTransaction && f.phase.isEvaluationError := by
  induction flights with
  | nil => exact ⟨rfl, rfl, rfl, rfl⟩
  | cons f rest ih =>
    obtain ⟨hids, hnames, hends, haborts⟩ := ih fun g hg => h g (List.mem_cons_of_mem _ hg)
    obtain ⟨fids, fnames, fends, faborts⟩ := h f (List.mem_cons_self ..)
    have hevents : events (f :: rest) = f.record ++ events rest := rfl
    rw [hevents]
    refine ⟨?_, ?_, ?_, ?_⟩
    · rw [List.filterMap_append, List.filterMap_append, fids, hids]
    · rw [List.flatMap_cons, List.map_append, List.filterMap_append, List.map_append, fnames,
        hnames]
    · rw [List.countP_append, List.countP_append, List.flatMap_cons, List.length_append]
      omega
    · rw [List.countP_append, List.countP_cons, faborts, haborts]
      cases f.hasTransaction && f.phase.isEvaluationError <;> simp [Nat.add_comm]

/-- After any actions, an answered call has left either no trace or one entry and one end of its own
    transaction, aborted exactly if the evaluation failed; and once all calls are answered the store
    is settled. -/
theorem run_finalized (hc : c.OverStore store) (initial : Shared σ ρ) (actions : List Action) :
    (∀ f ∈ (run conf c ⟨initial, []⟩ actions).flights, ∀ r, f.phase = .done (.answered r) →
      f.Finalized initial.latency.isSome r) ∧
    ((∀ f ∈ (run conf c ⟨initial, []⟩ actions).flights, f.phase.isAnswered = true) →
      Settled (store initial.world).ledger
        (store (run conf c ⟨initial, []⟩ actions).shared.world).ledger
        (run conf c ⟨initial, []⟩ actions).flights) := by
  have hsound := run_sound conf hc initial actions
  generalize run conf c ⟨initial, []⟩ actions = t at hsound ⊢
  have hfinalized : ∀ f ∈ t.flights, ∀ r, f.phase = .done (.answered r) →
      f.Finalized initial.latency.isSome r :=
    fun f hf r hr => Flight.finalized_of_stage (hsound.stages f hf) hr
  refine ⟨hfinalized, fun hanswered => ?_⟩
  have hsums : ∀ f ∈ t.flights, f.Sums := fun f hf =>
    have ⟨r, hr⟩ := f.phase.isAnswered_iff.1 (hanswered f hf)
    Flight.sums_of_finalized (hfinalized f hf r hr) hr
  obtain ⟨hids, hnames, hends, haborts⟩ := events_sums hsums
  have hbooks := hsound.books
  refine ⟨?_, ?_, ?_, ?_, fun e he => ?_⟩
  -- all that was opened has been closed, so that only what was open before remains
  · have hopened := hbooks.opened
    rw [hids] at hopened
    exact (List.perm_append_right_iff _).1 hopened
  · rw [hbooks.commits, hbooks.aborts]
    omega
  · rw [hbooks.aborts, haborts]
  · rw [hnames]
    exact hbooks.nodup.map fun _ _ h => Option.some.inj h
  · have hmem := List.mem_map_of_mem (f := fun e : AuditEntry => e.transaction) he
    rw [hnames] at hmem
    obtain ⟨n, -, hn⟩ := List.mem_map.1 hmem
    rw [← hn]
    rfl

/-! ### Small cases -/

/-- An interpreter for which nothing is defined. -/
def undefinedInterpreter : Interpreter Unit where
  fresh := ()
  addModule _ _ session := .ok session
  addData _ session := .ok session
  setInput _ session := session
  query _ session := (.ok none, session)

/-- A store with no more around it than the ids, on a clock that stands still. -/
def stillCollaborators (id : Except Failure String) :
    Collaborators (World Unit) (CompiledQuery Unit) :=
  Surroundings.collaborators
    { nextId := fun w => (id, w), log := fun _ w => (.ok (), w), clock := fun _ => 0,
      today := fun _ => ⟨0, 0⟩ } undefinedInterpreter

/-- Calls over an empty store. -/
def runStill (id : Except Failure String) (actions : List Action) :
    Traffic (World Unit) (CompiledQuery Unit) :=
  run ⟨{}, ⟨[]⟩, none⟩ (stillCollaborators id) ⟨{ world := ⟨{}, ()⟩ }, []⟩ actions

/-- Two calls in turn, one of them too late. -/
def twoCalls : List Action :=
  [.arrive ⟨⟨none⟩, .v3, none⟩, .arrive ⟨⟨none⟩, .v3, some 0⟩, .proceed 0, .proceed 1, .proceed 1,
    .proceed 0, .proceed 1, .proceed 0, .proceed 0, .proceed 1, .proceed 1, .proceed 0]

/-- Of the two calls one ends in an abort, that of a decision which is not defined. -/
theorem twoCalls_settled :
    (∀ f ∈ (runStill (.ok "id") twoCalls).flights, f.phase.isAnswered = true) ∧
    Settled (Store.ledger {}) (runStill (.ok "id") twoCalls).shared.world.store.ledger
      (runStill (.ok "id") twoCalls).flights ∧
    (runStill (.ok "id") twoCalls).shared.world.store.ledger = ⟨3, [], 1, 1⟩ := by
  have hanswered : ∀ f ∈ (runStill (.ok "id") twoCalls).flights, f.phase.isAnswered = true := by
    decide
  exact ⟨hanswered, (run_finalized (Surroundings.overStore _ _) _ _).2 hanswered, by decide⟩

/-- A call that is given no id may be answered with a failed evaluation too, but it has no
    transaction that could be aborted. -/
theorem aborts_ne_evaluationErrors :
    let t := runStill (.error ⟨.evaluation, "boom"⟩) [.arrive ⟨⟨none⟩, .v3, none⟩, .proceed 0]
    (∀ f ∈ t.flights, f.phase.isAnswered = true) ∧
      t.shared.world.store.aborts ≠ t.flights.countP fun f => f.phase.isEvaluationError := by
  decide

end Traffic

end AuthGate
