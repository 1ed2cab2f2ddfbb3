import AuthGate.Proofs.Engine.Coherence
import AuthGate.Proofs.Store.History
import AuthGate.Rego.Session
import AuthGate.Server.Plugin

set_option autoImplicit false

/-! # The cache of a plugin is invisible

Whatever a plugin has been through, it answers the next call as a plugin does that was just built
over a store with the same modules and data. What carries the argument is `Coherent`: the plugin is
told of every change of modules, and its compiled query is up to date. The main statement is
`check_eq_of_fresh`. -/

namespace AuthGate

/-! ## What changes of modules announce -/

namespace Store

/-- An announcement fires every trigger, wherever it stands among the steps. -/
theorem fires_of_announce {s : Store} {ms : List ModuleStep} (h : .announce ∈ ms) {t : String}
    (ht : t ∈ s.triggers) : (s.run ms).2.any (·.trigger == t) = true := by
  induction ms generalizing s with
  | nil => simp at h
  | cons m rest ih =>
    simp only [run, List.any_append, Bool.or_eq_true]
    rcases List.mem_cons.1 h with rfl | h
    · left
      simp only [step, List.any_map, List.any_eq_true, Function.comp_apply]
      exact ⟨t, ht, beq_self_eq_true t⟩
    · right
      apply ih h
      cases m <;> exact ht

end Store

namespace Plugin

variable {σ ε : Type}

/-! ## Operations -/

/-- What may be done with a plugin, one after the other. -/
inductive Operation (σ : Type) where
  | upsert (id source : String)
  | remove (id : String)
  | replace (modules : Policy.Modules)
  | setData (data : Json)
  | check (call : CallInput)
  /-- Something happens in the surroundings. -/
  | pass (outside : σ)

/-- The plugin after an operation. -/
def perform (c : Surroundings σ) (p : Plugin σ ε) : Operation σ → Plugin σ ε
  | .upsert id source => p.upsert id source
  | .remove id => (p.remove id).2
  | .replace modules => p.replace modules
  | .setData data => p.setData data
  | .check call => (p.check c call).2
  | .pass outside => { p with shared := { p.shared with world := { p.shared.world with outside } } }

/-- The plugin after some operations. -/
def performAll (c : Surroundings σ) (p : Plugin σ ε) (ops : List (Operation σ)) : Plugin σ ε :=
  ops.foldl (perform c) p

/-- The entries that a call sends to the logger, without the numbers of their transactions. -/
def entriesOf (c : Surroundings σ) (call : CallInput) (p : Plugin σ ε) : List AuditEntry :=
  unnumberedEntries (Pipeline.recordOf p.conf (c.collaborators p.interpreter) call p.shared)

/-! ## Coherence -/

/-- The plugin is told of changes of modules, and its compiled query is up to date. -/
structure Coherent (p : Plugin σ ε) : Prop where
  registered : resetTrigger ∈ p.store.triggers
  upToDate : UpToDate p.interpreter p.conf.entryPoint p.shared

theorem coherent_ofStore (conf : Config.Resolved) (i : Interpreter ε) (machine : Machine)
    (store : Store) (outside : σ) : (ofStore conf i machine store outside).Coherent where
  registered := by simp [ofStore, Plugin.store, Store.register]
  upToDate q hq := by cases hq

/-- After a change of modules that is announced the compiled query is gone. -/
theorem Coherent.withStore_run {p : Plugin σ ε} (h : p.Coherent) {ms : List Store.ModuleStep}
    (hms : .announce ∈ ms) : (p.withStore (p.store.run ms)).Coherent where
  registered := by
    have htriggers := Store.triggers_run p.store ms
    exact htriggers ▸ h.registered
  upToDate q hq := by
    have hfired := Store.fires_of_announce hms h.registered
    simp only [withStore, hfired, if_true, QueryCache.slot_epoch_invalidate] at hq
    cases hq

theorem Coherent.perform {p : Plugin σ ε} (h : p.Coherent) (c : Surroundings σ) (op : Operation σ) :
    (p.perform c op).Coherent := by
  cases op with
  | upsert id source =>
    have hms : .announce ∈ Store.upsertSteps id source := by simp [Store.upsertSteps]
    exact h.withStore_run hms
  | replace modules =>
    have hms : .announce ∈ Store.replaceSteps modules := by simp [Store.replaceSteps]
    exact h.withStore_run hms
  | remove id =>
    simp only [Plugin.perform, Plugin.remove, Store.remove, Store.removeSteps]
    split
    · exact h.withStore_run (by simp)
    · exact h
  | setData data => exact ⟨h.registered, h.upToDate⟩
  | check call =>
    have hsame := Pipeline.check_samePolicy c call h.upToDate
    refine ⟨?_, hsame.upToDate⟩
    exact hsame.triggers ▸ h.registered
  | pass outside => exact ⟨h.registered, h.upToDate⟩

/-- Neither the settings nor the interpreter of a plugin ever change. -/
theorem perform_fixed (c : Surroundings σ) (p : Plugin σ ε) (op : Operation σ) :
    (p.perform c op).conf = p.conf ∧ (p.perform c op).interpreter = p.interpreter := by
  cases op <;> exact ⟨rfl, rfl⟩

/-- What holds of a plugin after any operations. -/
theorem performAll_coherent (c : Surroundings σ) {p : Plugin σ ε} (h : p.Coherent)
    (ops : List (Operation σ)) :
    (p.performAll c ops).Coherent ∧ (p.performAll c ops).conf = p.conf ∧
      (p.performAll c ops).interpreter = p.interpreter := by
  induction ops generalizing p with
  | nil => exact ⟨h, rfl, rfl⟩
  | cons op rest ih =>
    obtain ⟨hcoherent, hconf, hinterpreter⟩ := ih (h.perform c op)
    obtain ⟨hconf', hinterpreter'⟩ := perform_fixed c p op
    exact ⟨hcoherent, hconf.trans hconf', hinterpreter.trans hinterpreter'⟩

/-- After any operations, a plugin answers a call as a plugin does that was just built over a store
    with the same modules and data, and leaves the same entries. -/
theorem check_eq_of_fresh (conf : Config.Resolved) (i : Interpreter ε) (machine machine' : Machine)
    (store fresh : Store) (outside : σ) (c : Surroundings σ) (ops : List (Operation σ))
    (call : CallInput)
    (hmodules : fresh.modules =
      ((ofStore conf i machine store outside).performAll c ops).store.modules)
    (hdata : fresh.data = ((ofStore conf i machine store outside).performAll c ops).store.data)
    (hnumber : c.SameNumber
      ((ofStore conf i machine store outside).performAll c ops).store.nextId fresh.nextId) :
    let p := (ofStore conf i machine store outside).performAll c ops
    let q := ofStore conf i machine' fresh p.shared.world.outside
    (p.check c call).1 = (q.check c call).1 ∧ p.entriesOf c call = q.entriesOf c call := by
  obtain ⟨hcoherent, hconf, hinterpreter⟩ :=
    performAll_coherent c (coherent_ofStore conf i machine store outside) ops
  generalize (ofStore conf i machine store outside).performAll c ops = p at *
  obtain ⟨pconf, pinterpreter, shared, life, pmachine, endpoints⟩ := p
  obtain rfl : pconf = conf := hconf
  obtain rfl : pinterpreter = i := hinterpreter
  have hagree : Agree pinterpreter pconf.entryPoint shared
      (ofStore pconf pinterpreter machine' fresh shared.world.outside).shared :=
    ⟨rfl, hmodules.symm, hdata.symm, hcoherent.upToDate,
      (coherent_ofStore pconf pinterpreter machine' fresh _).upToDate⟩
  exact Pipeline.check_alike hagree hnumber

/-- Surroundings in which everything succeeds and no time passes. -/
def quietSurroundings : Surroundings Unit where
  nextId w := (.ok "id", w)
  log _ w := (.ok (), w)
  clock _ := 0
  today _ := ⟨0, 0⟩

/-- A policy that lets every request pass, or none. -/
def constantPolicy (allow : Bool) : String :=
  "package envoy.authz\ndefault allow := " ++ if allow then "true" else "false"

/-- The settings without any given. -/
def plainConf : Config.Resolved := ⟨{}, .ofPath Config.defaultPath, none⟩

/-- A machine without files. -/
def bareMachine : Machine := ⟨⟨[], []⟩, []⟩

/-- A request is denied before the policy is changed. -/
def policyChange : List (Operation Unit) :=
  [.upsert "authz.rego" (constantPolicy false), .check ⟨⟨none⟩, .v3, none⟩,
    .upsert "authz.rego" (constantPolicy true)]

/-- The plugin after the change. -/
def changedPlugin : Plugin Unit Rego.Session :=
  (ofStore plainConf Rego.interpreter bareMachine {} ()).performAll quietSurroundings policyChange

/-- The store after the change, with its transactions counted anew. -/
def changedStore : Store where
  modules := [("authz.rego", constantPolicy true)]
  data := changedPlugin.store.data

/-- The plugin decides the next request by the changed policy. -/
theorem policyChange_check_eq :
    changedStore.modules = changedPlugin.store.modules ∧
    let q := ofStore plainConf Rego.interpreter bareMachine changedStore
      changedPlugin.shared.world.outside
    (changedPlugin.check quietSurroundings ⟨⟨none⟩, .v3, none⟩).1 =
        (q.check quietSurroundings ⟨⟨none⟩, .v3, none⟩).1 ∧
      changedPlugin.entriesOf quietSurroundings ⟨⟨none⟩, .v3, none⟩ =
        q.entriesOf quietSurroundings ⟨⟨none⟩, .v3, none⟩ := by
  have hmodules : changedStore.modules = changedPlugin.store.modules := by decide +kernel
  have hdata : changedStore.data = changedPlugin.store.data := by rw [changedStore]
  have hignores : quietSurroundings.IgnoresNumber := fun _ _ _ => rfl
  refine ⟨hmodules, ?_⟩
  have h := check_eq_of_fresh plainConf Rego.interpreter bareMachine bareMachine {} changedStore ()
    quietSurroundings policyChange ⟨⟨none⟩, .v3, none⟩ hmodules hdata (.inr hignores)
  rw [← changedPlugin] at h
  exact h

end Plugin

end AuthGate
