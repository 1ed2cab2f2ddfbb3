import AuthGate.Rego.Session
import AuthGate.Server.Plugin
import Mathlib.Data.List.Induction

set_option autoImplicit false

/-! # What readiness tells

Every start, every stop and every task that exits sets whether the server is ready, and a task that
exits does not look whether a later one serves. So a server is ready when the most recent start
succeeded, it was not stopped since, and no task exited since: neither the task of that start nor an
older one. A server that serves may thus be called not ready. The main statement is
`live_readiness`. -/

namespace AuthGate

namespace Lifecycle

/-! ## Histories -/

/-- The most recent start of a history succeeded: its task has this number, and these steps have
    followed it. -/
structure Began (steps : List LifeStep) (task : Nat) (since : List LifeStep) : Prop where
  split : ∃ before, steps = before ++ .started :: since ∧ before.count .started = task
  notStarted : .started ∉ since
  notFailed : .failed ∉ since

/-- The most recent start of a history succeeded, the server was not stopped since, and the task of
    that start has not exited. -/
structure Runs (steps : List LifeStep) (task : Nat) (since : List LifeStep) : Prop where
  began : Began steps task since
  notStopped : .stopped ∉ since
  notExited : .exited task ∉ since

variable {steps since : List LifeStep} {s : LifeStep} {task : Nat} {l : Lifecycle}

theorem began_started (steps : List LifeStep) :
    Began (steps ++ [.started]) (steps.count .started) [] where
  split := ⟨steps, rfl, rfl⟩
  notStarted := List.not_mem_nil
  notFailed := List.not_mem_nil

/-- The most recent start is the last step, or it was the most recent one before that step. -/
theorem Began.of_snoc (h : Began (steps ++ [s]) task since) :
    (s = .started ∧ task = steps.count .started ∧ since = []) ∨
      (s ≠ .started ∧ s ≠ .failed ∧ ∃ rest, since = rest ++ [s] ∧ Began steps task rest) := by
  obtain ⟨before, hsplit, hcount⟩ := h.split
  rcases List.eq_nil_or_concat since with rfl | ⟨rest, t, rfl⟩
  · obtain ⟨rfl, hlast⟩ := List.append_inj' hsplit rfl
    exact .inl ⟨List.singleton_inj.1 hlast, hcount.symm, rfl⟩
  · have hsplit' : steps ++ [s] = (before ++ .started :: rest) ++ [t] := by simpa using hsplit
    obtain ⟨rfl, hlast⟩ := List.append_inj' hsplit' rfl
    obtain rfl := List.singleton_inj.1 hlast
    have hstarted := h.notStarted
    have hfailed := h.notFailed
    simp only [List.concat_eq_append, List.mem_append, List.mem_singleton, not_or] at hstarted hfailed
    exact .inr ⟨Ne.symm hstarted.2, Ne.symm hfailed.2, rest, by simp,
      ⟨before, rfl, hcount⟩, hstarted.1, hfailed.1⟩

/-- Before a step that is no start, the most recent start was the same. -/
theorem Began.before_last (h : Began (steps ++ [s]) task since) (hs : s ≠ .started) :
    s ≠ .failed ∧ ∃ rest, since = rest ++ [s] ∧ Began steps task rest := by
  rcases h.of_snoc with ⟨hstarted, -⟩ | ⟨-, hfailed, hbefore⟩
  · exact absurd hstarted hs
  · exact ⟨hfailed, hbefore⟩

/-- The task of the most recent start is the one that was begun last. -/
theorem Began.count_eq (h : Began steps task since) : steps.count .started = task + 1 := by
  obtain ⟨before, rfl, rfl⟩ := h.split
  rw [List.count_append, List.count_cons_self, List.count_eq_zero.2 h.notStarted]

/-- The server runs, and no task that is older than its own has exited since it was started. -/
def Undisturbed (steps : List LifeStep) : Prop :=
  ∃ task since, Runs steps task since ∧ ∀ older < task, .exited older ∉ since

theorem undisturbed_started (steps : List LifeStep) : Undisturbed (steps ++ [.started]) :=
  ⟨_, [], ⟨began_started steps, List.not_mem_nil, List.not_mem_nil⟩, fun _ _ => List.not_mem_nil⟩

theorem not_undisturbed_failed (steps : List LifeStep) : ¬ Undisturbed (steps ++ [.failed]) := by
  rintro ⟨task, since, hruns, -⟩
  exact (hruns.began.before_last (by decide)).1 rfl

theorem not_undisturbed_stopped (steps : List LifeStep) : ¬ Undisturbed (steps ++ [.stopped]) := by
  rintro ⟨task, since, hruns, -⟩
  obtain ⟨-, rest, rfl, -⟩ := hruns.began.before_last (by decide)
  exact hruns.notStopped (by simp)

/-- A task that exits disturbs, be it that of the most recent start or an older one. -/
theorem not_undisturbed_exited (h : task < steps.count .started) :
    ¬ Undisturbed (steps ++ [.exited task]) := by
  rintro ⟨latest, since, hruns, hquiet⟩
  obtain ⟨-, rest, rfl, hbegan⟩ := hruns.began.before_last (fun h => nomatch h)
  have hmem : .exited task ∈ rest ++ [.exited task] := by simp
  rw [hbegan.count_eq] at h
  rcases Nat.lt_or_eq_of_le (Nat.le_of_lt_succ h) with hlt | rfl
  · exact hquiet task hlt hmem
  · exact hruns.notExited hmem

/-! ## What a history leads to -/

/-- Where a server stands after a history. -/
structure Follows (steps : List LifeStep) (l : Lifecycle) : Prop where
  numbered : l.nextTask = steps.count .started
  nodup : l.serving.Nodup
  begun : ∀ task ∈ l.serving, task < l.nextTask
  serving : ∀ task since, Began steps task since → .exited task ∉ since → task ∈ l.serving
  ready : l.readiness = .ok ↔ Undisturbed steps

theorem not_began_nil : ¬ Began [] task since := by
  intro h
  obtain ⟨before, hsplit, -⟩ := h.split
  simp at hsplit

theorem follows_nil : Follows [] {} where
  numbered := rfl
  nodup := List.nodup_nil
  begun _ h := nomatch h
  serving _ _ h := absurd h not_began_nil
  ready := by
    refine iff_of_false (fun h => nomatch h) ?_
    rintro ⟨task, since, hruns, -⟩
    exact not_began_nil hruns.began

/-- The task of the most recent start still serves after a step that is neither a start nor its
    exit. -/
theorem Follows.serves_on (h : Follows steps l) (hbegan : Began (steps ++ [s]) task since)
    (hexited : .exited task ∉ since) (hs : s ≠ .started) :
    s ≠ .exited task ∧ task ∈ l.serving := by
  obtain ⟨-, rest, rfl, hbefore⟩ := hbegan.before_last hs
  rw [List.mem_append, List.mem_singleton, not_or] at hexited
  exact ⟨Ne.symm hexited.2, h.serving task rest hbefore hexited.1⟩

theorem Follows.failed (h : Follows steps l) : Follows (steps ++ [.failed]) (l.step .failed) where
  numbered := by simpa [step] using h.numbered
  nodup := h.nodup
  begun := h.begun
  serving _ _ hbegan hexited := (h.serves_on hbegan hexited (by decide)).2
  ready := iff_of_false (fun h => nomatch h) (not_undisturbed_failed steps)

theorem Follows.started (h : Follows steps l) : Follows (steps ++ [.started]) (l.step .started) where
  numbered := by simpa [step] using h.numbered
  nodup := by
    have hnew : l.nextTask ∉ l.serving := fun hmem => Nat.lt_irrefl _ (h.begun _ hmem)
    simpa [step, List.nodup_append] using ⟨h.nodup, fun a ha => ne_of_mem_of_not_mem ha hnew⟩
  begun task hmem := by
    rcases List.mem_append.1 hmem with hold | hnew
    · exact Nat.lt_succ_of_lt (h.begun task hold)
    · exact List.mem_singleton.1 hnew ▸ Nat.lt_succ_self _
  serving task since hbegan _ := by
    rcases hbegan.of_snoc with ⟨-, rfl, -⟩ | ⟨hlast, -⟩
    · rw [← h.numbered]
      simp [step]
    · exact absurd rfl hlast
  ready := iff_of_true rfl (undisturbed_started steps)

theorem Follows.stopped (h : Follows steps l) : Follows (steps ++ [.stopped]) (l.step .stopped) where
  numbered := by simpa [step] using h.numbered
  nodup := h.nodup
  begun := h.begun
  serving _ _ hbegan hexited := (h.serves_on hbegan hexited (by decide)).2
  ready := iff_of_false (fun h => nomatch h) (not_undisturbed_stopped steps)

theorem step_exited (h : task ∈ l.serving) :
    l.step (.exited task) =
      { l with readiness := .notReady, serving := l.serving.erase task } := by
  rw [step, if_pos (List.contains_iff_mem.2 h)]

theorem Follows.exited (h : Follows steps l) (hserves : task ∈ l.serving) :
    Follows (steps ++ [.exited task]) (l.step (.exited task)) := by
  rw [step_exited hserves]
  refine ⟨?_, h.nodup.erase _, fun t ht => h.begun t (List.mem_of_mem_erase ht), ?_, ?_⟩
  · simpa using h.numbered
  · intro latest since hbegan hexited
    obtain ⟨hother, hmem⟩ := h.serves_on hbegan hexited (fun h => nomatch h)
    have hne : latest ≠ task := fun heq => hother (heq ▸ rfl)
    exact (List.mem_erase_of_ne hne).2 hmem
  · have hbegun : task < steps.count .started := h.numbered ▸ h.begun task hserves
    exact iff_of_false (fun h => nomatch h) (not_undisturbed_exited hbegun)

end Lifecycle

namespace Plugin

variable {σ ε : Type} {p : Plugin σ ε} {steps : List LifeStep}

/-! ## The life of a plugin -/

/-- What may happen to a plugin. -/
inductive LifeEvent (σ ε : Type) where
  | start
  | stop
  /-- A task exits, if it serves. -/
  | exit (task : Nat)
  /-- Calls are answered, modules change, and other programs use the machine. -/
  | meanwhile (shared : Shared (World σ) (CompiledQuery ε)) (machine : Machine)

/-- The plugin after something happened to it. -/
def after (p : Plugin σ ε) : LifeEvent σ ε → Plugin σ ε
  | .start => p.start.2.1
  | .stop => p.stop
  | .exit task => (p.exit task).1
  | .meanwhile shared machine => { p with shared, machine }

/-- What happened, as steps in the life of the server. -/
def lifeSteps (p : Plugin σ ε) : LifeEvent σ ε → List LifeStep
  | .start =>
    match p.start.1 with
    | .ok _ => [.started]
    | .error _ => [.failed]
  | .stop => [.stopped]
  | .exit task => if task ∈ p.endpoints.map (·.1) then [.exited task] else []
  | .meanwhile _ _ => []

/-- The plugin after all that happened to it, and its history. -/
def live (p : Plugin σ ε) (events : List (LifeEvent σ ε)) : Plugin σ ε × List LifeStep :=
  events.foldl (fun (p, steps) e => (p.after e, steps ++ p.lifeSteps e)) (p, [])

theorem live_snoc (p : Plugin σ ε) (events : List (LifeEvent σ ε)) (e : LifeEvent σ ε) :
    p.live (events ++ [e]) =
      ((p.live events).1.after e, (p.live events).2 ++ (p.live events).1.lifeSteps e) := by
  simp only [live, List.foldl_append, List.foldl_cons, List.foldl_nil]

/-- Where a plugin stands after a history: it has an endpoint for every task that serves. -/
structure Lives (steps : List LifeStep) (p : Plugin σ ε) : Prop where
  follows : Lifecycle.Follows steps p.life
  endpoints : p.endpoints.map (·.1) = p.life.serving

theorem lives_ofStore (conf : Config.Resolved) (i : Interpreter ε) (machine : Machine)
    (store : Store) (outside : σ) : (ofStore conf i machine store outside).Lives [] where
  follows := Lifecycle.follows_nil
  endpoints := rfl

/-- A start fails, or it succeeds and there is a task that serves an endpoint. -/
theorem start_cases (p : Plugin σ ε) :
    (∃ f, p.start.1 = .error f ∧ p.start.2.1 = { p with life := p.life.step .failed }) ∨
      ∃ endpoint machine, p.start.1 = .ok endpoint ∧ p.start.2.1 =
        { p with
          machine
          life := p.life.step .started
          endpoints := p.endpoints ++ [(p.life.nextTask, endpoint)] } := by
  unfold start
  dsimp only
  split
  · exact .inl ⟨_, rfl, rfl⟩
  · split
    · exact .inl ⟨_, rfl, rfl⟩
    · exact .inr ⟨_, _, rfl, rfl⟩

theorem Lives.start (h : p.Lives steps) : (p.after .start).Lives (steps ++ p.lifeSteps .start) := by
  rcases p.start_cases with ⟨f, hresult, hafter⟩ | ⟨endpoint, machine, hresult, hafter⟩
  · simp only [after, lifeSteps, hresult, hafter]
    exact ⟨h.follows.failed, h.endpoints⟩
  · simp only [after, lifeSteps, hresult, hafter]
    refine ⟨h.follows.started, ?_⟩
    simp only [List.map_append, h.endpoints]
    rfl

/-- A task that has no endpoint does not exit. -/
theorem exit_of_notMem {task : Nat} (h : task ∉ p.endpoints.map (·.1)) : p.exit task = (p, []) := by
  have hnone : p.endpoints.find? (·.1 == task) = none := by
    rw [List.find?_eq_none]
    intro e he hkey
    exact h (List.mem_map.2 ⟨e, he, beq_iff_eq.1 hkey⟩)
  rw [exit, hnone]

theorem exit_of_mem {task : Nat} (h : task ∈ p.endpoints.map (·.1)) :
    (p.exit task).1.life = p.life.step (.exited task) ∧
      (p.exit task).1.endpoints = p.endpoints.filter (·.1 != task) := by
  obtain ⟨e, he, rfl⟩ := List.mem_map.1 h
  have hfound : (p.endpoints.find? (·.1 == e.1)).isSome :=
    List.find?_isSome.2 ⟨e, he, beq_self_eq_true _⟩
  obtain ⟨found, hfind⟩ := Option.isSome_iff_exists.1 hfound
  rw [exit, hfind]
  exact ⟨rfl, rfl⟩

theorem Lives.exit (h : p.Lives steps) (task : Nat) :
    (p.after (.exit task)).Lives (steps ++ p.lifeSteps (.exit task)) := by
  by_cases hmem : task ∈ p.endpoints.map (·.1)
  · obtain ⟨hlife, hendpoints⟩ := exit_of_mem hmem
    have hserves : task ∈ p.life.serving := h.endpoints ▸ hmem
    have hkeys : (p.endpoints.filter (·.1 != task)).map (·.1) = p.life.serving.erase task := by
      rw [h.follows.nodup.erase_eq_filter, ← h.endpoints, List.filter_map]
      rfl
    simp only [after, lifeSteps, if_pos hmem]
    refine ⟨hlife ▸ h.follows.exited hserves, ?_⟩
    rw [hendpoints, hlife, Lifecycle.step_exited hserves, hkeys]
  · simp only [after, lifeSteps, exit_of_notMem hmem, if_neg hmem, List.append_nil]
    exact h

theorem Lives.after (h : p.Lives steps) (e : LifeEvent σ ε) :
    (p.after e).Lives (steps ++ p.lifeSteps e) := by
  cases e with
  | start => exact h.start
  | stop => exact ⟨h.follows.stopped, h.endpoints⟩
  | exit task => exact h.exit task
  | meanwhile shared machine =>
    simp only [Plugin.after, lifeSteps, List.append_nil]
    exact ⟨h.follows, h.endpoints⟩

theorem live_lives (h : p.Lives []) (events : List (LifeEvent σ ε)) :
    (p.live events).1.Lives (p.live events).2 := by
  induction events using List.reverseRecOn with
  | nil => exact h
  | append_singleton events e ih =>
    rw [live_snoc]
    exact ih.after e

/-- The page at `/health` says whether the server is ready. -/
theorem respond_health (readiness : Readiness) (latency : Option Latency) :
    (Diagnostics.respond readiness latency "GET" "/health").status =
      if readiness = .ok then 200 else 503 := by
  have hpath : Diagnostics.pathOf "/health" = "/health" := by decide +kernel
  rw [Diagnostics.respond, hpath]
  cases readiness <;> rfl

/-- Whatever happens to a plugin, it is ready exactly when the most recent start succeeded, it was
    not stopped since, and neither the task of that start nor an older one has exited since; the
    page at `/health` says so. The task of such a start serves, also when an older one has exited
    and the plugin is called not ready. -/
theorem live_readiness (conf : Config.Resolved) (i : Interpreter ε) (machine : Machine)
    (store : Store) (outside : σ) (events : List (LifeEvent σ ε)) :
    let p := ((ofStore conf i machine store outside).live events).1
    let steps := ((ofStore conf i machine store outside).live events).2
    (p.life.readiness = .ok ↔
        ∃ task since, Lifecycle.Runs steps task since ∧ ∀ older < task, .exited older ∉ since) ∧
      (∀ latency, (Diagnostics.respond p.life.readiness latency "GET" "/health").status =
        if p.life.readiness = .ok then 200 else 503) ∧
      ∀ task since, Lifecycle.Runs steps task since → task ∈ p.life.serving := by
  intro p steps
  have h : p.Lives steps := live_lives (lives_ofStore conf i machine store outside) events
  refine ⟨h.follows.ready, respond_health p.life.readiness, fun task since hruns => ?_⟩
  exact h.follows.serving task since hruns.began hruns.notExited

/-- Settings with any port that is free. -/
def freePortConf : Config.Resolved :=
  ⟨{ addr := "127.0.0.1:0" }, .ofPath Config.defaultPath, none⟩

/-- A plugin is started again before its first task has exited. -/
def restart : List (LifeEvent Unit Rego.Session) := [.start, .stop, .start, .exit 0]

/-- The exit of the first task makes the plugin look not ready while the second one serves. -/
theorem live_restart :
    let p := ((ofStore freePortConf Rego.interpreter ⟨⟨[], []⟩, []⟩ {} ()).live restart).1
    let steps := ((ofStore freePortConf Rego.interpreter ⟨⟨[], []⟩, []⟩ {} ()).live restart).2
    Lifecycle.Runs steps 1 [.exited 0] ∧ p.life.serving = [1] ∧
      p.life.readiness = .notReady ∧
      (Diagnostics.respond p.life.readiness none "GET" "/health").status = 503 := by
  intro p steps
  have hsteps : steps = [.started, .stopped] ++ .started :: [.exited 0] := by decide +kernel
  have hready : p.life.readiness = .notReady := by decide +kernel
  have hbegan : Lifecycle.Began steps 1 [.exited 0] :=
    ⟨⟨_, hsteps, rfl⟩, by decide, by decide⟩
  refine ⟨⟨hbegan, by decide, by decide⟩, by decide +kernel, hready, ?_⟩
  rw [hready, respond_health]
  rfl

end Plugin

end AuthGate
