import AuthGate.Policy.Watch
import AuthGate.Proofs.Result
import AuthGate.Proofs.Store.Recompilation
import Mathlib.Data.List.Induction

set_option autoImplicit false

/-! # No notified change is lost

Notices are dropped when the queue is full, and the folder changes while it is read and while what was
read is installed. Still every notice is followed by a load that begins after it, as long as there
are notices in the queue or the loop is at work; so when it rests, the store has the modules that
the folder had after the last notice. The main statement is `run_attended`. -/

namespace AuthGate

/-! ## Modules that are loaded and installed -/

/-- Modules of a folder come sorted by name. -/
theorem Policy.sorted_of_load {t : FileTree} {folder : String} {modules : Policy.Modules}
    (h : Policy.load t folder = .ok modules) : Fields.Sorted modules := by
  rw [load] at h
  split at h
  · cases h
  · refine of_foldlM_eq_ok (fun before node after hbefore hstep => ?_) Fields.sorted_nil h
    obtain ⟨name, n⟩ := node
    cases n with
    | folder => exact Except.ok.inj hstep ▸ hbefore
    | socket => exact Except.ok.inj hstep ▸ hbefore
    | file bytes =>
      dsimp only at hstep
      split at hstep
      · split at hstep
        · exact Except.ok.inj hstep ▸ hbefore.insert _ _
        · cases hstep
      · exact Except.ok.inj hstep ▸ hbefore

/-- A store has the modules that were put in place of its own. -/
theorem Store.modules_replace (s : Store) {modules : Policy.Modules}
    (h : Fields.Sorted modules) : (s.replace modules).1.modules = modules := by
  have hrun := run_announce (Operation.replace modules h).announce_notMem_edits s
  have hfold : (Operation.replace modules h).edits.foldl ModuleStep.edit s.modules =
      Fields.ofList modules := by
    simp only [Operation.edits, List.foldl_cons, List.foldl_map]
    rfl
  show (s.run ((Operation.replace modules h).edits ++ [.announce])).1.modules = modules
  rw [hrun]
  exact hfold.trans (h.ofList_eq (.refl _))

namespace Policy.Watch

/-! ## Notices and loads in a run -/

/-- The watch before the step with a number, counted from zero. -/
def before (w : Watch) (steps : List Step) (k : Nat) : Watch := w.run (steps.take k)

/-- The loop reads modules from the folder in one step and holds them until another. -/
structure Holds (w : Watch) (steps : List Step) (start stop : Nat) (modules : Modules) : Prop where
  load : steps[start]? = some .load
  began : (w.before steps start).phase = .noticed
  read : Policy.load (w.before steps start).files w.folder = .ok modules
  held : ∀ k, start < k → k ≤ stop → (w.before steps k).phase = .loaded modules

/-- The notice that a step sent is attended to: a load that began after it has been installed, or
    there are notices in the queue, or the loop has taken one and has not begun to load, or it has
    begun to after the notice and not yet installed what it read. -/
def Attended (w : Watch) (steps : List Step) (i : Nat) : Prop :=
  (∃ start stop modules, i < start ∧ start < stop ∧ w.Holds steps start stop modules ∧
    steps[stop]? = some .install) ∨
  0 < (w.run steps).queued ∨ (w.run steps).phase = .noticed ∨
  ∃ start modules, i < start ∧ start < steps.length ∧ w.Holds steps start steps.length modules

/-- Whenever the loop reads the folder, it can be read. -/
def LoadsSucceed (w : Watch) (steps : List Step) : Prop :=
  ∀ k, steps[k]? = some .load → (w.before steps k).phase = .noticed →
    ∃ modules, Policy.load (w.before steps k).files w.folder = .ok modules

variable {w : Watch} {steps : List Step} {s : Step} {modules : Modules} {start stop i : Nat}

theorem run_snoc (w : Watch) (steps : List Step) (s : Step) :
    w.run (steps ++ [s]) = (w.run steps).step s := by
  simp only [run, List.foldl_append, List.foldl_cons, List.foldl_nil]

theorem before_length (w : Watch) (steps : List Step) :
    w.before steps steps.length = w.run steps := by
  rw [before, List.take_length]

theorem before_snoc {k : Nat} (h : k ≤ steps.length) :
    w.before (steps ++ [s]) k = w.before steps k := by
  rw [before, before, List.take_append_of_le_length h]

theorem before_snoc_length : w.before (steps ++ [s]) (steps.length + 1) = (w.run steps).step s := by
  rw [← run_snoc, before, List.take_of_length_le (by simp)]

theorem getElem?_snoc {k : Nat} {t : Step} (h : steps[k]? = some t) :
    (steps ++ [s])[k]? = some t := by
  rw [List.getElem?_append_left (List.getElem?_eq_some_iff.1 h).1, h]

theorem folder_step (w : Watch) (s : Step) : (w.step s).folder = w.folder := by
  cases s with
  | change files => rfl
  | notify => rw [step]; split <;> rfl
  | receive => rw [step]; split <;> rfl
  | load => rw [step]; split <;> [(split <;> rfl); rfl]
  | install => rw [step]; split <;> rfl

theorem folder_run (w : Watch) (steps : List Step) : (w.run steps).folder = w.folder := by
  induction steps generalizing w with
  | nil => rfl
  | cons s rest ih => exact (ih (w.step s)).trans (folder_step w s)

theorem Holds.lt_length (h : w.Holds steps start stop modules) : start < steps.length :=
  (List.getElem?_eq_some_iff.1 h.load).1

/-- What was held before a step was held, whatever the step. -/
theorem Holds.snoc (h : w.Holds steps start stop modules) (hstop : stop ≤ steps.length) :
    w.Holds (steps ++ [s]) start stop modules where
  load := getElem?_snoc h.load
  began := by rw [before_snoc (Nat.le_of_lt h.lt_length), h.began]
  read := by rw [before_snoc (Nat.le_of_lt h.lt_length), h.read]
  held k hlow hhigh := by rw [before_snoc (Nat.le_trans hhigh hstop), h.held k hlow hhigh]

/-- What a step leaves is held on. -/
theorem Holds.longer (h : w.Holds steps start steps.length modules)
    (hphase : ((w.run steps).step s).phase = .loaded modules) :
    w.Holds (steps ++ [s]) start (steps.length + 1) modules := by
  have hbefore := h.snoc (s := s) (Nat.le_refl _)
  refine ⟨hbefore.load, hbefore.began, hbefore.read, fun k hlow hhigh => ?_⟩
  rcases Nat.lt_or_eq_of_le hhigh with hlt | rfl
  · exact hbefore.held k hlow (Nat.le_of_lt_succ hlt)
  · rw [before_snoc_length, hphase]

/-- The modules that the loop holds at the end. -/
theorem Holds.phase_eq (h : w.Holds steps start steps.length modules) :
    (w.run steps).phase = .loaded modules := by
  rw [← before_length]
  exact h.held _ h.lt_length (Nat.le_refl _)

/-! ## What follows a notice -/

/-- What has followed the notice that a step sent: there are notices in the queue, or the loop is
    about to load, or it holds what it read after the notice, or it rests and the store has what was
    read after the notice. -/
inductive Followed (w : Watch) (steps : List Step) (i : Nat) : Prop
  | queued (h : 0 < (w.run steps).queued)
  | noticed (h : (w.run steps).phase = .noticed)
  | loaded {start : Nat} {modules : Modules} (hi : i < start)
    (h : w.Holds steps start steps.length modules)
  | installed {start stop : Nat} {modules : Modules} (hi : i < start) (hstop : start < stop)
    (h : w.Holds steps start stop modules) (hinstall : steps[stop]? = some .install)
    (hphase : (w.run steps).phase = .waiting) (hmodules : (w.run steps).store.modules = modules)

/-- A notice that has just been sent, or dropped because the queue is full, is followed. -/
theorem followed_notify (w : Watch) (steps : List Step) (i : Nat) :
    w.Followed (steps ++ [.notify]) i := by
  refine .queued ?_
  rw [run_snoc, step]
  split
  · exact Nat.succ_pos _
  · next hfull => exact Nat.lt_of_lt_of_le (by decide) (Nat.not_lt.1 hfull)

/-- A step that leaves the queue, the loop and the modules as they are. -/
theorem Followed.keep (h : w.Followed steps i)
    (hqueued : ((w.run steps).step s).queued = (w.run steps).queued)
    (hphase : ((w.run steps).step s).phase = (w.run steps).phase)
    (hmodules : ((w.run steps).step s).store.modules = (w.run steps).store.modules) :
    w.Followed (steps ++ [s]) i := by
  cases h with
  | queued h =>
    refine .queued ?_
    rwa [run_snoc, hqueued]
  | noticed h =>
    refine .noticed ?_
    rwa [run_snoc, hphase]
  | loaded hi h =>
    have hlonger := h.longer (s := s) (hphase.trans h.phase_eq)
    rw [← List.length_singleton (a := s), ← List.length_append] at hlonger
    exact .loaded hi hlonger
  | installed hi hstop h hinstall hrests hstore =>
    have hle := Nat.le_of_lt (List.getElem?_eq_some_iff.1 hinstall).1
    refine .installed hi hstop (h.snoc hle) (getElem?_snoc hinstall) ?_ ?_
    · rwa [run_snoc, hphase]
    · rwa [run_snoc, hmodules]

/-- A step whose turn it is not. -/
theorem Followed.idle (h : w.Followed steps i) (hstep : (w.run steps).step s = w.run steps) :
    w.Followed (steps ++ [s]) i :=
  h.keep (by rw [hstep]) (by rw [hstep]) (by rw [hstep])

theorem Followed.receive (h : w.Followed steps i) : w.Followed (steps ++ [.receive]) i := by
  cases hphase : (w.run steps).phase with
  | waiting =>
    cases hqueued : (w.run steps).queued with
    | zero =>
      refine h.idle ?_
      simp only [Watch.step, hphase, hqueued]
    | succ n =>
      refine .noticed ?_
      simp only [run_snoc, Watch.step, hphase, hqueued]
  | noticed =>
    refine h.idle ?_
    simp only [Watch.step, hphase]
  | loaded m =>
    refine h.idle ?_
    simp only [Watch.step, hphase]

/-- A load that begins now begins after the notice. -/
theorem Followed.load (h : w.Followed steps i) (hi : i < steps.length)
    (hloads : w.LoadsSucceed (steps ++ [.load])) : w.Followed (steps ++ [.load]) i := by
  cases hphase : (w.run steps).phase with
  | noticed =>
    have hload : (steps ++ [Step.load])[steps.length]? = some .load := by simp
    have hbefore : w.before (steps ++ [.load]) steps.length = w.run steps := by
      rw [before_snoc (Nat.le_refl _), before_length]
    obtain ⟨modules, hread⟩ := hloads _ hload (by rw [hbefore, hphase])
    rw [hbefore] at hread
    have hstep : (w.run steps).step .load = { w.run steps with phase := .loaded modules } := by
      simp only [Watch.step, hphase, folder_run, hread]
    have hheld : w.Holds (steps ++ [.load]) steps.length (steps ++ [Step.load]).length modules := by
      refine ⟨hload, by rw [hbefore, hphase], by rw [hbefore, hread], fun k hlow hhigh => ?_⟩
      obtain rfl : k = steps.length + 1 := by
        rw [List.length_append, List.length_singleton] at hhigh
        omega
      rw [before_snoc_length, hstep]
    exact .loaded hi hheld
  | waiting =>
    refine h.idle ?_
    simp only [Watch.step, hphase]
  | loaded m =>
    refine h.idle ?_
    simp only [Watch.step, hphase]

/-- What is installed now was read after the notice, unless the notice is still in the queue. -/
theorem Followed.install (h : w.Followed steps i) : w.Followed (steps ++ [.install]) i := by
  cases hphase : (w.run steps).phase with
  | loaded m =>
    have hstep : (w.run steps).step .install = { w.run steps with
        phase := .waiting, store := ((w.run steps).store.replace m).1 } := by
      simp only [Watch.step, hphase]
    cases h with
    | queued h =>
      refine .queued ?_
      rwa [run_snoc, hstep]
    | noticed h => cases hphase.symm.trans h
    | @loaded start modules hi h =>
      obtain rfl : m = modules := ReloadPhase.loaded.inj (hphase.symm.trans h.phase_eq)
      refine .installed hi h.lt_length (h.snoc (Nat.le_refl _)) (by simp) ?_ ?_
      · rw [run_snoc, hstep]
      · rw [run_snoc, hstep]
        exact Store.modules_replace _ (sorted_of_load h.read)
    | installed _ _ _ _ hrests => cases hphase.symm.trans hrests
  | waiting =>
    refine h.idle ?_
    simp only [Watch.step, hphase]
  | noticed =>
    refine h.idle ?_
    simp only [Watch.step, hphase]

theorem Followed.step (h : w.Followed steps i) (hi : i < steps.length)
    (hloads : w.LoadsSucceed (steps ++ [s])) : w.Followed (steps ++ [s]) i := by
  cases s with
  | change files => exact h.keep rfl rfl rfl
  | notify => exact followed_notify w steps i
  | receive => exact h.receive
  | load => exact h.load hi hloads
  | install => exact h.install

theorem LoadsSucceed.of_snoc (h : w.LoadsSucceed (steps ++ [s])) : w.LoadsSucceed steps := by
  intro k hk hphase
  have hle := Nat.le_of_lt (List.getElem?_eq_some_iff.1 hk).1
  rw [← before_snoc (s := s) hle] at hphase ⊢
  exact h k (getElem?_snoc hk) hphase

/-- Every notice of a run is followed. -/
theorem run_followed (hloads : w.LoadsSucceed steps) (hi : steps[i]? = some .notify) :
    w.Followed steps i := by
  induction steps using List.reverseRecOn with
  | nil => cases hi
  | append_singleton steps s ih =>
    by_cases hlt : i < steps.length
    · rw [List.getElem?_append_left hlt] at hi
      exact (ih hloads.of_snoc hi).step hlt hloads
    · obtain ⟨hbound, hget⟩ := List.getElem?_eq_some_iff.1 hi
      rw [List.length_append, List.length_singleton] at hbound
      obtain rfl : i = steps.length := by omega
      obtain rfl : s = .notify := by simpa using hget
      exact followed_notify w steps _

/-- For every order of changes of the folder, notices and steps of the loop: each notice so far is
    attended to. So when there are no notices in the queue and the loop waits for one, the store has
    the modules that the folder had at some moment after the last notice. -/
theorem run_attended (hloads : w.LoadsSucceed steps) :
    (∀ i, steps[i]? = some .notify → w.Attended steps i) ∧
      ((w.run steps).queued = 0 → (w.run steps).phase = .waiting →
        ∀ i, steps[i]? = some .notify → ∃ k, i < k ∧ k < steps.length ∧
          Policy.load (w.before steps k).files w.folder = .ok (w.run steps).store.modules) := by
  constructor
  · intro i hi
    cases run_followed hloads hi with
    | queued h => exact .inr (.inl h)
    | noticed h => exact .inr (.inr (.inl h))
    | loaded hi h => exact .inr (.inr (.inr ⟨_, _, hi, h.lt_length, h⟩))
    | installed hi hstop h hinstall => exact .inl ⟨_, _, _, hi, hstop, h, hinstall⟩
  · intro hempty hrests i hi
    cases run_followed hloads hi with
    | queued h => omega
    | noticed h => cases hrests.symm.trans h
    | loaded _ h => cases hrests.symm.trans h.phase_eq
    | installed hi _ h _ _ hmodules => exact ⟨_, hi, h.lt_length, hmodules ▸ h.read⟩

/-- A folder with modules of these names, all of them empty. -/
def folderOf (names : List String) : FileTree :=
  ⟨[], (["p"], .folder) :: names.map fun name => (["p", name], .file [])⟩

/-- A folder that gets a second module. -/
theorem run_attended_folderOf :
    let w : Watch := { files := folderOf ["a.rego"], folder := "p", store := {} }
    let steps : List Step :=
      [.change (folderOf ["a.rego", "b.rego"]), .notify, .receive, .load, .install]
    w.LoadsSucceed steps ∧ (w.run steps).queued = 0 ∧ (w.run steps).phase = .waiting ∧
      ∃ k, 1 < k ∧ k < steps.length ∧
        Policy.load (w.before steps k).files w.folder = .ok (w.run steps).store.modules := by
  intro w steps
  have hloads : w.LoadsSucceed steps := by
    intro k hk _
    obtain rfl : k = 3 := by
      rcases k with _ | _ | _ | _ | _ | k <;> first | rfl | cases hk
    exact ⟨[("a.rego", ""), ("b.rego", "")], by decide +kernel⟩
  have hempty : (w.run steps).queued = 0 := by decide +kernel
  have hrests : (w.run steps).phase = .waiting := by decide +kernel
  exact ⟨hloads, hempty, hrests, (run_attended hloads).2 hempty hrests 1 rfl⟩

end Policy.Watch

end AuthGate
