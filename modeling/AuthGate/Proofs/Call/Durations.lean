import AuthGate.Call.Pipeline

set_option autoImplicit false

/-! # The durations of a call

A total that no duration can hold breaks a call off. A clock of 64 bits and measurements of 64 bits
are far from that: only a few of either add up in one total. The main statement is
`Small.stopAll_eq_some`: all timers of a call can be stopped, whatever was recorded. -/

namespace AuthGate.Timers

/-- More than 64 bits hold. -/
def word : Nat := 0x10000000000000000

/-- What has been recorded under a name. -/
def total (name : String) (t : Timers) : Nat := (Fields.get? name t.recorded).getD 0

theorem record_eq_some {name : String} {elapsed : Nat} {t : Timers}
    (h : t.total name + elapsed ≤ maxDuration) :
    ∃ t', t.record name elapsed = some t' ∧ t'.running = t.running ∧
      ∀ other, t'.total other = t.total other + if name = other then elapsed else 0 := by
  refine ⟨{ t with recorded := Fields.insert name (t.total name + elapsed) t.recorded },
    if_neg (Nat.not_lt.2 h), rfl, fun other => ?_⟩
  simp only [total, Fields.get?_insert]
  by_cases ho : name = other
  · subst ho
    simp
  · simp [ho]

/-- Measured durations can be added to totals that are not near the longest duration. -/
theorem recordAll_eq_some {entries : List (String × UInt64)}
    (hd : (entries.map (·.1)).Nodup) {b : Nat} (hfit : b + word ≤ maxDuration) {t : Timers}
    (hb : ∀ name ∈ entries.map (·.1), t.total name ≤ b) (hall : ∀ name, t.total name ≤ b + word) :
    ∃ t', entries.foldlM (fun t (name, nanos) => t.record name nanos.toNat) t = some t' ∧
      t'.running = t.running ∧ ∀ name, t'.total name ≤ b + word := by
  induction entries generalizing t with
  | nil => exact ⟨t, rfl, rfl, hall⟩
  | cons e rest ih =>
    obtain ⟨name, nanos⟩ := e
    obtain ⟨hnew, hd⟩ := List.nodup_cons.1 hd
    have hnanos : nanos.toNat < word := nanos.toNat_lt
    have hname : t.total name ≤ b := hb name (by simp)
    have hroom : t.total name + nanos.toNat ≤ maxDuration := by omega
    obtain ⟨t₁, hrecord, hrunning, htotal⟩ := record_eq_some hroom
    -- the names differ, so that the total of none of the rest has grown yet
    have hb₁ : ∀ other ∈ rest.map (·.1), t₁.total other ≤ b := by
      intro other ho
      have hne : name ≠ other := fun h => hnew (h ▸ ho)
      rw [htotal, if_neg hne]
      exact hb other (List.mem_cons_of_mem _ ho)
    have hall₁ : ∀ other, t₁.total other ≤ b + word := by
      intro other
      rw [htotal]
      split
      · next he =>
        subst he
        omega
      · exact hall other
    obtain ⟨t', hfold, hrunning', htotal'⟩ := ih hd hb₁ hall₁
    refine ⟨t', ?_, hrunning'.trans hrunning, htotal'⟩
    simp only [List.foldlM_cons, hrecord]
    exact hfold

/-- Few timers run, and no total is more than `k` times what 64 bits hold. -/
structure Small (k : Nat) (t : Timers) : Prop where
  running : t.running.length ≤ 2
  total : ∀ name, t.total name ≤ k * word

theorem small_of_built (began built : Nat) :
    Small 0 ((({} : Timers).start handlerTimer began).start inputTimer built) where
  running := Fields.length_insert_le ..
  total _ := Nat.zero_le _

/-- A timer of a call can be stopped. -/
theorem Small.stop_eq_some {k : Nat} (hk : k < 8) {t : Timers} (h : Small k t) (name : String)
    (now : UInt64) : ∃ r t', t.stop name now.toNat = some (r, t') ∧ Small (k + 1) t' := by
  have hnow : now.toNat < word := now.toNat_lt
  have hroom : 8 * word ≤ maxDuration := by decide
  have htotal := h.total
  cases hrun : Fields.get? name t.running with
  | none =>
    refine ⟨none, t, by simp [stop, hrun], h.running, fun other => ?_⟩
    exact Nat.le_trans (htotal other) (Nat.mul_le_mul_right word (Nat.le_succ k))
  | some began =>
    let stopped : Timers := { t with running := Fields.erase name t.running }
    have hname : stopped.total name ≤ k * word := htotal name
    have hfit : stopped.total name + (now.toNat - began) ≤ maxDuration := by
      have := Nat.mul_le_mul_right word hk
      rw [Nat.succ_mul] at this
      omega
    obtain ⟨t', hrecord, hrunning, htotal'⟩ := record_eq_some hfit
    refine ⟨some (now.toNat - began), t', by simp [stop, hrun, stopped, hrecord], ?_, ?_⟩
    · rw [hrunning]
      exact Nat.le_trans (List.length_filter_le _ _) h.running
    · intro other
      have hother : stopped.total other ≤ k * word := htotal other
      rw [htotal', Nat.succ_mul]
      split <;> omega

/-- What the engine measured can be added to the timers of a call. -/
theorem Small.recordMetrics_eq_some {k : Nat} (hk : k < 8) {t : Timers} (h : Small k t)
    (m : Measured) : ∃ t', Pipeline.recordMetrics m t = some t' ∧ Small (k + 1) t' := by
  have hroom : k * word + word ≤ maxDuration := by
    have := Nat.mul_le_mul_right word hk
    rw [Nat.succ_mul] at this
    exact Nat.le_trans this (by decide)
  obtain ⟨t', hrecord, hrunning, htotal⟩ := recordAll_eq_some m.distinct hroom
    (fun name _ => h.total name) fun name => Nat.le_add_right_of_le (h.total name)
  refine ⟨t', hrecord, hrunning ▸ h.running, fun name => ?_⟩
  rw [Nat.succ_mul]
  exact htotal name

theorem stopEach_eq_some {names : List String} (now : UInt64) {k : Nat}
    (hk : k + names.length ≤ 8) {t : Timers} (h : Small k t) :
    ∃ t', names.foldlM (fun (t : Timers) name => (t.stop name now.toNat).map (·.2)) t =
      some t' := by
  induction names generalizing t k with
  | nil => exact ⟨t, rfl⟩
  | cons name rest ih =>
    rw [List.length_cons] at hk
    obtain ⟨r, t₁, hstop, hsmall⟩ := h.stop_eq_some (by omega) name now
    obtain ⟨t', hrest⟩ := ih (by omega) hsmall
    refine ⟨t', ?_⟩
    simp only [List.foldlM_cons, hstop]
    exact hrest

/-- All timers of a call can be stopped. -/
theorem Small.stopAll_eq_some {k : Nat} (hk : k ≤ 6) {t : Timers} (h : Small k t)
    (now : UInt64) : ∃ t', t.stopAll now.toNat = some t' := by
  apply stopEach_eq_some now _ h
  have := h.running
  rw [List.length_map]
  omega

/-! ## The timers of a call that was evaluated -/

/-- The timers of a call after its evaluation, before they are stopped: it began and its input was
    built at these moments, and the engine measured `m`. -/
def evaluated? (began built : UInt64) (m : Measured) : Option Timers := do
  let t := (({} : Timers).start handlerTimer began.toNat).start inputTimer built.toNat
  let (_, t) ← t.stop inputTimer built.toNat
  Pipeline.recordMetrics m t

theorem exists_evaluated?_eq_some (began built : UInt64) (m : Measured) :
    ∃ t, evaluated? began built m = some t ∧ Small 2 t := by
  obtain ⟨r, t₁, hstop, hsmall⟩ :=
    (small_of_built began.toNat built.toNat).stop_eq_some (by omega) inputTimer built
  obtain ⟨t₂, hrecord, hsmall⟩ := hsmall.recordMetrics_eq_some (by omega) m
  refine ⟨t₂, ?_, hsmall⟩
  simp only [evaluated?, hstop, bind, Option.bind_some, hrecord]

theorem exists_evaluated?_stopAll_eq_some (began built ended : UInt64) (m : Measured) :
    ∃ t, ((evaluated? began built m).bind fun t => t.stopAll ended.toNat) = some t := by
  obtain ⟨t, ht, hsmall⟩ := exists_evaluated?_eq_some began built m
  obtain ⟨t', hstop⟩ := hsmall.stopAll_eq_some (by omega) ended
  exact ⟨t', by rw [ht, Option.bind_some, hstop]⟩

/-- The timers that the entry of an evaluated call shows. -/
def ofCall (began built ended : UInt64) (m : Measured) : Timers :=
  ((evaluated? began built m).bind fun t => t.stopAll ended.toNat).get
    (Option.isSome_iff_exists.2 (exists_evaluated?_stopAll_eq_some began built ended m))

theorem stopAll_eq_some_ofCall {began built : UInt64} {m : Measured} {t : Timers}
    (h : evaluated? began built m = some t) (ended : UInt64) :
    t.stopAll ended.toNat = some (ofCall began built ended m) := by
  simp only [ofCall, h, Option.bind_some, Option.some_get]

end AuthGate.Timers
