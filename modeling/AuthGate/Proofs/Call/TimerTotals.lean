import AuthGate.Proofs.Call.Durations
import AuthGate.Proofs.Call.Stopwatch
import AuthGate.Proofs.Call.Totals

set_option autoImplicit false

/-! # Timers add up

Timers are kept in two maps, but each of them goes its own way: what happens under other names does
not matter for it. After any operations the timers stand as if each were a stopwatch with its own
part of the history, and the operations break off exactly if one of these has counted more than a
duration holds (`agrees_run`). The main statement is `run_addsUp`. -/

namespace AuthGate

namespace Timers

open Stopwatch (Event Runs RunsSince WasRecorded Lapped recordings)

/-! ## Operations -/

/-- Every running timer stopped, each at a moment of its own. -/
def stopEach (moment : String → Nat) (t : Timers) : Option Timers :=
  (t.running.map (·.1)).foldlM (fun t name => (t.stop name (moment name)).map (·.2)) t

/-- What is done with the timers. -/
inductive Operation where
  | record (name : String) (d : Duration)
  | start (name : String) (now : Nat)
  | stop (name : String) (now : Nat)
  /-- The clock goes on while one timer after the other is stopped. -/
  | stopAll (moment : String → Nat)

def step (t : Timers) : Operation → Option Timers
  | .record name d => t.record name d.total
  | .start name now => some (t.start name now)
  | .stop name now => (t.stop name now).map (·.2)
  | .stopAll moment => t.stopEach moment

/-- The timers after these operations, if no total was too long. -/
def run (ops : List Operation) : Option Timers := ops.foldlM step {}

/-- What an operation is for the timer of a name. -/
def Operation.event? (name : String) : Operation → Option Event
  | .record other d => if other = name then some (.recorded d) else none
  | .start other now => if other = name then some (.started now) else none
  | .stop other now => if other = name then some (.stopped now) else none
  | .stopAll moment => some (.stopped (moment name))

/-- What happened to the timer of a name. -/
def history (name : String) (ops : List Operation) : List Event := ops.filterMap (·.event? name)

/-- The timer of a name as a stopwatch. -/
def watch (name : String) (t : Timers) : Stopwatch :=
  ⟨Fields.get? name t.running, Fields.get? name t.recorded⟩

/-! ## Timers and stopwatches -/

variable {t t' : Timers} {r : Option Timers} {w w' : String → Stopwatch} {ops : List Operation}
  {name : String}

/-- Timers that stand as these stopwatches do, none of which has counted more than a duration
    holds; without timers, one of the stopwatches has counted more. -/
inductive Agrees : Option Timers → (String → Stopwatch) → Prop
  | standing {t : Timers} {w : String → Stopwatch} (same : ∀ name, t.watch name = w name)
    (fits : ∀ name, (w name).total ≤ maxDuration) : Agrees (some t) w
  | fault {w : String → Stopwatch} (name : String) (long : maxDuration < (w name).total) :
    Agrees none w

theorem Agrees.congr (h : Agrees r w) (hsame : ∀ name, w name = w' name) : Agrees r w' :=
  funext hsame ▸ h

theorem Agrees.eq_none_iff (h : Agrees r w) :
    r = none ↔ ∃ name, maxDuration < (w name).total := by
  cases h with
  | standing same fits =>
    refine iff_of_false (by simp) ?_
    rintro ⟨name, hlong⟩
    exact Nat.not_lt.2 (fits name) hlong
  | fault name long => exact iff_of_true rfl ⟨name, long⟩

/-- A total that is too long stays so. -/
theorem Agrees.bind {f : Timers → Option Timers} (h : Agrees r w)
    (hstep : ∀ t, Agrees (some t) w → Agrees (f t) w')
    (hgrows : ∀ name, (w name).total ≤ (w' name).total) : Agrees (r.bind f) w' := by
  cases h with
  | standing same fits => exact hstep _ (.standing same fits)
  | fault name long => exact .fault name (Nat.lt_of_lt_of_le long (hgrows name))

/-- A duration is recorded on one stopwatch and none of the others. -/
theorem Agrees.record (h : Agrees (some t) w) (name : String) (elapsed : Nat) :
    Agrees (t.record name elapsed)
      (fun other => if name = other then (w other).add elapsed else w other) := by
  cases h with
  | standing same fits =>
    have htotal : t.total name = (w name).total := by rw [← same]; rfl
    by_cases hfit : t.total name + elapsed ≤ maxDuration
    · have hrecord : t.record name elapsed =
          some { t with recorded := Fields.insert name (t.total name + elapsed) t.recorded } :=
        if_neg (Nat.not_lt.2 hfit)
      rw [hrecord]
      refine .standing (fun other => ?_) fun other => ?_
      · by_cases ho : name = other
        · subst ho
          rw [if_pos rfl, Stopwatch.add, ← htotal, ← same, watch, watch, Fields.get?_insert,
            if_pos rfl]
        · rw [if_neg ho, ← same, watch, watch, Fields.get?_insert, if_neg ho]
      · by_cases ho : name = other
        · subst ho
          rwa [if_pos rfl, Stopwatch.total_add, ← htotal]
        · rw [if_neg ho]
          exact fits other
    · have hrecord : t.record name elapsed = none := if_pos (Nat.not_le.1 hfit)
      rw [hrecord]
      refine .fault name ?_
      rw [if_pos rfl, Stopwatch.total_add, ← htotal]
      exact Nat.not_le.1 hfit

theorem stop_of_get?_eq_none (h : Fields.get? name t.running = none) (now : Nat) :
    t.stop name now = some (none, t) := by
  rw [stop, h]

theorem stop_of_get?_eq_some {began : Nat} (h : Fields.get? name t.running = some began)
    (now : Nat) :
    t.stop name now =
      (({ t with running := Fields.erase name t.running } : Timers).record name
        (now - began)).map fun t' => (some (now - began), t') := by
  simp only [stop, h]
  cases ({ t with running := Fields.erase name t.running } : Timers).record name (now - began) <;>
    rfl

theorem Agrees.stop (h : Agrees (some t) w) (name : String) (now : Nat) :
    Agrees ((t.stop name now).map (·.2))
      (fun other => if name = other then (w other).stop now else w other) := by
  cases h with
  | standing same fits =>
    cases hrun : Fields.get? name t.running with
    | none =>
      rw [stop_of_get?_eq_none hrun]
      refine Agrees.congr (.standing same fits) fun other => ?_
      split
      · next ho =>
        subst ho
        exact (Stopwatch.stop_of_since_eq_none (by rw [← same]; exact hrun) now).symm
      · rfl
    | some began =>
      simp only [stop_of_get?_eq_some hrun, Option.map_map, Function.comp_def, Option.map_id']
      -- the timer is taken out first, and its time is recorded then
      have hout : Agrees (some { t with running := Fields.erase name t.running })
          (fun other => if name = other then { w other with since := none } else w other) := by
        refine .standing (fun other => ?_) fun other => ?_
        · rw [watch, Fields.get?_erase, ← same]
          split <;> rfl
        · refine Nat.le_trans (Nat.le_of_eq ?_) (fits other)
          split <;> rfl
      refine (hout.record name (now - began)).congr fun other => ?_
      by_cases ho : name = other
      · subst ho
        rw [if_pos rfl, if_pos rfl, if_pos rfl]
        exact (Stopwatch.stop_of_since_eq_some (by rw [← same]; exact hrun) now).symm
      · rw [if_neg ho, if_neg ho, if_neg ho]

/-- One timer after the other is stopped; one that comes twice does not run the second time. -/
theorem Agrees.stopNames (h : Agrees (some t) w) (names : List String) (moment : String → Nat) :
    Agrees (names.foldlM (fun (t : Timers) name => (t.stop name (moment name)).map (·.2)) t)
      (fun name => if name ∈ names then (w name).stop (moment name) else w name) := by
  induction names generalizing t w with
  | nil => exact h.congr fun name => (if_neg List.not_mem_nil).symm
  | cons first rest ih =>
    rw [List.foldlM_cons]
    refine Agrees.congr
      ((h.stop first (moment first)).bind (fun _ hstopped => ih hstopped) fun name => ?_)
      fun name => ?_
    · by_cases hrest : name ∈ rest
      · rw [if_pos hrest]
        exact Stopwatch.total_le_stop _ _
      · rw [if_neg hrest]
    · by_cases hfirst : first = name
      · subst hfirst
        rw [if_pos rfl, Stopwatch.stop_stop, ite_self, if_pos (List.mem_cons_self ..)]
      · simp only [if_neg hfirst, List.mem_cons, Ne.symm hfirst, false_or]

theorem Agrees.stopEach (h : Agrees (some t) w) (moment : String → Nat) :
    Agrees (t.stopEach moment) (fun name => (w name).stop (moment name)) := by
  refine (h.stopNames _ moment).congr fun name => ?_
  split
  · rfl
  · next hname =>
    cases h with
    | standing same fits =>
      have hsince : (w name).since = none := by
        rw [← same]
        exact Fields.get?_eq_none_iff.2 hname
      exact (Stopwatch.stop_of_since_eq_none hsince _).symm

/-- An operation is for each timer what it is for a stopwatch by itself. -/
theorem Agrees.step (h : Agrees (some t) w) (op : Operation) :
    Agrees (t.step op) (fun name => (w name).after (op.event? name)) := by
  cases op with
  | record name d =>
    refine (h.record name d.total).congr fun other => ?_
    rw [Operation.event?]
    split <;> rfl
  | start name now =>
    cases h with
    | standing same fits =>
      refine .standing (fun other => ?_) fun other => ?_
      · rw [Operation.event?, watch, start, Fields.get?_insert, ← same]
        split <;> rfl
      · refine Nat.le_trans (Nat.le_of_eq ?_) (fits other)
        rw [Operation.event?]
        split <;> rfl
  | stop name now =>
    refine (h.stop name now).congr fun other => ?_
    rw [Operation.event?]
    split <;> rfl
  | stopAll moment => exact h.stopEach moment

theorem run_snoc (ops : List Operation) (op : Operation) :
    run (ops ++ [op]) = (run ops).bind fun t => t.step op := by
  rw [run, List.foldlM_append]
  refine congrArg _ (funext fun t => ?_)
  rw [List.foldlM_cons]
  cases t.step op <;> rfl

theorem history_snoc (name : String) (ops : List Operation) (op : Operation) :
    history name (ops ++ [op]) = history name ops ++ (op.event? name).toList := by
  rw [history, List.filterMap_append, ← history]
  cases h : op.event? name with
  | none => rw [List.filterMap_cons_none h, List.filterMap_nil, Option.toList_none]
  | some e => rw [List.filterMap_cons_some h, List.filterMap_nil, Option.toList_some]

/-- After any operations every timer stands as a stopwatch with its own history would; they break
    off if and only if one of these has counted more than a duration holds. -/
theorem agrees_run (ops : List Operation) :
    Agrees (run ops) (fun name => Stopwatch.run (history name ops)) := by
  induction ops using List.reverseRecOn with
  | nil => exact .standing (fun _ => rfl) fun _ => Nat.zero_le _
  | append_singleton ops op ih =>
    rw [run_snoc]
    refine Agrees.congr (ih.bind (fun t ht => ht.step op) fun name => ?_) fun name => ?_
    · exact Stopwatch.total_le_after _ _
    · rw [history_snoc, Stopwatch.run_append_toList]

/-! ## What is shown -/

theorem watch_of_run (h : run ops = some t) (name : String) :
    t.watch name = Stopwatch.run (history name ops) := by
  have hagrees := agrees_run ops
  rw [h] at hagrees
  cases hagrees with
  | standing same fits => exact same name

theorem get?_all (name : String) (t : Timers) :
    Fields.get? name t.all = (t.watch name).counted.map (· % word) :=
  Fields.get?_mapValues _ name t.recorded

theorem mem_names_all_iff : name ∈ t.all.map (·.1) ↔ (t.watch name).counted.isSome = true := by
  rw [all, Fields.names_mapValues, watch, Option.isSome_iff_ne_none, Ne, Fields.get?_eq_none_iff,
    not_not]

/-- A timer that was stopped gives the time since its start, if it ran. -/
theorem eq_map_of_stop {now : Nat} {elapsed? : Option Nat}
    (h : t.stop name now = some (elapsed?, t')) :
    elapsed? = (t.watch name).since.map (now - ·) := by
  rw [watch]
  cases hrun : Fields.get? name t.running with
  | none =>
    rw [stop_of_get?_eq_none hrun] at h
    cases h
    rfl
  | some began =>
    rw [stop_of_get?_eq_some hrun] at h
    obtain ⟨_, -, hresult⟩ := Option.map_eq_some_iff.1 h
    cases hresult
    rfl

theorem running_eq_nil_of_since (h : ∀ name, (t.watch name).since = none) : t.running = [] := by
  rw [List.eq_nil_iff_forall_not_mem]
  intro f hf
  exact Fields.get?_eq_none_iff.1 (h f.1) (List.mem_map_of_mem hf)

/-! ## Words -/

/-- What has been recorded fits into words. -/
def InWords (t : Timers) : Prop := ∃ totals : Totals, t.recorded = totals.toNanos

theorem InWords.record {elapsed : Nat} (h : t.InWords) (hrecord : t.record name elapsed = some t') :
    t'.InWords := by
  have hfit : elapsed ≤ maxDuration := by
    refine Nat.le_of_not_lt fun hlong => ?_
    rw [Timers.record, if_pos (Nat.lt_of_lt_of_le hlong (Nat.le_add_left ..))] at hrecord
    cases hrecord
  obtain ⟨totals, htotals⟩ := h
  obtain ⟨d, rfl⟩ := Duration.exists_total_eq hfit
  rw [record_words htotals] at hrecord
  obtain ⟨totals', -, rfl⟩ := Option.map_eq_some_iff.1 hrecord
  exact ⟨totals', rfl⟩

theorem InWords.stop {now : Nat} (h : t.InWords)
    (hstop : (t.stop name now).map (·.2) = some t') : t'.InWords := by
  cases hrun : Fields.get? name t.running with
  | none =>
    rw [stop_of_get?_eq_none hrun] at hstop
    cases hstop
    exact h
  | some began =>
    simp only [stop_of_get?_eq_some hrun, Option.map_map, Function.comp_def,
      Option.map_id'] at hstop
    exact InWords.record (t := { t with running := Fields.erase name t.running }) h hstop

/-- What every step of a fold keeps, the whole fold keeps. -/
theorem InWords.foldlM {α : Type} {f : Timers → α → Option Timers} {xs : List α}
    (hstep : ∀ t x t', t.InWords → f t x = some t' → t'.InWords) (h : t.InWords)
    (hfold : xs.foldlM f t = some t') : t'.InWords := by
  induction xs generalizing t with
  | nil =>
    cases hfold
    exact h
  | cons x rest ih =>
    rw [List.foldlM_cons] at hfold
    obtain ⟨t₁, hfirst, hrest⟩ := Option.bind_eq_some_iff.1 hfold
    exact ih (hstep t x t₁ h hfirst) hrest

theorem InWords.step {op : Operation} (h : t.InWords) (hstep : t.step op = some t') :
    t'.InWords := by
  cases op with
  | record name d => exact h.record hstep
  | start name now =>
    cases hstep
    exact h
  | stop name now => exact h.stop hstep
  | stopAll moment => exact h.foldlM (fun _ _ _ h₁ hstop => h₁.stop hstop) hstep

theorem inWords_of_run (h : run ops = some t) : t.InWords :=
  InWords.foldlM (fun _ _ _ h₁ hstep => h₁.step hstep) ⟨[], rfl⟩ h

/-! ## Durations alone -/

/-- The operation that records a duration. -/
def Operation.ofRecord : String × Duration → Operation
  | (name, d) => .record name d

/-- What a name is given in all. -/
def spent (name : String) (records : List (String × Duration)) : Nat :=
  ((records.filter (·.1 = name)).map (·.2.total)).sum

variable {records records' : List (String × Duration)}

theorem spent_eq_of_perm (h : records.Perm records') (name : String) :
    spent name records = spent name records' :=
  ((h.filter _).map _).sum_nat

theorem history_ofRecord (name : String) (records : List (String × Duration)) :
    history name (records.map .ofRecord) =
      (records.filter (·.1 = name)).map fun r => .recorded r.2 := by
  induction records with
  | nil => rfl
  | cons r rest ih =>
    rw [history] at ih
    rw [history, List.map_cons]
    by_cases hname : r.1 = name
    · rw [List.filter_cons_of_pos (by simpa using hname), List.map_cons, ← ih]
      exact List.filterMap_cons_some (if_pos hname)
    · rw [List.filter_cons_of_neg (by simpa using hname), ← ih]
      exact List.filterMap_cons_none (if_neg hname)

theorem total_run_ofRecord (name : String) (records : List (String × Duration)) :
    (Stopwatch.run (history name (records.map .ofRecord))).total = spent name records := by
  rw [history_ofRecord, spent]
  generalize records.filter (·.1 = name) = own
  have hlapped : ¬ Lapped (own.map fun r => .recorded r.2) :=
    Stopwatch.not_lapped_of_stopped_notMem fun now hmem => by simp at hmem
  have hrecordings : recordings (own.map fun r => .recorded r.2) = own.map (·.2) := by
    rw [recordings, List.filterMap_map]
    exact congrFun List.filterMap_eq_map' own
  rw [Stopwatch.total_run_of_not_lapped hlapped, hrecordings, List.map_map, Function.comp_def]

theorem run_ofRecord (records : List (String × Duration)) :
    run (records.map .ofRecord) =
      (Totals.recordAll records).map fun totals => { recorded := totals.toNanos } := by
  induction records using List.reverseRecOn with
  | nil => rfl
  | append_singleton records r ih =>
    obtain ⟨name, d⟩ := r
    rw [List.map_append, List.map_singleton, run_snoc, ih, Totals.recordAll_snoc]
    cases Totals.recordAll records with
    | none => rfl
    | some totals =>
      have hwords := record_words (t := { recorded := totals.toNanos }) rfl name d
      rw [Option.map_some, Option.bind_some, Option.bind_some, Operation.ofRecord, step, hwords]

/-! ## Adding up -/

/-- What timers show and give after these operations. -/
structure AddsUp (ops : List Operation) (t : Timers) : Prop where
  /-- A name is shown that was recorded, or whose timer was stopped while it ran. -/
  shown : ∀ name, name ∈ t.all.map (·.1) ↔
    WasRecorded (history name ops) ∨ Lapped (history name ops)
  /-- A timer that never ran when it was stopped shows what was recorded, as far as 64 bits hold
      it. -/
  sum : ∀ name, WasRecorded (history name ops) → ¬ Lapped (history name ops) →
    Fields.get? name t.all =
      some (((recordings (history name ops)).map Duration.total).sum % 0x10000000000000000)
  /-- What is done under other names does not matter. -/
  apart : ∀ name ops' t', run ops' = some t' → history name ops = history name ops' →
    Fields.get? name t.all = Fields.get? name t'.all
  /-- Nor does the order in which durations are recorded. -/
  unordered : ∀ name ops' t', run ops' = some t' →
    ¬ Lapped (history name ops) → ¬ Lapped (history name ops') →
    (recordings (history name ops)).Perm (recordings (history name ops')) →
    Fields.get? name t.all = Fields.get? name t'.all
  /-- A timer that is stopped gives a duration exactly if it runs, counted from its last start. -/
  stopped : ∀ name now elapsed? t', t.stop name now = some (elapsed?, t') →
    (elapsed?.isSome = true ↔ Runs (history name ops)) ∧
    ∀ began, RunsSince began (history name ops) → elapsed? = some (now - began)
  /-- All are stopped at one moment by a clock that stands still meanwhile. -/
  atOnce : ∀ now, t.stopAll now = t.stopEach fun _ => now
  /-- Once all are stopped none runs, and every one that ran is shown. -/
  ended : ∀ moment t', t.stopEach moment = some t' →
    t'.running = [] ∧ ∀ name, Runs (history name ops) → name ∈ t'.all.map (·.1)
  /-- A machine holds and shows the same in words. -/
  words : ∃ totals : Totals, t.recorded = totals.toNanos ∧
    t.all = Fields.mapValues UInt64.toNat totals.all

theorem get?_all_of_run (h : run ops = some t) (name : String) :
    Fields.get? name t.all = (Stopwatch.run (history name ops)).counted.map (· % word) := by
  rw [get?_all, watch_of_run h]

theorem mem_names_all_of_run (h : run ops = some t) :
    name ∈ t.all.map (·.1) ↔ WasRecorded (history name ops) ∨ Lapped (history name ops) := by
  rw [mem_names_all_iff, watch_of_run h, Stopwatch.isSome_counted_run_iff]

/-- What all timers are stopped to is what they come to with one operation more. -/
theorem run_snoc_stopAll {moment : String → Nat} (h : run ops = some t)
    (hstop : t.stopEach moment = some t') : run (ops ++ [.stopAll moment]) = some t' := by
  rw [run_snoc, h]
  exact hstop

theorem running_of_stopEach {moment : String → Nat} (h : run ops = some t)
    (hstop : t.stopEach moment = some t') : t'.running = [] := by
  refine running_eq_nil_of_since fun name => ?_
  rw [watch_of_run (run_snoc_stopAll h hstop), history_snoc, Stopwatch.run_append_toList]
  exact Stopwatch.since_stop _ _

theorem shown_of_stopEach {moment : String → Nat} (h : run ops = some t)
    (hstop : t.stopEach moment = some t') (hruns : Runs (history name ops)) :
    name ∈ t'.all.map (·.1) := by
  rw [mem_names_all_of_run (run_snoc_stopAll h hstop), history_snoc]
  exact .inr (Stopwatch.lapped_snoc.2 (.inr ⟨moment name, rfl, hruns⟩))

theorem addsUp_of_run (h : run ops = some t) : AddsUp ops t where
  shown _ := mem_names_all_of_run h
  sum name hrecorded hlapped := by
    have hne : recordings (history name ops) ≠ [] := fun hnil =>
      Stopwatch.recordings_eq_nil_iff.1 hnil hrecorded
    rw [get?_all_of_run h, Stopwatch.counted_run_of_not_lapped hlapped, if_neg hne]
    rfl
  apart name ops' t' h' hsame := by rw [get?_all_of_run h, get?_all_of_run h', hsame]
  unordered name ops' t' h' hlapped hlapped' hperm := by
    rw [get?_all_of_run h, get?_all_of_run h',
      Stopwatch.counted_run_eq_of_perm hlapped hlapped' hperm]
  stopped name now elapsed? t' hstop := by
    have helapsed := eq_map_of_stop hstop
    rw [watch_of_run h] at helapsed
    refine ⟨?_, fun began hsince => ?_⟩
    · rw [helapsed, Option.isSome_map, Stopwatch.isSome_since_run_iff]
    · rw [helapsed, Stopwatch.since_run_eq_some_iff.2 hsince, Option.map_some]
  atOnce _ := rfl
  ended moment t' hstop := ⟨running_of_stopEach h hstop, fun _ => shown_of_stopEach h hstop⟩
  words := by
    obtain ⟨totals, htotals⟩ := inWords_of_run h
    refine ⟨totals, htotals, ?_⟩
    rw [Totals.mapValues_all, ← htotals]
    rfl

theorem recordAll_eq_none_iff (records : List (String × Duration)) :
    Totals.recordAll records = none ↔ ∃ name, maxDuration < spent name records := by
  have hfault := (agrees_run (records.map .ofRecord)).eq_none_iff
  simpa only [run_ofRecord, Option.map_eq_none_iff, total_run_ofRecord] using hfault

/-- Timers add up. Any operations break off exactly if one timer by itself would have counted more
    than a duration holds, and otherwise the timers show and give what `AddsUp` says. Durations
    alone, added in words, break off exactly if those of one name are too long together, whatever
    their order. -/
theorem run_addsUp (ops : List Operation) :
    (run ops = none ↔ ∃ name, maxDuration < (Stopwatch.run (history name ops)).total) ∧
      (∀ t, run ops = some t → AddsUp ops t) ∧
      ∀ records : List (String × Duration),
        run (records.map .ofRecord) =
            (Totals.recordAll records).map (fun totals => { recorded := totals.toNanos }) ∧
          (Totals.recordAll records = none ↔ ∃ name, maxDuration < spent name records) ∧
          ∀ records', records.Perm records' →
            (Totals.recordAll records' = none ↔ Totals.recordAll records = none) := by
  refine ⟨(agrees_run ops).eq_none_iff, fun t h => addsUp_of_run h, fun records => ?_⟩
  refine ⟨run_ofRecord records, recordAll_eq_none_iff records, fun records' hperm => ?_⟩
  simp only [recordAll_eq_none_iff, spent_eq_of_perm hperm]

/-- A duration is recorded around a timer that is started twice, stopped twice and started again. -/
def restarted : List Operation :=
  [.record "a" (.ofAmount .nano 100), .start "b" 5, .start "b" 7, .stop "b" 10, .stop "b" 12,
    .record "a" (.ofAmount .nano 50), .start "b" 20]

/-- Timers of which one has been recorded and the other runs again. -/
def halfway : Timers := ⟨[("b", 20)], [("a", 150), ("b", 3)]⟩

/-- The longest duration, and a nanosecond more under the same name. -/
def overlong : List (String × Duration) :=
  [("a", .ofAmount .nano 1), ("b", .ofAmount .second 7),
    ("a", ⟨0xFFFFFFFFFFFFFFFF, 999999999, by decide⟩)]

theorem run_addsUp_restarted :
    run restarted = some halfway ∧ Fields.get? "a" halfway.all = some 150 ∧
      ("b" ∈ halfway.all.map (·.1) ∧ Lapped (history "b" restarted)) ∧
      halfway.stop "b" 25 = some (some 5, ⟨[], [("a", 150), ("b", 8)]⟩) ∧
      Runs (history "b" restarted) ∧
      overlong.Perm overlong.reverse ∧ Totals.recordAll overlong = none ∧
      Totals.recordAll overlong.reverse = none := by
  obtain ⟨-, hstanding, hrecords⟩ := run_addsUp restarted
  obtain ⟨-, hnone, hperm⟩ := hrecords overlong
  have hrun : run restarted = some halfway := by decide
  have hadds := hstanding halfway hrun
  have ha : history "a" restarted =
      [.recorded (.ofAmount .nano 100), .recorded (.ofAmount .nano 50)] := by decide
  have hsum := hadds.sum "a" ⟨.ofAmount .nano 100, by rw [ha]; exact List.mem_cons_self ..⟩
    (Stopwatch.not_lapped_of_stopped_notMem fun now => by simp [ha])
  have hb : ¬ WasRecorded (history "b" restarted) := by
    rw [← Stopwatch.recordings_eq_nil_iff]
    decide
  have hshown : "b" ∈ halfway.all.map (·.1) := by decide
  have hstop : halfway.stop "b" 25 = some (some 5, ⟨[], [("a", 150), ("b", 8)]⟩) := by decide
  have hbroken : Totals.recordAll overlong = none := hnone.2 ⟨"a", by decide⟩
  have hreverse : overlong.Perm overlong.reverse := (List.reverse_perm overlong).symm
  refine ⟨hrun, hsum.trans ?_, ⟨hshown, ((hadds.shown "b").1 hshown).resolve_left hb⟩, hstop,
    (hadds.stopped "b" 25 _ _ hstop).1.1 rfl, hreverse, hbroken, (hperm _ hreverse).2 hbroken⟩
  rw [ha]
  decide

end Timers

end AuthGate
