import AuthGate.Proofs.Store.History
import AuthGate.Proofs.Store.Ledger
import Mathlib.Data.List.Induction

set_option autoImplicit false

/-! # Transactions of one store

Whatever is done with a store, in any order and with any handles: transactions are numbered from
one, each sees the data as it was when the transaction began, and each is closed at most once. What
carries the argument is that the store's books stay right (`Balanced.perform`). The main statement
is `performAll_accounted`. -/

namespace AuthGate

namespace Store

/-! ## What happened to transactions -/

/-- What an operation and its answer say of a transaction. -/
def Operation.event : Operation → Answer → Option CallEvent
  | .begin, .begun t => some (.opened (.ok t))
  | .close t abort, .closed r => some (.closed t abort r)
  | _, _ => none

/-- What operations and their answers say of transactions. -/
def events (s : Store) : List Operation → List CallEvent
  | [] => []
  | op :: ops => (op.event (s.perform op).1).toList ++ events (s.perform op).2.1 ops

theorem events_append (s : Store) (ops more : List Operation) :
    s.events (ops ++ more) = s.events ops ++ (s.performAll ops).events more := by
  induction ops generalizing s with
  | nil => rfl
  | cons op rest ih => simp only [List.cons_append, events, ih, List.append_assoc]; rfl

/-- The transactions that were handed out, in order. -/
def issued (s : Store) (ops : List Operation) : List Transaction :=
  (s.events ops).filterMap fun
    | .opened (.ok t) => some t
    | _ => none

/-- The numbers of the handles that were closed with success, in order. -/
def closedIds (s : Store) (ops : List Operation) : List Nat :=
  (s.events ops).filterMap CallEvent.closedId

/-- Whether a transaction begins. -/
def Operation.begins : Operation → Bool
  | .begin => true
  | _ => false

/-- The data document after some operations: the one that was set last. -/
def currentData (data : Json) : List Operation → Json
  | [] => data
  | .setData data :: ops => currentData data ops
  | _ :: ops => currentData data ops

/-! ## What operations leave alone -/

theorem ledger_run (s : Store) (ms : List ModuleStep) : (s.run ms).1.ledger = s.ledger := by
  obtain ⟨_, _, h⟩ := s.exists_run_eq ms
  rw [h]
  rfl

theorem data_run (s : Store) (ms : List ModuleStep) : (s.run ms).1.data = s.data := by
  obtain ⟨_, _, h⟩ := s.exists_run_eq ms
  rw [h]

theorem nextId_run (s : Store) (ms : List ModuleStep) : (s.run ms).1.nextId = s.nextId := by
  obtain ⟨_, _, h⟩ := s.exists_run_eq ms
  rw [h]

/-- A transaction that is not open cannot be closed. -/
theorem close_of_notMem {s : Store} {t : Transaction} (h : t.id ∉ s.opened) (abort : Bool) :
    s.close t abort = .error ⟨.store, s!"transaction {t.id} is not open"⟩ := by
  rw [close, if_neg (by simpa using h)]

/-- The end of a transaction is counted once, by the way in which it ended, and nothing else of the
    store changes. -/
theorem close_of_mem {s : Store} {t : Transaction} (h : t.id ∈ s.opened) (abort : Bool) :
    s.close t abort = .ok { s with
      opened := s.opened.erase t.id
      commits := s.commits + (!abort).toNat
      aborts := s.aborts + abort.toNat } := by
  rw [close, if_pos (by simpa using h)]
  cases abort <;> rfl

/-- The data document is the one that was set last. -/
theorem data_perform (s : Store) (op : Operation) :
    (s.perform op).2.1.data = currentData s.data [op] := by
  cases op with
  | setData | register | begin => rfl
  | upsert | remove | replace => exact s.data_run _
  | close t abort =>
    obtain ⟨_, _, _, h⟩ := s.exists_close_eq t abort
    rw [h]
    rfl

theorem currentData_cons (data : Json) (op : Operation) (ops : List Operation) :
    currentData data (op :: ops) = currentData (currentData data [op]) ops := by
  cases op <;> rfl

theorem data_performAll (s : Store) (ops : List Operation) :
    (s.performAll ops).data = currentData s.data ops := by
  induction ops generalizing s with
  | nil => rfl
  | cons op rest ih =>
    rw [currentData_cons, ← data_perform]
    exact ih _

/-! ## Numbers -/

theorem issued_append (s : Store) (ops more : List Operation) :
    s.issued (ops ++ more) = s.issued ops ++ (s.performAll ops).issued more := by
  rw [issued, events_append, List.filterMap_append]
  rfl

theorem issued_cons_begin (s : Store) (ops : List Operation) :
    s.issued (.begin :: ops) = ⟨s.nextId, s.data⟩ :: s.begin.2.issued ops :=
  rfl

theorem issued_cons {op : Operation} (h : op.begins = false) (s : Store) (ops : List Operation) :
    s.issued (op :: ops) = (s.perform op).2.1.issued ops := by
  cases op with
  | begin => cases h
  | setData | register | upsert | replace | remove => rfl
  | close t abort =>
    by_cases ht : t.id ∈ s.opened
    · simp only [issued, events, perform, close_of_mem ht, Operation.event]
      rfl
    · simp only [issued, events, perform, close_of_notMem ht, Operation.event]
      rfl

theorem nextId_perform (s : Store) (op : Operation) :
    (s.perform op).2.1.nextId = s.nextId + op.begins.toNat := by
  cases op with
  | begin | setData | register => rfl
  | upsert | remove | replace => exact s.nextId_run _
  | close t abort =>
    obtain ⟨_, _, _, h⟩ := s.exists_close_eq t abort
    rw [h]
    rfl

theorem nextId_performAll (s : Store) (ops : List Operation) :
    (s.performAll ops).nextId = s.nextId + ops.countP Operation.begins := by
  induction ops using List.reverseRecOn with
  | nil => rfl
  | append_singleton ops op ih =>
    rw [performAll_snoc, nextId_perform, ih, countP_snoc, Nat.add_assoc]

theorem filterMap_openedId_events (s : Store) (ops : List Operation) :
    (s.events ops).filterMap CallEvent.openedId = (s.issued ops).map (·.id) := by
  rw [issued, List.map_filterMap]
  refine List.filterMap_congr fun e _ => ?_
  cases e with
  | opened r => cases r <;> rfl
  | identified | logged | closed => rfl

/-- Transactions are numbered in the order in which they begin. -/
theorem map_id_issued (s : Store) (ops : List Operation) :
    (s.issued ops).map (·.id) = List.range' s.nextId (ops.countP Operation.begins) := by
  induction ops generalizing s with
  | nil => rfl
  | cons op rest ih =>
    cases hop : op.begins with
    | true =>
      cases op <;> cases hop
      rw [issued_cons_begin, List.map_cons, ih, List.countP_cons_of_pos rfl, List.range'_succ]
      rfl
    | false =>
      rw [issued_cons hop, ih, nextId_perform, hop, List.countP_cons_of_neg (by simp [hop])]
      rfl

end Store

/-! ## Books -/

/-- The books stay right whatever is done. -/
theorem Balanced.perform {initial : Ledger} {s : Store} {events : List CallEvent}
    (h : Balanced initial s.ledger events) (op : Store.Operation) :
    Balanced initial (s.perform op).2.1.ledger
      (events ++ (op.event (s.perform op).1).toList) := by
  cases op with
  | setData | register =>
    simp only [Store.perform, Store.Operation.event, Option.toList_none, List.append_nil]
    exact h
  | upsert | remove | replace =>
    simp only [Store.perform, Store.Operation.event, Option.toList_none, List.append_nil]
    exact (Store.ledger_run s _).symm ▸ h
  | begin => exact h.begin
  | close t abort =>
    by_cases ht : t.id ∈ s.opened
    · obtain ⟨closed, hclosed⟩ := Store.exists_close_eq_ok ht abort
      simp only [Store.perform, hclosed]
      exact h.close ht hclosed
    · simp only [Store.perform, Store.close_of_notMem ht]
      exact h.snoc rfl rfl

theorem Balanced.performAll {initial : Ledger} {s : Store} {events : List CallEvent}
    (h : Balanced initial s.ledger events) (ops : List Store.Operation) :
    Balanced initial (s.performAll ops).ledger (events ++ s.events ops) := by
  induction ops generalizing s events with
  | nil => simpa [Store.events] using h
  | cons op rest ih =>
    rw [Store.events, ← List.append_assoc]
    exact ih (h.perform op)

/-- Whatever was closed was closed in one of the two ways. -/
theorem length_filterMap_closedId (events : List CallEvent) :
    (events.filterMap CallEvent.closedId).length =
      events.countP (CallEvent.closes false) + events.countP (CallEvent.closes true) := by
  induction events using List.reverseRecOn with
  | nil => rfl
  | append_singleton events e ih =>
    rw [countP_snoc, countP_snoc]
    cases e with
    | closed t abort r =>
      cases r with
      | error f =>
        rw [filterMap_snoc_of_none rfl]
        exact ih
      | ok u =>
        have hid : (CallEvent.closed t abort (.ok u)).closedId = some t.id := rfl
        rw [filterMap_snoc_of_some hid, List.length_append, ih]
        cases abort <;> simp only [CallEvent.closes, List.length_singleton] <;> grind
    | identified | opened | logged =>
      rw [filterMap_snoc_of_none rfl]
      exact ih

section Fresh

variable {initial now : Ledger} {events : List CallEvent}

/-- Where no transaction was open at the beginning, those that are open now and those that were
    closed since are all different. -/
theorem Balanced.nodup_opened (h : Balanced initial now events) (hnone : initial.opened = []) :
    (now.opened ++ events.filterMap CallEvent.closedId).Nodup := by
  have hperm := h.opened
  rw [hnone, List.nil_append] at hperm
  exact hperm.nodup_iff.2 h.nodup

theorem Balanced.mem_opened_iff (h : Balanced initial now events) (hnone : initial.opened = [])
    (n : Nat) : n ∈ now.opened ↔
      n ∈ events.filterMap CallEvent.openedId ∧ n ∉ events.filterMap CallEvent.closedId := by
  have hperm := h.opened
  rw [hnone, List.nil_append] at hperm
  have hmem : n ∈ events.filterMap CallEvent.openedId ↔
      n ∈ now.opened ∨ n ∈ events.filterMap CallEvent.closedId := by
    rw [← hperm.mem_iff, List.mem_append]
  have hdisjoint := (List.nodup_append.1 (h.nodup_opened hnone)).2.2 n
  grind

end Fresh

namespace Store

/-- What holds of the transactions of a store after some operations, `data` being the document with
    which it was made. -/
structure Accounted (data : Json) (ops : List Operation) (s : Store) : Prop where
  /-- The numbers that are given out are 1, 2, 3 and so on. -/
  numbers : (issued { data } ops).map (·.id) = List.range' 1 (ops.countP Operation.begins)
  /-- A transaction that begins now sees the data as they are now, whatever is done later. -/
  snapshot (later : List Operation) :
    (issued { data } (ops ++ .begin :: later))[ops.countP Operation.begins]? =
      some ⟨ops.countP Operation.begins + 1, currentData data ops⟩
  /-- A handle that has a number given out and not yet closed can be closed, which is counted by the
      way of its end and removes that number only. -/
  closes (t : Transaction) (abort : Bool) (given : t.id ∈ (issued { data } ops).map (·.id))
      (pending : t.id ∉ closedIds { data } ops) :
    s.perform (.close t abort) = (.closed (.ok ()), { s with
      opened := s.opened.erase t.id
      commits := s.commits + (!abort).toNat
      aborts := s.aborts + abort.toNat }, []) ∧
    ∀ n, n ∈ s.opened.erase t.id ↔ n ≠ t.id ∧ n ∈ s.opened
  /-- Any other handle cannot, and the store stays as it is. -/
  refuses (t : Transaction) (abort : Bool)
      (spent : ¬ (t.id ∈ (issued { data } ops).map (·.id) ∧ t.id ∉ closedIds { data } ops)) :
    s.perform (.close t abort) =
      (.closed (.error ⟨.store, s!"transaction {t.id} is not open"⟩), s, [])
  /-- No number is closed twice. -/
  once : (closedIds { data } ops).Nodup
  /-- A transaction is open, or has ended in one way. -/
  balance : s.opened.length + s.commits + s.aborts = ops.countP Operation.begins

/-- The transactions of a store are accounted for after any operations, in any order. -/
theorem performAll_accounted (data : Json) (ops : List Operation) :
    Accounted data ops (performAll { data } ops) := by
  have hbooks : Balanced ⟨1, [], 0, 0⟩ (performAll { data } ops).ledger (events { data } ops) :=
    (Balanced.refl ⟨1, [], 0, 0⟩).performAll (s := { data }) ops
  have hgiven := filterMap_openedId_events { data } ops
  -- no transaction of a new store is open, so that the books say which ones are
  have hopen : ∀ n, n ∈ (performAll { data } ops).opened ↔
      n ∈ (issued { data } ops).map (·.id) ∧ n ∉ closedIds { data } ops := by
    intro n
    rw [← hgiven]
    exact hbooks.mem_opened_iff rfl n
  have hnodup : ((performAll { data } ops).opened ++ closedIds { data } ops).Nodup :=
    hbooks.nodup_opened rfl
  exact {
    numbers := map_id_issued { data } ops
    snapshot := fun later => by
      have hlength : (issued { data } ops).length = ops.countP Operation.begins := by
        rw [← List.length_map (f := (·.id)), map_id_issued, List.length_range']
      rw [issued_append, issued_cons_begin, ← hlength, List.getElem?_append_right (Nat.le_refl _),
        Nat.sub_self, List.getElem?_cons_zero, nextId_performAll, data_performAll, hlength,
        Nat.add_comm]
    closes := fun t abort given pending => by
      have ht := (hopen t.id).2 ⟨given, pending⟩
      refine ⟨by rw [perform, close_of_mem ht], fun n => ?_⟩
      exact (List.nodup_append.1 hnodup).1.mem_erase_iff
    refuses := fun t abort spent => by
      rw [perform, close_of_notMem (mt (hopen t.id).1 spent)]
    once := (List.nodup_append.1 hnodup).2.1
    balance := by
      -- what was given out is open or was closed, and what was closed was closed in one way
      have hends := length_filterMap_closedId (events { data } ops)
      have hcommits : (performAll { data } ops).commits = 0 + _ := hbooks.commits
      have haborts : (performAll { data } ops).aborts = 0 + _ := hbooks.aborts
      have hcount : ((performAll { data } ops).opened ++ closedIds { data } ops).length =
          ((events { data } ops).filterMap CallEvent.openedId).length := hbooks.opened.length_eq
      rw [hgiven, map_id_issued, List.length_range', List.length_append] at hcount
      rw [closedIds] at hcount
      omega }

end Store

end AuthGate
