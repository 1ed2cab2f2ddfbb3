import AuthGate.Call.Timers
import AuthGate.Proofs.Server.Duration

set_option autoImplicit false

/-! # Totals in machine words

What has been recorded under a name is a duration in two words, and a duration is added to it word
by word: the nanoseconds may carry a second, and either sum of seconds may be too large for its
word. That loses nothing (`exists_add?`), and goes wrong exactly when the total is too long for a
duration (`add?_eq_none`), so words come to what `Timers.record` comes to with whole numbers
(`record_words`). A total is shown as nanoseconds, counted in 128 bits and cut to 64. -/

namespace AuthGate

/-- The sum of two words, if a word holds it. -/
def checkedAdd? (a b : UInt64) : Option UInt64 :=
  if a.toNat + b.toNat < 0x10000000000000000 then some (a + b) else none

theorem exists_checkedAdd? {a b : UInt64} (h : a.toNat + b.toNat < 0x10000000000000000) :
    ∃ c, checkedAdd? a b = some c ∧ c.toNat = a.toNat + b.toNat := by
  refine ⟨a + b, if_pos h, ?_⟩
  rw [UInt64.toNat_add]
  exact Nat.mod_eq_of_lt h

theorem checkedAdd?_eq_none {a b : UInt64} (h : 0x10000000000000000 ≤ a.toNat + b.toNat) :
    checkedAdd? a b = none :=
  if_neg (Nat.not_lt.2 h)

namespace Duration

variable {a b : Duration}

/-- No time at all. -/
def zero : Duration := ⟨0, 0, by decide⟩

/-- The nanoseconds of two durations together, which fit their word. -/
theorem toNat_add_nanos (a b : Duration) :
    (a.nanos + b.nanos).toNat = a.nanos.toNat + b.nanos.toNat := by
  have ha := a.nanos_lt
  have hb := b.nanos_lt
  rw [UInt32.toNat_add]
  exact Nat.mod_eq_of_lt (by omega)

/-- What is left of the nanoseconds once a second is carried. -/
theorem toNat_carried (h : ¬ (a.nanos + b.nanos).toNat < 1000000000) :
    (a.nanos + b.nanos - 1000000000).toNat = a.nanos.toNat + b.nanos.toNat - 1000000000 := by
  have hle : (1000000000 : UInt32) ≤ a.nanos + b.nanos :=
    UInt32.le_iff_toNat_le.2 (Nat.not_lt.1 h)
  rw [UInt32.toNat_sub_of_le _ _ hle, toNat_add_nanos]
  rfl

theorem carried_lt (h : ¬ (a.nanos + b.nanos).toNat < 1000000000) :
    (a.nanos + b.nanos - 1000000000).toNat < 1000000000 := by
  have ha := a.nanos_lt
  have hb := b.nanos_lt
  rw [toNat_carried h]
  omega

/-- The sum of two durations, if a duration holds it. -/
def add? (a b : Duration) : Option Duration :=
  (checkedAdd? a.seconds b.seconds).bind fun seconds =>
    if h : (a.nanos + b.nanos).toNat < 1000000000 then some ⟨seconds, a.nanos + b.nanos, h⟩
    else (checkedAdd? seconds 1).map fun seconds =>
      ⟨seconds, a.nanos + b.nanos - 1000000000, carried_lt h⟩

/-- Every length up to the longest is that of a duration. -/
theorem exists_total_eq {n : Nat} (h : n ≤ maxDuration) : ∃ d : Duration, d.total = n := by
  rw [maxDuration] at h
  have hseconds : (UInt64.ofNat (n / 1000000000)).toNat = n / 1000000000 :=
    UInt64.toNat_ofNat_of_lt' (by
      rw [UInt64.size]
      omega)
  have hnanos : (UInt32.ofNat (n % 1000000000)).toNat = n % 1000000000 :=
    UInt32.toNat_ofNat_of_lt' (by
      rw [UInt32.size]
      omega)
  refine ⟨⟨.ofNat (n / 1000000000), .ofNat (n % 1000000000), ?_⟩, ?_⟩
  · rw [hnanos]
    omega
  · simp only [total, hseconds, hnanos]
    omega

theorem exists_add? (h : a.total + b.total ≤ maxDuration) :
    ∃ c, a.add? b = some c ∧ c.total = a.total + b.total := by
  have hsum := toNat_add_nanos a b
  simp only [total, maxDuration] at h ⊢
  obtain ⟨seconds, hadd, hvalue⟩ :=
    exists_checkedAdd? (a := a.seconds) (b := b.seconds) (by omega)
  simp only [add?, hadd, Option.bind_some]
  split
  · refine ⟨_, rfl, ?_⟩
    simp only [hvalue, hsum]
    omega
  · next hnanos =>
    have hcarried := toNat_carried hnanos
    obtain ⟨carried, hcarry, hone⟩ := exists_checkedAdd? (a := seconds) (b := 1) (by
      rw [UInt64.toNat_one]
      omega)
    rw [UInt64.toNat_one] at hone
    refine ⟨_, by rw [hcarry, Option.map_some], ?_⟩
    simp only [hone, hvalue, hcarried]
    omega

theorem add?_eq_none (h : maxDuration < a.total + b.total) : a.add? b = none := by
  have hsum := toNat_add_nanos a b
  have ha := a.nanos_lt
  have hb := b.nanos_lt
  simp only [total, maxDuration] at h
  by_cases hseconds : a.seconds.toNat + b.seconds.toNat < 0x10000000000000000
  · obtain ⟨seconds, hadd, hvalue⟩ := exists_checkedAdd? hseconds
    -- the seconds just fit, so it is the carried one that does not
    have hcarry : checkedAdd? seconds 1 = none := checkedAdd?_eq_none (by
      rw [UInt64.toNat_one]
      omega)
    rw [add?, hadd, Option.bind_some, dif_neg (by omega), hcarry, Option.map_none]
  · rw [add?, checkedAdd?_eq_none (Nat.not_lt.1 hseconds), Option.bind_none]

/-- The length in nanoseconds, as 128 bits count it. -/
def nanoseconds (d : Duration) : BitVec 128 :=
  d.seconds.toBitVec.setWidth 128 * 1000000000#128 + d.nanos.toBitVec.setWidth 128

/-- What is shown of a duration. -/
def word (d : Duration) : UInt64 := ⟨d.nanoseconds.setWidth 64⟩

theorem toNat_nanoseconds (d : Duration) : d.nanoseconds.toNat = d.total := by
  have hseconds : d.seconds.toNat < 0x10000000000000000 := d.seconds.toNat_lt
  have hnanos := d.nanos_lt
  have hsum : d.seconds.toNat * 1000000000 + d.nanos.toNat < 0x10000000000000000 * 1000000000 := by
    omega
  have hwide : (d.seconds.toBitVec.setWidth 128).toNat = d.seconds.toNat :=
    BitVec.toNat_setWidth_of_le (by decide)
  have hrest : (d.nanos.toBitVec.setWidth 128).toNat = d.nanos.toNat :=
    BitVec.toNat_setWidth_of_le (by decide)
  have hproduct : (d.seconds.toBitVec.setWidth 128 * 1000000000#128).toNat =
      d.seconds.toNat * 1000000000 := by
    rw [BitVec.toNat_mul, hwide]
    exact Nat.mod_eq_of_lt
      (Nat.lt_of_le_of_lt (Nat.le_add_right _ d.nanos.toNat) (Nat.lt_trans hsum (by decide)))
  rw [nanoseconds, total, BitVec.toNat_add, hproduct, hrest]
  exact Nat.mod_eq_of_lt (Nat.lt_trans hsum (by decide))

theorem toNat_word (d : Duration) : d.word.toNat = d.total % 0x10000000000000000 := by
  rw [word, ← UInt64.toNat_toBitVec, BitVec.toNat_setWidth, toNat_nanoseconds]

end Duration

/-- Recorded durations in words, by name. -/
abbrev Totals := List (String × Duration)

namespace Totals

/-- A duration added to the total of a name; none if the total is too long. -/
def record (totals : Totals) (name : String) (d : Duration) : Option Totals :=
  (((Fields.get? name totals).getD .zero).add? d).map fun total => Fields.insert name total totals

/-- Durations recorded one after the other, beginning with none. -/
def recordAll (records : List (String × Duration)) : Option Totals :=
  records.foldlM (fun totals (name, d) => record totals name d) []

/-- The totals in nanoseconds. -/
def toNanos (totals : Totals) : List (String × Nat) := Fields.mapValues Duration.total totals

/-- What is shown of the totals. -/
def all (totals : Totals) : List (String × UInt64) := Fields.mapValues Duration.word totals

/-- Words are shown as the nanoseconds they stand for. -/
theorem mapValues_all (totals : Totals) :
    Fields.mapValues UInt64.toNat totals.all =
      Fields.mapValues (· % 0x10000000000000000) totals.toNanos := by
  simp only [all, toNanos, Fields.mapValues, List.map_map]
  refine List.map_congr_left fun entry _ => ?_
  simp only [Function.comp_apply, Duration.toNat_word]

theorem recordAll_snoc (records : List (String × Duration)) (name : String) (d : Duration) :
    recordAll (records ++ [(name, d)]) =
      (recordAll records).bind fun totals => totals.record name d := by
  rw [recordAll, List.foldlM_append]
  refine congrArg _ (funext fun totals => ?_)
  simp only [List.foldlM_cons]
  cases totals.record name d <;> rfl

end Totals

/-- In words a duration is recorded as in whole numbers. -/
theorem Timers.record_words {t : Timers} {totals : Totals} (h : t.recorded = totals.toNanos)
    (name : String) (d : Duration) :
    t.record name d.total =
      (totals.record name d).map fun totals => { t with recorded := totals.toNanos } := by
  have hheld : (Fields.get? name t.recorded).getD 0 =
      ((Fields.get? name totals).getD .zero).total := by
    rw [h, Totals.toNanos, Fields.get?_mapValues]
    cases Fields.get? name totals <;> rfl
  simp only [record, Totals.record, hheld]
  split
  · next hlong => rw [Duration.add?_eq_none hlong, Option.map_none, Option.map_none]
  · next hshort =>
    obtain ⟨total, hadd, htotal⟩ := Duration.exists_add? (Nat.not_lt.1 hshort)
    rw [hadd, Option.map_some, Option.map_some, ← htotal, h, Totals.toNanos,
      ← Fields.mapValues_insert]
    rfl

end AuthGate
