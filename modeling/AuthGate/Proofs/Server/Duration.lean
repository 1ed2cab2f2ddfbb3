import Mathlib.Tactic.Ring

set_option autoImplicit false

/-! # Durations in machine words

A duration is held as seconds in 64 bits and the nanoseconds after them in 32. It is made from an
amount of seconds or of some part of a second, and the words lose nothing on the way:
`total_ofAmount`. Only a product may be too large, and whoever multiplies checks that. -/

namespace AuthGate

/-- The product of two words, if a word holds it. -/
def checkedMul? (a b : UInt64) : Option UInt64 :=
  if a.toNat * b.toNat < 0x10000000000000000 then some (a * b) else none

theorem exists_checkedMul? {a b : UInt64} (h : a.toNat * b.toNat < 0x10000000000000000) :
    ∃ c, checkedMul? a b = some c ∧ c.toNat = a.toNat * b.toNat := by
  refine ⟨a * b, if_pos h, ?_⟩
  rw [UInt64.toNat_mul]
  exact Nat.mod_eq_of_lt h

/-- A second in equal parts of whole nanoseconds. -/
structure Division where
  parts : UInt64
  nanos : UInt32
  whole : parts.toNat * nanos.toNat = 1000000000

namespace Division

def second : Division := ⟨1, 1000000000, rfl⟩

def milli : Division := ⟨1000, 1000000, rfl⟩

def micro : Division := ⟨1000000, 1000, rfl⟩

def nano : Division := ⟨1000000000, 1, rfl⟩

theorem parts_pos (d : Division) : 0 < d.parts.toNat := by
  refine Nat.pos_of_ne_zero fun hzero => ?_
  have hwhole := d.whole
  simp [hzero] at hwhole

theorem parts_le (d : Division) : d.parts.toNat ≤ 1000000000 :=
  Nat.le_of_dvd (by decide) ⟨_, d.whole.symm⟩

/-- Fewer parts than make a second are less than a second. -/
theorem mul_nanos_lt (d : Division) {n : Nat} (h : n < d.parts.toNat) :
    n * d.nanos.toNat < 1000000000 := by
  have hnanos : 0 < d.nanos.toNat := by
    refine Nat.pos_of_ne_zero fun hzero => ?_
    have hwhole := d.whole
    simp [hzero] at hwhole
  calc n * d.nanos.toNat < d.parts.toNat * d.nanos.toNat := Nat.mul_lt_mul_of_pos_right h hnanos
    _ = 1000000000 := d.whole

/-- The nanoseconds of what is left of an amount beside the whole seconds. -/
def rest (d : Division) (amount : UInt64) : UInt32 := (amount % d.parts).toUInt32 * d.nanos

theorem toNat_rest (d : Division) (amount : UInt64) :
    (d.rest amount).toNat = amount.toNat % d.parts.toNat * d.nanos.toNat := by
  have hlt := Nat.mod_lt amount.toNat d.parts_pos
  have hle := d.parts_le
  have hsmall := d.mul_nanos_lt hlt
  rw [rest, UInt32.toNat_mul, UInt64.toNat_toUInt32, UInt64.toNat_mod,
    Nat.mod_eq_of_lt (a := amount.toNat % d.parts.toNat) (by omega)]
  exact Nat.mod_eq_of_lt (by omega)

end Division

/-- Seconds and the nanoseconds after them, which make no further second. -/
structure Duration where
  seconds : UInt64
  nanos : UInt32
  nanos_lt : nanos.toNat < 1000000000
  deriving DecidableEq

namespace Duration

/-- The length in nanoseconds. -/
def total (d : Duration) : Nat := d.seconds.toNat * 1000000000 + d.nanos.toNat

/-- The duration of an amount of equal parts of a second. -/
def ofAmount (d : Division) (amount : UInt64) : Duration where
  seconds := amount / d.parts
  nanos := d.rest amount
  nanos_lt := by
    rw [d.toNat_rest]
    exact d.mul_nanos_lt (Nat.mod_lt _ d.parts_pos)

theorem total_ofAmount (d : Division) (amount : UInt64) :
    (ofAmount d amount).total = amount.toNat * d.nanos.toNat := by
  have hsplit := Nat.div_add_mod amount.toNat d.parts.toNat
  calc (ofAmount d amount).total
      = amount.toNat / d.parts.toNat * 1000000000 +
          amount.toNat % d.parts.toNat * d.nanos.toNat := by
        rw [total, ofAmount, UInt64.toNat_div, d.toNat_rest]
    _ = (d.parts.toNat * (amount.toNat / d.parts.toNat) + amount.toNat % d.parts.toNat) *
          d.nanos.toNat := by
        rw [← d.whole]
        ring
    _ = amount.toNat * d.nanos.toNat := by rw [hsplit]

end Duration

end AuthGate
