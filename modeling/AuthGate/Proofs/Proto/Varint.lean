import AuthGate.Proto.Varint
import Mathlib.Algebra.Group.Int.Defs
import Mathlib.Algebra.Group.Nat.Defs

set_option autoImplicit false

/-! # Varints as they are written

Which bytes are read as a number: a number may be spelled in more groups than it needs. What is
written for a number is one of its spellings, so what is written is read back: `decode_encode`. -/

namespace AuthGate.Proto.Varint

/-- A number in at most so many groups of seven bits. The last group of the largest spelling holds
    one bit only. -/
inductive Spells : Nat → List UInt8 → Nat → Prop
  | last {groups : Nat} {b : UInt8} (h : b.toNat < 128) (htop : groups = 0 → b.toNat < 2) :
    Spells (groups + 1) [b] b.toNat
  | more {groups n : Nat} {b : UInt8} {bs : List UInt8} (h : 128 ≤ b.toNat)
    (hrest : Spells groups bs n) : Spells (groups + 1) (b :: bs) (b.toNat - 128 + 128 * n)

/-- The bytes spell a number of 64 bits. -/
def IsVarint (bs : List UInt8) (n : Nat) : Prop := Spells 10 bs n

theorem Spells.ne_nil {groups n : Nat} {bs : List UInt8} (h : Spells groups bs n) : bs ≠ [] := by
  cases h <;> exact List.cons_ne_nil _ _

/-- Every spelling is read as the number it spells, and nothing after it is touched. -/
theorem Spells.decodeGroups {groups n : Nat} {bs : List UInt8} (h : Spells groups bs n)
    (shift : Nat) (rest : List UInt8) :
    decodeGroups groups shift (bs ++ rest) = some (n * Nat.pow 2 shift, rest) := by
  induction h generalizing shift with
  | @last groups b hb htop =>
    have hfits : (decide (groups = 0) && decide (2 ≤ b.toNat)) = false := by
      by_cases hg : groups = 0
      · have := htop hg
        simp only [hg, decide_true, Bool.true_and, decide_eq_false_iff_not]
        omega
      · simp [hg]
    simp only [List.singleton_append, Varint.decodeGroups, if_pos hb, hfits, Bool.false_eq_true,
      if_false]
  | @more groups n b bs hb _ ih =>
    have hpow : Nat.pow 2 (shift + 7) = Nat.pow 2 shift * 128 := Nat.pow_add 2 shift 7
    have hvalue : (b.toNat - 128) * Nat.pow 2 shift + n * Nat.pow 2 (shift + 7) =
        (b.toNat - 128 + 128 * n) * Nat.pow 2 shift := by
      rw [hpow, Nat.add_mul, Nat.mul_comm 128 n, Nat.mul_assoc n 128, Nat.mul_comm 128]
    have hlarge : ¬ b.toNat < 128 := Nat.not_lt.2 hb
    simp only [List.cons_append, Varint.decodeGroups, if_neg hlarge]
    rw [ih]
    exact congrArg (fun m => some (m, rest)) hvalue

theorem decode_of_isVarint {bs : List UInt8} {n : Nat} (h : IsVarint bs n) (rest : List UInt8) :
    decode (bs ++ rest) = some (n, rest) := by
  rw [decode, Spells.decodeGroups h 0 rest]
  simp

/-- What is written for a number of few enough bits spells it. -/
theorem spells_encodeGroups (groups : Nat) {n : Nat} (h : n < 2 ^ (7 * groups + 1)) :
    Spells (groups + 1) (encodeGroups (groups + 1) n) n := by
  induction groups generalizing n with
  | zero =>
    have hsmall : n < 128 := by omega
    have hbyte : n.toUInt8.toNat = n := Nat.mod_eq_of_lt (by omega)
    rw [encodeGroups, if_pos hsmall]
    have hlast : Spells (0 + 1) [n.toUInt8] n.toUInt8.toNat :=
      .last (by omega) (fun _ => by omega)
    rwa [hbyte] at hlast
  | succ groups ih =>
    rw [encodeGroups]
    by_cases hsmall : n < 128
    · rw [if_pos hsmall]
      have hbyte : n.toUInt8.toNat = n := Nat.mod_eq_of_lt (by omega)
      have hlast : Spells (groups + 1 + 1) [n.toUInt8] n.toUInt8.toNat :=
        .last (by omega) (fun h0 => absurd h0 (Nat.succ_ne_zero groups))
      rwa [hbyte] at hlast
    · rw [if_neg hsmall]
      have hbyte : (128 + n % 128).toUInt8.toNat = 128 + n % 128 := Nat.mod_eq_of_lt (by omega)
      have hpow : 2 ^ (7 * (groups + 1) + 1) = 2 ^ (7 * groups + 1) * 128 := by
        rw [show 7 * (groups + 1) + 1 = 7 * groups + 1 + 7 by omega, Nat.pow_add]
      have hrest : n / 128 < 2 ^ (7 * groups + 1) := by
        rw [Nat.div_lt_iff_lt_mul (by omega)]
        omega
      have hmore := Spells.more (b := (128 + n % 128).toUInt8) (by omega) (ih hrest)
      have hsum : 128 + n % 128 - 128 + 128 * (n / 128) = n := by omega
      rwa [hbyte, hsum] at hmore

theorem isVarint_encode {n : Nat} (h : n < 2 ^ 64) : IsVarint (encode n) n :=
  spells_encodeGroups 9 h

theorem decode_encode {n : Nat} (h : n < 2 ^ 64) (rest : List UInt8) :
    decode (encode n ++ rest) = some (n, rest) :=
  decode_of_isVarint (isVarint_encode h) rest

end AuthGate.Proto.Varint
