import AuthGate.Proofs.Text.Utf8
import Mathlib.Data.Char
import Mathlib.Data.List.Lex

set_option autoImplicit false

/-! # The order of bytes is the order of characters

Texts compare as their UTF-8 bytes do: `encode_lt_iff`. A shorter sequence begins with a smaller byte
than a longer one, and within one length the bits of a code point stand in the bytes from the highest
to the lowest. -/

namespace AuthGate.Text.Utf8

/-- What follows a byte counts only if it is the same byte. -/
theorem byte_cons_lt_iff {m n : Nat} (hm : m < 256) (hn : n < 256) {xs ys : List UInt8} :
    m.toUInt8 :: xs < n.toUInt8 :: ys ↔ m < n ∨ m = n ∧ xs < ys := by
  rw [List.cons_lt_cons_iff, toUInt8_lt_iff hm, toUInt8_eq_iff hm, toNat_toUInt8 hn]

/-- The bytes of a smaller character come first, whatever follows them. -/
theorem encodeChar_append_lt {c d : Char} (h : c < d) (xs ys : List UInt8) :
    encodeChar c ++ xs < encodeChar d ++ ys := by
  have hlt : c.toNat < d.toNat := h
  have hc := code_bounds c
  have hd := code_bounds d
  simp only [encodeChar]
  generalize c.toNat = m at *
  generalize d.toNat = n at *
  -- a sequence of one length against one of the same or a greater length
  split_ifs <;>
    simp (disch := omega) only [List.cons_append, List.nil_append, byte_cons_lt_iff] <;> omega

theorem encode_cons (c : Char) (s : List Char) : encode (c :: s) = encodeChar c ++ encode s :=
  List.flatMap_cons

theorem encode_lt_of_lt {s t : List Char} (h : s < t) : encode s < encode t := by
  induction s generalizing t with
  | nil =>
    cases t with
    | nil => exact absurd h (List.lt_irrefl [])
    | cons d rest =>
      cases hbytes : encode (d :: rest) with
      | nil => exact absurd (encode_eq_nil_iff.1 hbytes) (List.cons_ne_nil d rest)
      | cons b bs => exact List.nil_lt_cons b bs
  | cons c s ih =>
    cases t with
    | nil => exact absurd h (List.not_lt_nil _)
    | cons d t =>
      rw [encode_cons, encode_cons]
      rcases List.cons_lt_cons_iff.1 h with hlt | ⟨rfl, hrest⟩
      · exact encodeChar_append_lt hlt _ _
      · exact List.append_left_lt (ih hrest)

/-- Texts compare as their bytes do. -/
theorem encode_lt_iff {s t : List Char} : encode s < encode t ↔ s < t := by
  refine ⟨fun h => ?_, encode_lt_of_lt⟩
  rcases lt_trichotomy s t with hlt | rfl | hgt
  · exact hlt
  · exact absurd h (List.lt_irrefl _)
  · exact absurd h (List.lt_asymm (encode_lt_of_lt hgt))

end AuthGate.Text.Utf8
