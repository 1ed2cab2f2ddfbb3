import AuthGate.Text.Utf8

set_option autoImplicit false

/-! # UTF-8 is read as it is written

The bytes of a text are read as that text (`decode?_encode`), and no other bytes are read
(`decode_eq_ok_iff`). A character is read byte by byte, so each of its four lengths is followed
through the states in between. -/

namespace AuthGate.Text.Utf8

/-! ## Bytes of numbers -/

theorem toNat_toUInt8 {n : Nat} (h : n < 256) : n.toUInt8.toNat = n := Nat.mod_eq_of_lt h

theorem toUInt8_lt_iff {n : Nat} (h : n < 256) (c : UInt8) : n.toUInt8 < c ↔ n < c.toNat := by
  rw [UInt8.lt_iff_toNat_lt, toNat_toUInt8 h]

theorem toUInt8_eq_iff {n : Nat} (h : n < 256) (c : UInt8) : n.toUInt8 = c ↔ n = c.toNat := by
  rw [← UInt8.toNat_inj, toNat_toUInt8 h]

/-- Code points leave out the surrogates. -/
theorem code_bounds (c : Char) :
    c.toNat < 0xD800 ∨ (0xDFFF < c.toNat ∧ c.toNat < 0x110000) := c.valid

/-! ## The byte with which a character begins -/

theorem start_one {n : Nat} (h : n < 0x80) : start n.toUInt8 = .complete (Char.ofNat n) := by
  have hbyte : n < 256 := by omega
  simp only [start, toUInt8_lt_iff hbyte, toNat_toUInt8 hbyte, UInt8.reduceToNat]
  rw [if_pos h]

theorem start_two {k : Nat} (hlow : 2 ≤ k) (hhigh : k < 32) :
    start (0xC0 + k).toUInt8 = .more ⟨1, 0x80, 0xBF, k, 1⟩ := by
  have hbyte : 0xC0 + k < 256 := by omega
  simp only [start, toUInt8_lt_iff hbyte, toNat_toUInt8 hbyte, UInt8.reduceToNat,
    Nat.add_sub_cancel_left]
  rw [if_neg (by omega), if_neg (by omega), if_pos (by omega)]

theorem start_three {k : Nat} (h : k < 16) :
    start (0xE0 + k).toUInt8 =
      .more ⟨2, if k = 0 then 0xA0 else 0x80, if k = 13 then 0x9F else 0xBF, k, 1⟩ := by
  have hbyte : 0xE0 + k < 256 := by omega
  have hzero : 0xE0 + k = 224 ↔ k = 0 := by omega
  have hsurrogate : 0xE0 + k = 237 ↔ k = 13 := by omega
  simp only [start, toUInt8_lt_iff hbyte, toUInt8_eq_iff hbyte, toNat_toUInt8 hbyte,
    UInt8.reduceToNat, Nat.add_sub_cancel_left, hzero, hsurrogate]
  rw [if_neg (by omega), if_neg (by omega), if_neg (by omega), if_pos (by omega)]

theorem start_four {k : Nat} (h : k < 5) :
    start (0xF0 + k).toUInt8 =
      .more ⟨3, if k = 0 then 0x90 else 0x80, if k = 4 then 0x8F else 0xBF, k, 1⟩ := by
  have hbyte : 0xF0 + k < 256 := by omega
  have hzero : 0xF0 + k = 240 ↔ k = 0 := by omega
  have hlast : 0xF0 + k = 244 ↔ k = 4 := by omega
  simp only [start, toUInt8_lt_iff hbyte, toUInt8_eq_iff hbyte, toNat_toUInt8 hbyte,
    UInt8.reduceToNat, Nat.add_sub_cancel_left, hzero, hlast]
  rw [if_neg (by omega), if_neg (by omega), if_neg (by omega), if_neg (by omega),
    if_pos (by omega)]

/-! ## The bytes that follow -/

/-- A byte inside a character, which carries six bits of it. -/
theorem next_tail {s : Begun} {k : Nat} (h : k < 64) (hlow : s.low.toNat ≤ 0x80 + k)
    (hhigh : 0x80 + k ≤ s.high.toNat) :
    s.next (0x80 + k).toUInt8 =
      if s.missing ≤ 1 then .complete (Char.ofNat (s.value * 64 + k))
      else .more ⟨s.missing - 1, 0x80, 0xBF, s.value * 64 + k, s.seen + 1⟩ := by
  have hbyte : 0x80 + k < 256 := by omega
  have hin : (decide (s.low ≤ (0x80 + k).toUInt8) && decide ((0x80 + k).toUInt8 ≤ s.high)) = true := by
    simp only [UInt8.le_iff_toNat_le, toNat_toUInt8 hbyte, hlow, hhigh, decide_true, Bool.and_true]
  simp only [Begun.next, hin, if_true, toNat_toUInt8 hbyte, Nat.add_sub_cancel_left]

variable {i : Nat} {bs : List UInt8}

theorem decodeFrom_complete {b : UInt8} {c : Char} (h : start b = .complete c) :
    decodeFrom i none (b :: bs) = (decodeFrom (i + 1) none bs).map (c :: ·) := by
  simp only [decodeFrom, h]

theorem decodeFrom_begin {b : UInt8} {s : Begun} (h : start b = .more s) :
    decodeFrom i none (b :: bs) = decodeFrom (i + 1) (some s) bs := by
  simp only [decodeFrom, h]

theorem decodeFrom_tail {s : Begun} {k : Nat} (h : k < 64) (hlow : s.low.toNat ≤ 0x80 + k)
    (hhigh : 0x80 + k ≤ s.high.toNat) (hmissing : 1 < s.missing) :
    decodeFrom i (some s) ((0x80 + k).toUInt8 :: bs) =
      decodeFrom (i + 1) (some ⟨s.missing - 1, 0x80, 0xBF, s.value * 64 + k, s.seen + 1⟩) bs := by
  simp only [decodeFrom, next_tail h hlow hhigh, if_neg (Nat.not_le.2 hmissing)]

theorem decodeFrom_last {s : Begun} {k : Nat} (h : k < 64) (hlow : s.low.toNat ≤ 0x80 + k)
    (hhigh : 0x80 + k ≤ s.high.toNat) (hmissing : s.missing ≤ 1) {c : Char}
    (hc : s.value * 64 + k = c.toNat) :
    decodeFrom i (some s) ((0x80 + k).toUInt8 :: bs) = (decodeFrom (i + 1) none bs).map (c :: ·) := by
  simp only [decodeFrom, next_tail h hlow hhigh, if_pos hmissing, hc, Char.ofNat_toNat]

/-! ## Whole texts -/

/-- The bytes of a character are read as that character, wherever they stand. -/
theorem exists_decodeFrom_encodeChar (c : Char) (i : Nat) (bs : List UInt8) :
    ∃ j, decodeFrom i none (encodeChar c ++ bs) = (decodeFrom j none bs).map (c :: ·) := by
  have hbounds := code_bounds c
  simp only [encodeChar]
  generalize hn : c.toNat = n at *
  by_cases h1 : n < 0x80
  · rw [if_pos h1]
    exact ⟨_, decodeFrom_complete (by rw [start_one h1, ← hn, Char.ofNat_toNat])⟩
  rw [if_neg h1]
  by_cases h2 : n < 0x800
  · rw [if_pos h2]
    refine ⟨i + 1 + 1, (decodeFrom_begin (start_two (by omega) (by omega))).trans ?_⟩
    exact decodeFrom_last (by omega) (by simp) (by simp; omega) (by simp) (by simp; omega)
  rw [if_neg h2]
  by_cases h3 : n < 0x10000
  · rw [if_pos h3]
    refine ⟨i + 1 + 1 + 1, (decodeFrom_begin (start_three (by omega))).trans ?_⟩
    refine (decodeFrom_tail (by omega) ?_ ?_ (by simp)).trans ?_
    · -- no shorter form
      by_cases h0 : n / 4096 = 0 <;> simp [h0]
      omega
    · -- no surrogate
      by_cases h13 : n / 4096 = 13 <;> simp [h13] <;> omega
    · exact decodeFrom_last (by omega) (by simp) (by simp; omega) (by simp) (by simp; omega)
  · rw [if_neg h3]
    refine ⟨i + 1 + 1 + 1 + 1, (decodeFrom_begin (start_four (by omega))).trans ?_⟩
    refine (decodeFrom_tail (by omega) ?_ ?_ (by simp)).trans ?_
    · by_cases h0 : n / 262144 = 0 <;> simp [h0]
      omega
    · -- no larger code point
      by_cases h4 : n / 262144 = 4 <;> simp [h4] <;> omega
    refine (decodeFrom_tail (by omega) (by simp) (by simp; omega) (by simp)).trans ?_
    exact decodeFrom_last (by omega) (by simp) (by simp; omega) (by simp) (by simp; omega)

theorem decodeFrom_encode (s : List Char) (i : Nat) : decodeFrom i none (encode s) = .ok s := by
  induction s generalizing i with
  | nil => rfl
  | cons c rest ih =>
    obtain ⟨j, hj⟩ := exists_decodeFrom_encodeChar c i (encode rest)
    rw [encode, List.flatMap_cons, ← encode, hj, ih j]
    rfl

/-- What is written for a text is read as that text. -/
theorem decode?_encode (s : List Char) : decode? (encode s) = some s := by
  rw [decode?, decode, decodeFrom_encode]
  rfl

/-! ## Only what is written is read -/

theorem start_bad {n : Nat} (hbyte : n < 256) (h : 0x80 ≤ n ∧ n < 0xC2 ∨ 0xF5 ≤ n) :
    start n.toUInt8 = .bad := by
  simp only [start, toUInt8_lt_iff hbyte, UInt8.reduceToNat]
  rcases h with ⟨hlow, hhigh⟩ | h
  · rw [if_neg (by omega), if_pos hhigh]
  · rw [if_neg (by omega), if_neg (by omega), if_neg (by omega), if_neg (by omega),
      if_neg (by omega)]

/-- A character that is under way goes on with a byte of its range. -/
theorem exists_tail {s : Begun} {cs : List Char} (hlow : 0x80 ≤ s.low.toNat)
    (hhigh : s.high.toNat ≤ 0xBF) (h : decodeFrom i (some s) bs = .ok cs) :
    ∃ k rest, k < 64 ∧ s.low.toNat ≤ 0x80 + k ∧ 0x80 + k ≤ s.high.toNat ∧
      bs = (0x80 + k).toUInt8 :: rest := by
  cases bs with
  | nil => cases h
  | cons b rest =>
    have hin : (decide (s.low ≤ b) && decide (b ≤ s.high)) = true := by
      refine Decidable.byContradiction fun hout => ?_
      simp only [decodeFrom, Begun.next, if_neg hout, reduceCtorEq] at h
    simp only [Bool.and_eq_true, decide_eq_true_eq, UInt8.le_iff_toNat_le] at hin
    have hbyte : 0x80 + (b.toNat - 0x80) = b.toNat := by omega
    refine ⟨b.toNat - 0x80, rest, by omega, by omega, by omega, ?_⟩
    rw [hbyte, Nat.toUInt8_eq, UInt8.ofNat_toNat]

/-- Every number that is no surrogate and not too large is the code of a character. -/
theorem toNat_ofNat {n : Nat} (h : n < 0xD800 ∨ (0xDFFF < n ∧ n < 0x110000)) :
    (Char.ofNat n).toNat = n := by
  have hvalid : n.isValidChar := h
  rw [Char.ofNat, dif_pos hvalid]
  rfl

theorem encodeChar_one {c : Char} {n : Nat} (hc : c.toNat = n) (h : n < 0x80) :
    encodeChar c = [n.toUInt8] := by
  simp only [encodeChar, hc]
  rw [if_pos h]

theorem encodeChar_two {c : Char} {k k' : Nat} (hc : c.toNat = k * 64 + k') (hk : 2 ≤ k ∧ k < 32)
    (hk' : k' < 64) : encodeChar c = [(0xC0 + k).toUInt8, (0x80 + k').toUInt8] := by
  have hdiv : (k * 64 + k') / 64 = k := by omega
  have hmod : (k * 64 + k') % 64 = k' := by omega
  simp only [encodeChar, hc]
  rw [if_neg (by omega), if_pos (by omega), hdiv, hmod]

theorem encodeChar_three {c : Char} {k k' k'' : Nat} (hc : c.toNat = (k * 64 + k') * 64 + k'')
    (hk : k < 16) (hk' : k' < 64) (hk'' : k'' < 64) (hlong : 0x800 ≤ (k * 64 + k') * 64 + k'') :
    encodeChar c = [(0xE0 + k).toUInt8, (0x80 + k').toUInt8, (0x80 + k'').toUInt8] := by
  have hfirst : ((k * 64 + k') * 64 + k'') / 4096 = k := by omega
  have hsecond : ((k * 64 + k') * 64 + k'') / 64 % 64 = k' := by omega
  have hthird : ((k * 64 + k') * 64 + k'') % 64 = k'' := by omega
  simp only [encodeChar, hc]
  rw [if_neg (by omega), if_neg (by omega), if_pos (by omega), hfirst, hsecond, hthird]

theorem encodeChar_four {c : Char} {k k' k'' l : Nat}
    (hc : c.toNat = ((k * 64 + k') * 64 + k'') * 64 + l) (hk' : k' < 64) (hk'' : k'' < 64)
    (hl : l < 64) (hlong : 0x10000 ≤ ((k * 64 + k') * 64 + k'') * 64 + l) :
    encodeChar c =
      [(0xF0 + k).toUInt8, (0x80 + k').toUInt8, (0x80 + k'').toUInt8, (0x80 + l).toUInt8] := by
  have hfirst : (((k * 64 + k') * 64 + k'') * 64 + l) / 262144 = k := by omega
  have hsecond : (((k * 64 + k') * 64 + k'') * 64 + l) / 4096 % 64 = k' := by omega
  have hthird : (((k * 64 + k') * 64 + k'') * 64 + l) / 64 % 64 = k'' := by omega
  have hfourth : (((k * 64 + k') * 64 + k'') * 64 + l) % 64 = l := by omega
  simp only [encodeChar, hc]
  rw [if_neg (by omega), if_neg (by omega), if_neg (by omega), hfirst, hsecond, hthird, hfourth]

/-- The bytes begin with those of a character, after which they are read on. -/
def Begins (bs : List UInt8) (cs : List Char) : Prop :=
  ∃ c cs' rest j, cs = c :: cs' ∧ bs = encodeChar c ++ rest ∧ decodeFrom j none rest = .ok cs'

theorem Begins.of_map {rest : List UInt8} {j : Nat} {c : Char} {cs : List Char}
    (hbytes : bs = encodeChar c ++ rest) (h : (decodeFrom j none rest).map (c :: ·) = .ok cs) :
    Begins bs cs := by
  cases hrest : decodeFrom j none rest with
  | error f =>
    rw [hrest] at h
    cases h
  | ok cs' =>
    rw [hrest] at h
    cases h
    exact ⟨c, cs', rest, j, rfl, hbytes, hrest⟩

variable {cs : List Char} {k : Nat}

theorem begins_one (hk : k < 0x80) (h : decodeFrom i none (k.toUInt8 :: bs) = .ok cs) :
    Begins (k.toUInt8 :: bs) cs := by
  rw [decodeFrom_complete (start_one hk)] at h
  exact .of_map (by rw [encodeChar_one (toNat_ofNat (by omega)) hk]; rfl) h

theorem begins_two (hk : 2 ≤ k ∧ k < 32)
    (h : decodeFrom i none ((0xC0 + k).toUInt8 :: bs) = .ok cs) :
    Begins ((0xC0 + k).toUInt8 :: bs) cs := by
  rw [decodeFrom_begin (start_two hk.1 hk.2)] at h
  obtain ⟨k', rest, hk', hlow, hhigh, rfl⟩ := exists_tail (by simp) (by simp) h
  have hcode : (Char.ofNat (k * 64 + k')).toNat = k * 64 + k' := toNat_ofNat (by omega)
  rw [decodeFrom_last hk' hlow hhigh (by simp) hcode.symm] at h
  exact .of_map (by rw [encodeChar_two hcode hk hk']; rfl) h

theorem begins_three (hk : k < 16)
    (h : decodeFrom i none ((0xE0 + k).toUInt8 :: bs) = .ok cs) :
    Begins ((0xE0 + k).toUInt8 :: bs) cs := by
  rw [decodeFrom_begin (start_three hk)] at h
  obtain ⟨k', rest', hk', hlow, hhigh, rfl⟩ :=
    exists_tail (by simp only; split <;> simp) (by simp only; split <;> simp) h
  rw [decodeFrom_tail hk' hlow hhigh (by simp)] at h
  obtain ⟨k'', rest, hk'', hlow', hhigh', rfl⟩ := exists_tail (by simp) (by simp) h
  -- neither a shorter form nor a surrogate
  have hlong : k = 0 → 0x20 ≤ k' := by
    rintro rfl
    simp at hlow
    omega
  have hvalid : k = 13 → k' < 0x20 := by
    rintro rfl
    simp at hhigh
    omega
  have hcode : (Char.ofNat ((k * 64 + k') * 64 + k'')).toNat = (k * 64 + k') * 64 + k'' :=
    toNat_ofNat (by omega)
  rw [decodeFrom_last hk'' hlow' hhigh' (by simp) hcode.symm] at h
  exact .of_map (by rw [encodeChar_three hcode hk hk' hk'' (by omega)]; rfl) h

theorem begins_four (hk : k < 5)
    (h : decodeFrom i none ((0xF0 + k).toUInt8 :: bs) = .ok cs) :
    Begins ((0xF0 + k).toUInt8 :: bs) cs := by
  rw [decodeFrom_begin (start_four hk)] at h
  obtain ⟨k', rest'', hk', hlow, hhigh, rfl⟩ :=
    exists_tail (by simp only; split <;> simp) (by simp only; split <;> simp) h
  rw [decodeFrom_tail hk' hlow hhigh (by simp)] at h
  obtain ⟨k'', rest', hk'', hlow', hhigh', rfl⟩ := exists_tail (by simp) (by simp) h
  rw [decodeFrom_tail hk'' hlow' hhigh' (by simp)] at h
  obtain ⟨l, rest, hl, hlow'', hhigh'', rfl⟩ := exists_tail (by simp) (by simp) h
  -- neither a shorter form nor too large
  have hlong : k = 0 → 0x10 ≤ k' := by
    rintro rfl
    simp at hlow
    omega
  have hvalid : k = 4 → k' < 0x10 := by
    rintro rfl
    simp at hhigh
    omega
  have hcode : (Char.ofNat (((k * 64 + k') * 64 + k'') * 64 + l)).toNat =
      ((k * 64 + k') * 64 + k'') * 64 + l := toNat_ofNat (by omega)
  rw [decodeFrom_last hl hlow'' hhigh'' (by simp) hcode.symm] at h
  exact .of_map (by rw [encodeChar_four hcode hk' hk'' hl (by omega)]; rfl) h

/-- Bytes that are read begin with those of a character. -/
theorem begins_of_decodeFrom {b : UInt8} (h : decodeFrom i none (b :: bs) = .ok cs) :
    Begins (b :: bs) cs := by
  have hbyte : b = b.toNat.toUInt8 := by rw [Nat.toUInt8_eq, UInt8.ofNat_toNat]
  have hsize : b.toNat < 256 := b.toNat_lt
  generalize b.toNat = n at hbyte hsize
  subst hbyte
  by_cases h1 : n < 0x80
  · exact begins_one h1 h
  by_cases hbad : n < 0xC2 ∨ 0xF5 ≤ n
  · simp only [decodeFrom, start_bad hsize (by omega), reduceCtorEq] at h
  by_cases h2 : n < 0xE0
  · obtain ⟨k, rfl⟩ : ∃ k, n = 0xC0 + k := ⟨n - 0xC0, by omega⟩
    exact begins_two (by omega) h
  by_cases h3 : n < 0xF0
  · obtain ⟨k, rfl⟩ : ∃ k, n = 0xE0 + k := ⟨n - 0xE0, by omega⟩
    exact begins_three (by omega) h
  · obtain ⟨k, rfl⟩ : ∃ k, n = 0xF0 + k := ⟨n - 0xF0, by omega⟩
    exact begins_four (by omega) h

theorem encodeChar_ne_nil (c : Char) : encodeChar c ≠ [] := by
  simp only [encodeChar]
  split
  · simp
  · split
    · simp
    · split <;> simp

theorem encode_append (cs ds : List Char) : encode (cs ++ ds) = encode cs ++ encode ds :=
  List.flatMap_append

theorem length_encodeChar (c : Char) : (encodeChar c).length = c.utf8Size := by
  have hval : c.val.toNat = c.toNat := rfl
  simp only [encodeChar, Char.utf8Size, UInt32.le_iff_toNat_le, UInt32.toNat_ofNatLT, hval,
    ← Nat.lt_succ_iff]
  split
  · rfl
  · split
    · rfl
    · split <;> rfl

/-- A text is as wide as it has bytes. -/
theorem length_encode (cs : List Char) : (encode cs).length = width cs := by
  induction cs with
  | nil => rfl
  | cons c rest ih =>
    rw [encode, List.flatMap_cons, ← encode, List.length_append, length_encodeChar, ih, width]

theorem width_append (cs ds : List Char) : width (cs ++ ds) = width cs + width ds := by
  induction cs with
  | nil => rw [List.nil_append, width, Nat.zero_add]
  | cons c rest ih => rw [List.cons_append, width, width, ih, Nat.add_assoc]

theorem width_sub (before after : List Char) :
    width (before ++ after) - width after = width before := by
  rw [width_append, Nat.add_sub_cancel]

theorem length_le_width (cs : List Char) : cs.length ≤ width cs := by
  induction cs with
  | nil => exact Nat.le_refl 0
  | cons c rest ih =>
    have hc := c.utf8Size_pos
    rw [List.length_cons, width]
    omega

theorem encode_eq_nil_iff {cs : List Char} : encode cs = [] ↔ cs = [] := by
  cases cs with
  | nil => simp [encode]
  | cons c rest => simp [encode, encodeChar_ne_nil]

/-- Bytes that are read as a text are those of the text. -/
theorem encode_of_decodeFrom (h : decodeFrom i none bs = .ok cs) : encode cs = bs := by
  -- what stands after the first character is shorter
  induction hsize : bs.length using Nat.strongRecOn generalizing i bs cs with
  | ind size ih =>
    cases bs with
    | nil =>
      cases h
      rfl
    | cons b bs =>
      obtain ⟨c, cs', rest, j, rfl, hbytes, hrest⟩ := begins_of_decodeFrom h
      have hshorter : rest.length < size := by
        have hpos := List.length_pos_iff.2 (encodeChar_ne_nil c)
        rw [← hsize, hbytes, List.length_append]
        omega
      rw [encode, List.flatMap_cons, ← encode, ih _ hshorter hrest rfl, hbytes]

/-- Bytes are read as the one text whose bytes they are. -/
theorem decode_eq_ok_iff {bs : List UInt8} {cs : List Char} : decode bs = .ok cs ↔ encode cs = bs := by
  constructor
  · exact encode_of_decodeFrom
  · rintro rfl
    exact decodeFrom_encode cs 0

/-- Where there is no fault there is nothing to be replaced. -/
theorem decodeLossyFrom_of_decodeFrom {s : Option Begun} (h : decodeFrom i s bs = .ok cs) :
    decodeLossyFrom s bs = cs := by
  induction bs generalizing i s cs with
  | nil =>
    cases s with
    | none =>
      cases h
      rfl
    | some s => cases h
  | cons b rest ih =>
    have hcomplete {c : Char} (h : (decodeFrom (i + 1) none rest).map (c :: ·) = .ok cs) :
        c :: decodeLossyFrom none rest = cs := by
      cases hrest : decodeFrom (i + 1) none rest with
      | error f =>
        rw [hrest] at h
        cases h
      | ok cs' =>
        rw [hrest] at h
        cases h
        rw [ih hrest]
    cases s with
    | none =>
      rw [decodeFrom] at h
      rw [decodeLossyFrom]
      cases hstep : start b with
      | complete c => simp only [hstep] at h ⊢; exact hcomplete h
      | more begun => simp only [hstep] at h ⊢; exact ih h
      | bad => simp only [hstep, reduceCtorEq] at h
    | some s =>
      rw [decodeFrom] at h
      rw [decodeLossyFrom]
      cases hstep : s.next b with
      | complete c => simp only [hstep] at h ⊢; exact hcomplete h
      | more begun => simp only [hstep] at h ⊢; exact ih h
      | bad => simp only [hstep, reduceCtorEq] at h

theorem decodeLossy_encode (cs : List Char) : decodeLossy (encode cs) = cs :=
  decodeLossyFrom_of_decodeFrom (decodeFrom_encode cs 0)

/-! ## ASCII -/

theorem utf8Size_of_ascii {c : Char} (h : c.toNat < 0x80) : c.utf8Size = 1 := by
  rw [← length_encodeChar, encodeChar_one rfl h]
  rfl

theorem width_of_ascii {cs : List Char} (h : ∀ c ∈ cs, c.toNat < 0x80) :
    width cs = cs.length := by
  induction cs with
  | nil => rfl
  | cons c rest ih =>
    obtain ⟨hc, hrest⟩ := List.forall_mem_cons.1 h
    rw [width, utf8Size_of_ascii hc, ih hrest, List.length_cons, Nat.add_comm]

/-- Only the bytes of ASCII characters are below 128. -/
theorem mem_encode_iff_of_ascii {c : Char} (h : c.toNat < 0x80) {cs : List Char} :
    c.toNat.toUInt8 ∈ encode cs ↔ c ∈ cs := by
  have hbyte {n : Nat} (hn : n < 256) : c.toNat.toUInt8 = n.toUInt8 ↔ c.toNat = n := by
    rw [toUInt8_eq_iff (by omega), toNat_toUInt8 hn]
  have hchar (c' : Char) : c.toNat.toUInt8 ∈ encodeChar c' ↔ c' = c := by
    have hbounds := code_bounds c'
    simp only [encodeChar, ← Char.toNat_inj (c := c')]
    generalize c'.toNat = n at *
    split
    · rw [List.mem_singleton, hbyte (by omega), eq_comm]
    · split
      · simp only [List.mem_cons, List.not_mem_nil, or_false]
        rw [hbyte (by omega), hbyte (by omega)]
        omega
      · split <;> simp only [List.mem_cons, List.not_mem_nil, or_false]
        · rw [hbyte (by omega), hbyte (by omega), hbyte (by omega)]
          omega
        · rw [hbyte (by omega), hbyte (by omega), hbyte (by omega), hbyte (by omega)]
          omega
  simp only [encode, List.mem_flatMap, hchar, exists_eq_right]

end AuthGate.Text.Utf8
