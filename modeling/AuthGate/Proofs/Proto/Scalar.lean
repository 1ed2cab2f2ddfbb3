import AuthGate.Proofs.Proto.Varint
import AuthGate.Proofs.Text.Utf8
import AuthGate.Proto.Writer

set_option autoImplicit false

/-! # Values on the wire

A value that is no message is read as it was written, provided that it fits into its kind:
`scalar_scalarBytes`. -/

namespace AuthGate.Proto

/-! ## Words -/

/-- A whole number that so many bits hold. -/
def IsUnsigned (width : Nat) (i : Int) : Prop := 0 ≤ i ∧ i < 2 ^ width

/-- A whole number that so many bits hold, one of them the sign. -/
def IsSigned (width : Nat) (i : Int) : Prop := -2 ^ (width - 1) ≤ i ∧ i < 2 ^ (width - 1)

instance (width : Nat) (i : Int) : Decidable (IsUnsigned width i) :=
  inferInstanceAs (Decidable (_ ∧ _))

instance (width : Nat) (i : Int) : Decidable (IsSigned width i) :=
  inferInstanceAs (Decidable (_ ∧ _))

theorem pow_eq (n : Nat) : Nat.pow 2 n = 2 ^ n := rfl

theorem unsigned_lt (width : Nat) (i : Int) : unsigned width i < 2 ^ width := by
  rw [unsigned, pow_eq]
  have hpos : (0 : Int) < (2 ^ width : Nat) := by exact_mod_cast Nat.two_pow_pos width
  have := Int.emod_lt_of_pos i hpos
  have := Int.emod_nonneg i (Int.ne_of_gt hpos)
  omega

theorem unsigned_of_isUnsigned {width : Nat} {i : Int} (h : IsUnsigned width i) :
    (unsigned width i : Int) = i := by
  rw [unsigned, pow_eq, Int.emod_eq_of_lt h.1 (by exact_mod_cast h.2), Int.toNat_of_nonneg h.1]

/-- A word may be wider than the number that it was written for. -/
theorem signed_unsigned {width bits : Nat} (hwidth : 0 < width) (hbits : width ≤ bits) {i : Int}
    (h : IsSigned width i) : signed width (unsigned bits i) = i := by
  have hpos : (0 : Int) < (2 ^ bits : Nat) := by exact_mod_cast Nat.two_pow_pos bits
  have hword : (unsigned bits i : Int) = i % (2 ^ bits : Nat) := by
    rw [unsigned, pow_eq, Int.toNat_of_nonneg (Int.emod_nonneg i (Int.ne_of_gt hpos))]
  have hdvd : ((2 ^ width : Nat) : Int) ∣ (2 ^ bits : Nat) := by
    exact_mod_cast Nat.pow_dvd_pow 2 hbits
  have hhalf : 2 ^ width = 2 * 2 ^ (width - 1) := by
    rw [← Nat.pow_succ', Nat.succ_eq_add_one, Nat.sub_add_cancel hwidth]
  obtain ⟨hlow, hhigh⟩ := h
  have hcast : ((2 ^ (width - 1) : Nat) : Int) = 2 ^ (width - 1) := by push_cast; rfl
  rw [signed, pow_eq, hword, ← Int.emod_bmod, Int.emod_emod_of_dvd i hdvd, Int.emod_bmod, hhalf]
  apply Int.bmod_eq_of_le <;> omega

theorem zigzag_unzigzag (i : Int) : zigzag (unzigzag i) = i := by
  rw [unzigzag]
  split <;> rw [zigzag] <;> split <;> omega

theorem unzigzag_lt {width : Nat} (hwidth : 0 < width) {i : Int} (h : IsSigned width i) :
    unzigzag i < 2 ^ width := by
  have hhalf : 2 ^ width = 2 * 2 ^ (width - 1) := by
    rw [← Nat.pow_succ', Nat.succ_eq_add_one, Nat.sub_add_cancel hwidth]
  have hcast : ((2 ^ (width - 1) : Nat) : Int) = 2 ^ (width - 1) := by push_cast; rfl
  obtain ⟨hlow, hhigh⟩ := h
  rw [unzigzag]
  split <;> omega

/-! ## Pieces -/

theorem take?_append (bs rest : List UInt8) : take? bs.length (bs ++ rest) = some (bs, rest) := by
  rw [take?, if_pos (by simp), List.take_left, List.drop_left]

/-- Bytes after their number, however the number is spelled. -/
theorem delimited_of_isVarint {count bs : List UInt8} (h : Varint.IsVarint count bs.length)
    (rest : List UInt8) : delimited (count ++ bs ++ rest) = some (bs, rest) := by
  rw [delimited, List.append_assoc, Varint.decode_of_isVarint h]
  exact take?_append bs rest

theorem delimited_delimit {bs : List UInt8} (h : bs.length < 2 ^ 64) (rest : List UInt8) :
    delimited (delimit bs ++ rest) = some (bs, rest) :=
  delimited_of_isVarint (Varint.isVarint_encode h) rest

@[simp] theorem length_toLittleEndian (width n : Nat) : (toLittleEndian width n).length = width := by
  induction width generalizing n with
  | zero => rfl
  | succ width ih => rw [toLittleEndian, List.length_cons, ih]

theorem littleEndian_cons (b : UInt8) (bs : List UInt8) :
    littleEndian (b :: bs) = b.toNat + 256 * littleEndian bs :=
  rfl

theorem littleEndian_toLittleEndian {width n : Nat} (h : n < 256 ^ width) :
    littleEndian (toLittleEndian width n) = n := by
  induction width generalizing n with
  | zero =>
    rw [Nat.pow_zero] at h
    rw [toLittleEndian, Nat.lt_one_iff.1 h]
    rfl
  | succ width ih =>
    have hrest : n / 256 < 256 ^ width := by
      rw [Nat.div_lt_iff_lt_mul (by omega), ← Nat.pow_succ]
      exact h
    have hbyte : (n % 256).toUInt8.toNat = n % 256 := Text.Utf8.toNat_toUInt8 (by omega)
    rw [toLittleEndian, littleEndian_cons, ih hrest, hbyte]
    omega

/-- Every byte of a number is needed. -/
theorem toLittleEndian_littleEndian (bs : List UInt8) :
    toLittleEndian bs.length (littleEndian bs) = bs := by
  induction bs with
  | nil => rfl
  | cons b rest ih =>
    have hsize : b.toNat < 256 := b.toNat_lt
    have hbyte : (b.toNat + 256 * littleEndian rest) % 256 = b.toNat := by omega
    have hrest : (b.toNat + 256 * littleEndian rest) / 256 = littleEndian rest := by omega
    rw [List.length_cons, toLittleEndian, littleEndian_cons, hbyte, hrest, ih, Nat.toUInt8_eq,
      UInt8.ofNat_toNat]

theorem littleEndian_lt (bs : List UInt8) : littleEndian bs < 256 ^ bs.length := by
  induction bs with
  | nil => exact Nat.one_pos
  | cons b rest ih =>
    have hsize : b.toNat < 256 := b.toNat_lt
    rw [littleEndian_cons, List.length_cons, Nat.pow_succ]
    omega

theorem fixed_toLittleEndian {width n : Nat} (h : n < 256 ^ width) (rest : List UInt8) :
    fixed width (toLittleEndian width n ++ rest) = some (n, rest) := by
  have htake := take?_append (toLittleEndian width n) rest
  rw [length_toLittleEndian] at htake
  rw [fixed, htake]
  exact congrArg (fun n => some (n, rest)) (littleEndian_toLittleEndian h)

/-! ## Values -/

/-- The values that a field of a kind may have, messages apart. -/
def Kind.Holds : Kind → Value → Prop
  | .double, .double _ => True
  | .float, .single _ => True
  | .bool, .bool _ => True
  | .string, .text _ => True
  | .bytes, .bytes _ => True
  | .int32, .int i => IsSigned 32 i
  | .sint32, .int i => IsSigned 32 i
  | .sfixed32, .int i => IsSigned 32 i
  | .enumeration _, .int i => IsSigned 32 i
  | .int64, .int i => IsSigned 64 i
  | .sint64, .int i => IsSigned 64 i
  | .sfixed64, .int i => IsSigned 64 i
  | .uint32, .int i => IsUnsigned 32 i
  | .fixed32, .int i => IsUnsigned 32 i
  | .uint64, .int i => IsUnsigned 64 i
  | .fixed64, .int i => IsUnsigned 64 i
  | _, _ => False

/-- A whole number is read as it was written. -/
theorem scalar_scalarBytes_int {kind : Kind} {i : Int} (h : kind.Holds (.int i))
    (rest : List UInt8) :
    scalar kind (scalarBytes kind (.int i) ++ rest) = some (.int i, rest) := by
  have h32 := unsigned_lt 32 i
  have h64 := unsigned_lt 64 i
  have hfixed32 : fixed 4 (toLittleEndian 4 (unsigned 32 i) ++ rest) = some (unsigned 32 i, rest) :=
    fixed_toLittleEndian h32 rest
  have hfixed64 : fixed 8 (toLittleEndian 8 (unsigned 64 i) ++ rest) = some (unsigned 64 i, rest) :=
    fixed_toLittleEndian h64 rest
  -- what is left is that the word that was written gives the number back
  have hend {j : Int} (hj : j = i) : some (Value.int j, rest) = some (.int i, rest) := by rw [hj]
  cases kind <;> simp only [Kind.Holds] at h
  case int32 | enumeration =>
    simp only [scalar, scalarBytes, Varint.decode_encode h64]
    exact hend (signed_unsigned (by decide) (by decide) h)
  case int64 =>
    simp only [scalar, scalarBytes, Varint.decode_encode h64]
    exact hend (signed_unsigned (by decide) (by decide) h)
  case uint32 =>
    simp only [scalar, scalarBytes, Varint.decode_encode (Nat.lt_trans h32 (by decide))]
    have hmod : unsigned 32 i % 2 ^ 32 = unsigned 32 i := Nat.mod_eq_of_lt h32
    refine hend ?_
    show ((unsigned 32 i % 2 ^ 32 : Nat) : Int) = i
    rw [hmod]
    exact unsigned_of_isUnsigned h
  case uint64 =>
    simp only [scalar, scalarBytes, Varint.decode_encode h64]
    exact hend (unsigned_of_isUnsigned h)
  case sint32 =>
    have hword := unzigzag_lt (by decide) h
    simp only [scalar, scalarBytes, Varint.decode_encode (Nat.lt_trans hword (by decide))]
    have hmod : unzigzag i % 2 ^ 32 = unzigzag i := Nat.mod_eq_of_lt hword
    refine hend ?_
    show zigzag (unzigzag i % 2 ^ 32) = i
    rw [hmod]
    exact zigzag_unzigzag i
  case sint64 =>
    simp only [scalar, scalarBytes, Varint.decode_encode (unzigzag_lt (by decide) h)]
    exact hend (zigzag_unzigzag i)
  case fixed32 =>
    simp only [scalar, scalarBytes, hfixed32]
    exact hend (unsigned_of_isUnsigned h)
  case fixed64 =>
    simp only [scalar, scalarBytes, hfixed64]
    exact hend (unsigned_of_isUnsigned h)
  case sfixed32 =>
    simp only [scalar, scalarBytes, hfixed32]
    exact hend (signed_unsigned (by decide) (by decide) h)
  case sfixed64 =>
    simp only [scalar, scalarBytes, hfixed64]
    exact hend (signed_unsigned (by decide) (by decide) h)

/-- A value of a kind is read as it was written, and nothing after it is touched. -/
theorem scalar_scalarBytes {kind : Kind} {v : Value} (h : kind.Holds v)
    (hsize : (scalarBytes kind v).length < 2 ^ 64) (rest : List UInt8) :
    scalar kind (scalarBytes kind v ++ rest) = some (v, rest) := by
  cases v with
  | bool b =>
    cases kind <;> simp only [Kind.Holds] at h
    have hword : (if b then 1 else 0) < 2 ^ 64 := by split <;> decide
    simp only [scalar, scalarBytes, Varint.decode_encode hword]
    cases b <;> rfl
  | double d =>
    cases kind <;> simp only [Kind.Holds] at h
    have hword : d.bits.toNat < 256 ^ 8 := d.bits.toNat_lt
    simp only [scalar, scalarBytes, fixed_toLittleEndian hword]
    simp
  | single bits =>
    cases kind <;> simp only [Kind.Holds] at h
    have hword : bits.toNat < 256 ^ 4 := bits.toNat_lt
    simp only [scalar, scalarBytes, fixed_toLittleEndian hword]
    simp
  | text s =>
    cases kind <;> simp only [Kind.Holds] at h
    have hlength : (Text.Utf8.encode s.toList).length < 2 ^ 64 := by
      simp only [scalarBytes, delimit, List.length_append] at hsize
      omega
    simp only [scalar, scalarBytes, delimited_delimit hlength]
    simp [Text.Utf8.decode?_encode]
  | bytes bs =>
    cases kind <;> simp only [Kind.Holds] at h
    have hlength : bs.length < 2 ^ 64 := by
      simp only [scalarBytes, delimit, List.length_append] at hsize
      omega
    simp only [scalar, scalarBytes, delimited_delimit hlength]
    rfl
  | int i => exact scalar_scalarBytes_int h rest
  | message fields => cases kind <;> simp only [Kind.Holds] at h

end AuthGate.Proto
