import AuthGate.Json.Parser
import AuthGate.Proofs.Decimal.Finite
import AuthGate.Proofs.Json.WellFormed

set_option autoImplicit false

/-! # Documents that are read

What is read from text is a well-formed document: `Json.WellFormed.of_ofBytes?`. Objects are sorted
when they are put together, and a number is finite: if it is multiplied with a power of ten it is
refused where the product is not, and what 64 bits hold divided by powers of ten stays small. -/

namespace AuthGate.Json

/-- What was read is what a reader returned. -/
theorem fst_eq_of_some {α : Type} {a b : α} {cs rest : List Char}
    (h : some (a, cs) = some (b, rest)) : a = b :=
  (Prod.mk.inj (Option.some.inj h)).1

/-! ## Numbers -/

/-- Digits that 64 bits hold. -/
def Scan.Fits (s : Scan) : Prop := s.digits < 0x10000000000000000

theorem Scan.fits_of_push? {s : Scan} {c : Char} {n : Nat} (h : s.push? c = some n) (e : Int) :
    Scan.Fits ⟨n, e⟩ := by
  rw [push?, Option.ite_none_right_eq_some] at h
  obtain ⟨hlt, hn⟩ := h
  obtain rfl := Option.some.inj hn
  exact hlt

theorem integerDigits_fits {s : Scan} (h : s.Fits) (cs : List Char) :
    (integerDigits s cs).1.Fits := by
  induction cs generalizing s with
  | nil => exact h
  | cons c cs ih =>
    -- not by the equations of the function: to make them takes the bound of 64 bits apart
    show (if Text.isDigit c then _ else _ : Scan × Bool × List Char).1.Fits
    split
    · split
      · next n hpush => exact ih (Scan.fits_of_push? hpush _)
      · exact h
    · exact h

theorem fractionDigits_fits {s : Scan} (h : s.Fits) (cs : List Char) :
    (fractionDigits s cs).1.Fits := by
  induction cs generalizing s with
  | nil => exact h
  | cons c cs ih =>
    show (if Text.isDigit c then _ else _ : Scan × List Char).1.Fits
    split
    · split
      · next n hpush => exact ih (Scan.fits_of_push? hpush _)
      · exact h
    · exact h

open Double

/-- What 64 bits hold is far from the largest double. -/
theorem exponentField_ofInt_le {i : Int} (h : i.natAbs < 0x10000000000000000) :
    (Double.ofInt i).exponentField ≤ 1090 :=
  exponentField_ofRatio_le (k := 64) one_pos (by omega) (by omega)

/-- A double that is not large divided by a power of ten is not large either. -/
theorem exponentField_div_powerOfTen_le {a : Double} {k e : Nat} (ha : a.exponentField ≤ k + 1075)
    (hk : k < 900) (he : e ≤ 308) :
    (a.div (ofDecimal false 1 e)).exponentField ≤ k + 1079 := by
  obtain ⟨hnormal, hone⟩ := normal_powerOfTen e (by omega)
  have hscale : a.scale ≤ k := by
    simp only [scale]
    omega
  exact exponentField_div_le (k := k + 52) hnormal (by omega) (by omega)

theorem Scan.isFinite_toDouble? {s : Scan} (hs : s.Fits) {d : Double} (h : s.toDouble? = some d) :
    d.isFinite = true := by
  have hwhole := exponentField_ofInt_le (i := s.digits) (by rwa [Int.natAbs_natCast])
  simp only [toDouble?] at h
  split at h
  · split at h
    · rw [Option.ite_none_right_eq_some] at h
      obtain ⟨hfinite, hd⟩ := h
      exact Option.some.inj hd ▸ hfinite
    · rw [Option.ite_none_right_eq_some] at h
      obtain ⟨-, hd⟩ := h
      obtain rfl := Option.some.inj hd
      exact isFinite_of_exponentField_lt (by omega)
  · split at h
    · next hsmall =>
      obtain rfl := Option.some.inj h
      have hdiv := exponentField_div_powerOfTen_le (k := 15) hwhole (by omega) hsmall
      exact isFinite_of_exponentField_lt (by omega)
    · split at h
      · obtain rfl := Option.some.inj h
        have hfirst := exponentField_div_powerOfTen_le (k := 15) hwhole (by omega) (le_refl 308)
        have hdiv := exponentField_div_powerOfTen_le (k := 19) hfirst (by omega)
          (e := s.exponent.natAbs - 308) (by omega)
        exact isFinite_of_exponentField_lt (by omega)
      · obtain rfl := Option.some.inj h
        rfl

theorem Scan.isFinite_of_bind {s : Scan} (hs : s.Fits) {cs rest : List Char} {d : Double}
    (h : (s.toDouble? >>= fun x => pure (x, cs)) = some (d, rest)) : d.isFinite = true := by
  obtain ⟨d', hd, hret⟩ := Option.bind_eq_some_iff.1 h
  obtain rfl := fst_eq_of_some hret
  exact isFinite_toDouble? hs hd

theorem isFinite_withExponent? {s : Scan} (hs : s.Fits) {cs rest : List Char} {d : Double}
    (h : withExponent? s cs = some (d, rest)) : d.isFinite = true := by
  cases cs with
  | nil => exact Scan.isFinite_of_bind hs h
  | cons c cs =>
    simp only [withExponent?] at h
    split at h
    · obtain ⟨⟨e, after⟩, -, h⟩ := Option.bind_eq_some_iff.1 h
      simp only at h
      split at h
      · -- the exponent is beyond the limit: the number is zero or refused
        split at h
        · cases h
        · obtain rfl := fst_eq_of_some h
          rfl
      · exact Scan.isFinite_of_bind (s := ⟨s.digits, s.exponent + e⟩) hs h
    · exact Scan.isFinite_of_bind hs h

/-- A number that is read before its sign is known: 64 bits hold it, or it is finite. -/
def SizeFits : Nat ⊕ Double → Prop
  | .inl n => n < 0x10000000000000000
  | .inr d => d.isFinite = true

theorem sizeFits_of_withExponent? {s : Scan} (hs : s.Fits) {cs rest : List Char} {n : Nat ⊕ Double}
    (h : (withExponent? s cs >>= fun x => pure (.inr x.1, x.2)) = some (n, rest)) : SizeFits n := by
  obtain ⟨⟨d, after⟩, hd, hret⟩ := Option.bind_eq_some_iff.1 h
  obtain rfl := fst_eq_of_some hret
  exact isFinite_withExponent? hs hd

theorem size?_fits {cs rest : List Char} {n : Nat ⊕ Double} (h : size? cs = some (n, rest)) :
    SizeFits n := by
  cases cs with
  | nil => cases h
  | cons c cs =>
    have hdigits : (if c = '0' then (⟨0, 0⟩, true, cs) else integerDigits ⟨0, 0⟩ (c :: cs) :
        Scan × Bool × List Char).1.Fits := by
      have hstart : Scan.Fits ⟨0, 0⟩ := Nat.two_pow_pos 64
      split
      · exact hstart
      · exact integerDigits_fits hstart _
    simp only [size?] at h
    split at h
    · cases h
    generalize (if c = '0' then (⟨0, 0⟩, true, cs) else integerDigits ⟨0, 0⟩ (c :: cs) :
      Scan × Bool × List Char) = scanned at h hdigits
    obtain ⟨s, kept, after⟩ := scanned
    simp only at h hdigits
    split at h
    · -- a point and digits after it
      rw [Option.ite_none_right_eq_some] at h
      exact sizeFits_of_withExponent? (fractionDigits_fits hdigits _) h.2
    · -- another character: an exponent, or the end of a whole number
      split at h
      · cases h
      · split at h
        · exact sizeFits_of_withExponent? hdigits h
        · obtain rfl := fst_eq_of_some h
          exact hdigits
    · split at h
      · obtain rfl := fst_eq_of_some h
        exact hdigits
      · exact sizeFits_of_withExponent? hdigits h

theorem isFinite_ofInt {i : Int} (h : i.natAbs < 0x10000000000000000) :
    (Number.ofInt i).IsFinite := by
  have hfield := exponentField_ofInt_le h
  rw [Number.ofInt]
  split
  · trivial
  · exact isFinite_of_exponentField_lt (by omega)

theorem isFinite_number? {cs rest : List Char} {n : Number} (h : number? cs = some (n, rest)) :
    n.IsFinite := by
  rw [number?.eq_def] at h
  split at h
  · obtain ⟨⟨m, after⟩, hm, h⟩ := Option.bind_eq_some_iff.1 h
    have hfits := size?_fits hm
    cases m with
    | inl m =>
      have hsize : (m : Int).natAbs < 0x10000000000000000 := by rwa [Int.natAbs_natCast]
      simp only at h
      split at h
      · obtain rfl := fst_eq_of_some h
        rw [← Int.natAbs_neg] at hsize
        exact isFinite_ofInt hsize
      · obtain rfl := fst_eq_of_some h
        have hfield := exponentField_ofInt_le hsize
        exact (isFinite_negate _).trans (isFinite_of_exponentField_lt (by omega))
    | inr d =>
      obtain rfl := fst_eq_of_some h
      exact (isFinite_negate d).trans hfits
  · obtain ⟨⟨m, after⟩, hm, h⟩ := Option.bind_eq_some_iff.1 h
    have hfits := size?_fits hm
    cases m with
    | inl m =>
      have hsize : (m : Int).natAbs < 0x10000000000000000 := by rwa [Int.natAbs_natCast]
      obtain rfl := fst_eq_of_some h
      -- of a variable the bounds are not evaluated
      generalize (m : Int) = i at hsize ⊢
      exact isFinite_ofInt hsize
    | inr d =>
      obtain rfl := fst_eq_of_some h
      exact hfits

/-! ## Values -/

/-- A reader of well-formed documents. -/
def ReadsWellFormed (item : Reader Json) : Prop :=
  ∀ cs v rest, item cs = some (v, rest) → v.WellFormed

theorem ReadsWellFormed.items {item : Reader Json} (hitem : ReadsWellFormed item) {fuel : Nat}
    {cs rest : List Char} {vs : List Json} (h : items item fuel cs = some (vs, rest)) :
    ItemsWellFormed vs := by
  induction fuel generalizing cs vs with
  | zero => cases h
  | succ fuel ih =>
    obtain ⟨⟨v, after⟩, hv, h⟩ := Option.bind_eq_some_iff.1 h
    have hwell := hitem _ _ _ hv
    simp only at h
    split at h
    · obtain rfl := fst_eq_of_some h
      exact ⟨hwell, trivial⟩
    · obtain ⟨⟨vs', after'⟩, hvs, hret⟩ := Option.bind_eq_some_iff.1 h
      obtain ⟨rfl, rfl⟩ := Prod.mk.inj (Option.some.inj hret)
      exact ⟨hwell, ih hvs⟩
    · cases h

theorem ReadsWellFormed.field {item : Reader Json} (hitem : ReadsWellFormed item)
    {cs rest : List Char} {f : String × Json} (h : field item cs = some (f, rest)) :
    f.2.WellFormed := by
  obtain ⟨⟨name, after⟩, -, h⟩ := Option.bind_eq_some_iff.1 h
  simp only at h
  split at h
  · obtain ⟨⟨v, after'⟩, hv, hret⟩ := Option.bind_eq_some_iff.1 h
    obtain rfl := fst_eq_of_some hret
    exact hitem _ _ _ hv
  · cases h

theorem ReadsWellFormed.members {item : Reader Json} (hitem : ReadsWellFormed item) {fuel : Nat}
    {cs rest : List Char} {fs : List (String × Json)}
    (h : members item fuel cs = some (fs, rest)) : FieldsWellFormed fs := by
  induction fuel generalizing cs fs with
  | zero => cases h
  | succ fuel ih =>
    obtain ⟨⟨f, after⟩, hf, h⟩ := Option.bind_eq_some_iff.1 h
    have hwell := hitem.field hf
    simp only at h
    split at h
    · obtain rfl := fst_eq_of_some h
      exact ⟨hwell, trivial⟩
    · obtain ⟨⟨fs', after'⟩, hfs, hret⟩ := Option.bind_eq_some_iff.1 h
      obtain ⟨rfl, rfl⟩ := Prod.mk.inj (Option.some.inj hret)
      exact ⟨hwell, ih hfs⟩
    · cases h

theorem readsWellFormed_of_shallower {depth : Nat}
    (hshallower : ∀ d, d + 1 = depth → ReadsWellFormed (value d)) :
    ReadsWellFormed (value depth) := by
  intro cs v rest h
  rw [value.eq_def] at h
  simp only at h
  split at h
  · obtain rfl := fst_eq_of_some h
    trivial
  · obtain rfl := fst_eq_of_some h
    trivial
  · obtain rfl := fst_eq_of_some h
    trivial
  · obtain ⟨⟨s, after⟩, -, hret⟩ := Option.bind_eq_some_iff.1 h
    obtain rfl := fst_eq_of_some hret
    trivial
  · split at h
    · cases h
    · split at h
      · obtain rfl := fst_eq_of_some h
        trivial
      · obtain ⟨⟨vs, after⟩, hvs, hret⟩ := Option.bind_eq_some_iff.1 h
        obtain rfl := fst_eq_of_some hret
        exact (hshallower _ rfl).items hvs
  · split at h
    · cases h
    · split at h
      · obtain rfl := fst_eq_of_some h
        exact ⟨Fields.sorted_nil, trivial⟩
      · obtain ⟨⟨fs, after⟩, hfs, hret⟩ := Option.bind_eq_some_iff.1 h
        obtain rfl := fst_eq_of_some hret
        exact .ofFields ((hshallower _ rfl).members hfs)
  · obtain ⟨⟨n, after⟩, hn, hret⟩ := Option.bind_eq_some_iff.1 h
    obtain rfl := fst_eq_of_some hret
    exact isFinite_number? hn

theorem readsWellFormed_value (depth : Nat) : ReadsWellFormed (value depth) := by
  induction depth with
  | zero => exact readsWellFormed_of_shallower fun _ h => absurd h (Nat.succ_ne_zero _)
  | succ depth ih =>
    refine readsWellFormed_of_shallower fun d h => ?_
    obtain rfl := Nat.succ.inj h
    exact ih

/-- A document that is read is well-formed. -/
theorem WellFormed.of_ofBytes? {bs : List UInt8} {v : Json} (h : ofBytes? bs = some v) :
    v.WellFormed := by
  obtain ⟨cs, -, h⟩ := Option.bind_eq_some_iff.1 h
  obtain ⟨⟨v', rest⟩, hv, h⟩ := Option.bind_eq_some_iff.1 h
  simp only [Option.ite_none_right_eq_some] at h
  obtain rfl := Option.some.inj h.2
  exact readsWellFormed_value _ _ _ _ hv

end AuthGate.Json
