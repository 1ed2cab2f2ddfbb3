import AuthGate.Proofs.Text.Digits
import AuthGate.Proofs.Text.Split
import AuthGate.Proofs.Text.Utf8
import AuthGate.Text.Percent

set_option autoImplicit false

/-! # Percent encoding and form data are read as they are written

An escape is read as its byte wherever it stands, so a text that was escaped is read as that text,
whatever follows it (`percentDecode_percentEncode_append`), and names and values that were written
as form data are read as those names and values (`formPairs_formText`). What is written has no
separators in it but those between the parts. -/

namespace AuthGate.Text

/-! ## Bytes of characters -/

theorem encode_cons_of_ascii {c : Char} (h : c.toNat < 0x80) (cs : List Char) :
    Utf8.encode (c :: cs) = byte c :: Utf8.encode cs := by
  rw [Utf8.encode, List.flatMap_cons, Utf8.encodeChar_one rfl h]
  rfl

/-- A byte below 128 is that of the character of its number. -/
theorem encode_ofNat {b : UInt8} (h : b.toNat < 0x80) : Utf8.encode [Char.ofNat b.toNat] = [b] := by
  have hcode : (Char.ofNat b.toNat).toNat = b.toNat := Utf8.toNat_ofNat (by omega)
  rw [encode_cons_of_ascii (by omega), byte, hcode, Nat.toUInt8_eq, UInt8.ofNat_toNat]
  rfl

theorem byte_ofNat (b : UInt8) : byte (Char.ofNat b.toNat) = b := by
  have hsize := b.toNat_lt
  rw [byte, Utf8.toNat_ofNat (by omega), Nat.toUInt8_eq, UInt8.ofNat_toNat]

/-- The bytes of texts with separators between them are those of the texts with the bytes of the
    separators between them. -/
theorem encode_intercalate {sep : Char} (h : sep.toNat < 0x80) (pieces : List (List Char)) :
    Utf8.encode ([sep].intercalate pieces) = [byte sep].intercalate (pieces.map Utf8.encode) := by
  induction pieces with
  | nil => rfl
  | cons piece rest ih =>
    cases rest with
    | nil => simp
    | cons next rest =>
      rw [List.intercalate_cons_cons, Utf8.encode_append, Utf8.encode_append, ih,
        encode_cons_of_ascii h]
      simp only [List.map_cons, List.intercalate_cons_cons]
      rfl

theorem toNat_lt_of_isAlphanumeric {b : UInt8} (h : isAlphanumeric b = true) : b.toNat < 0x80 := by
  have hsize := b.toNat_lt
  have hcode : (Char.ofNat b.toNat).toNat = b.toNat := Utf8.toNat_ofNat (by omega)
  simp only [isAlphanumeric, isDigit, Bool.or_eq_true, Bool.and_eq_true, decide_eq_true_eq,
    le_iff_toNat_le, hcode] at h
  rcases h with (⟨-, h⟩ | ⟨-, h⟩) | ⟨-, h⟩ <;> exact Nat.lt_of_le_of_lt h (by decide)

/-! ## Escapes -/

theorem hexByte?_upperHexDigit {n : Nat} (h : n < 16) :
    hexByte? (byte (upperHexDigit n)) = some n := by
  have hall : ∀ n < 16, hexByte? (byte (upperHexDigit n)) = some n := by decide
  exact hall n h

theorem isAlphanumeric_upperHexDigit {n : Nat} (h : n < 16) :
    isAlphanumeric (byte (upperHexDigit n)) = true := by
  have hall : ∀ n < 16, isAlphanumeric (byte (upperHexDigit n)) = true := by decide
  exact hall n h

theorem toNat_upperHexDigit_lt {n : Nat} (h : n < 16) : (upperHexDigit n).toNat < 0x80 := by
  have hall : ∀ n < 16, (upperHexDigit n).toNat < 0x80 := by decide
  exact hall n h

theorem encode_percentByte (b : UInt8) : Utf8.encode (percentByte b) =
    [byte '%', byte (upperHexDigit (b.toNat / 16)), byte (upperHexDigit (b.toNat % 16))] := by
  have hsize := b.toNat_lt
  rw [percentByte, encode_cons_of_ascii (by decide),
    encode_cons_of_ascii (toNat_upperHexDigit_lt (by omega)),
    encode_cons_of_ascii (toNat_upperHexDigit_lt (by omega))]
  rfl

theorem percentDecode_cons_of_ne {b : UInt8} (h : b ≠ byte '%') (rest : List UInt8) :
    percentDecode (b :: rest) = b :: percentDecode rest := by
  rw [percentDecode.eq_def]
  simp only [if_neg h]

theorem percentDecode_eq_self {bs : List UInt8} (h : byte '%' ∉ bs) : percentDecode bs = bs := by
  induction bs with
  | nil => rfl
  | cons b rest ih =>
    rw [List.mem_cons, not_or] at h
    rw [percentDecode_cons_of_ne (Ne.symm h.1), ih h.2]

/-- An escape is read as its byte, whatever follows it. -/
theorem percentDecode_escape (b : UInt8) (rest : List UInt8) :
    percentDecode (byte '%' :: byte (upperHexDigit (b.toNat / 16)) ::
      byte (upperHexDigit (b.toNat % 16)) :: rest) = b :: percentDecode rest := by
  have hsize := b.toNat_lt
  have hvalue : b.toNat / 16 * 16 + b.toNat % 16 = b.toNat := by omega
  rw [percentDecode, if_pos rfl, hexByte?_upperHexDigit (by omega),
    hexByte?_upperHexDigit (by omega)]
  simp only [hvalue, Nat.toUInt8_eq, UInt8.ofNat_toNat]

/-- What is written byte by byte is read if each byte is. -/
theorem percentDecode_flatMap_append {write : UInt8 → List UInt8}
    (h : ∀ b rest, percentDecode (write b ++ rest) = b :: percentDecode rest)
    (bs rest : List UInt8) :
    percentDecode (bs.flatMap write ++ rest) = bs ++ percentDecode rest := by
  induction bs with
  | nil => rfl
  | cons b bs ih => rw [List.flatMap_cons, List.append_assoc, h, ih, List.cons_append]

/-! ## Percent encoding -/

/-- A byte in percent encoding. -/
def percentChar (b : UInt8) : List Char :=
  if isAlphanumeric b then [Char.ofNat b.toNat] else percentByte b

theorem percentDecode_percentChar_append (b : UInt8) (rest : List UInt8) :
    percentDecode (Utf8.encode (percentChar b) ++ rest) = b :: percentDecode rest := by
  rw [percentChar]
  split
  · next h =>
    have hplain : b ≠ byte '%' := by
      rintro rfl
      exact absurd h (by decide)
    rw [encode_ofNat (toNat_lt_of_isAlphanumeric h), List.singleton_append,
      percentDecode_cons_of_ne hplain]
  · rw [encode_percentByte]
    exact percentDecode_escape b rest

/-- A text that was escaped is read as that text, whatever follows it. -/
theorem percentDecode_percentEncode_append (cs : List Char) (rest : List UInt8) :
    percentDecode (Utf8.encode (percentEncode cs) ++ rest) =
      Utf8.encode cs ++ percentDecode rest := by
  have hbytes : Utf8.encode (percentEncode cs) =
      (Utf8.encode cs).flatMap fun b => Utf8.encode (percentChar b) :=
    List.flatMap_assoc
  rw [hbytes, percentDecode_flatMap_append percentDecode_percentChar_append]

/-- An escape consists of a percent sign and two digits. -/
theorem eq_or_isAlphanumeric_of_mem_percentByte {c : Char} {b : UInt8} (h : c ∈ percentByte b) :
    c = '%' ∨ isAlphanumeric (byte c) = true := by
  have hsize := b.toNat_lt
  simp only [percentByte, List.mem_cons, List.not_mem_nil, or_false] at h
  rcases h with rfl | rfl | rfl
  · exact .inl rfl
  · exact .inr (isAlphanumeric_upperHexDigit (by omega))
  · exact .inr (isAlphanumeric_upperHexDigit (by omega))

/-- Nothing but letters, digits and percent signs is written. -/
theorem eq_or_isAlphanumeric_of_mem_percentEncode {c : Char} {cs : List Char}
    (h : c ∈ percentEncode cs) : c = '%' ∨ isAlphanumeric (byte c) = true := by
  obtain ⟨b, -, h⟩ := List.mem_flatMap.1 h
  split at h
  · next hb =>
    obtain rfl := List.mem_singleton.1 h
    exact .inr (by rwa [byte_ofNat])
  · exact eq_or_isAlphanumeric_of_mem_percentByte h

theorem notMem_percentEncode {c : Char} (hpercent : c ≠ '%')
    (hplain : isAlphanumeric (byte c) = false) (cs : List Char) : c ∉ percentEncode cs := by
  intro hmem
  rcases eq_or_isAlphanumeric_of_mem_percentEncode hmem with h | h
  · exact hpercent h
  · rw [hplain] at h
    cases h

/-! ## Form data -/

/-- A byte in form data. -/
def formChar (b : UInt8) : List Char :=
  if b = byte ' ' then ['+']
  else if isAlphanumeric b || ['*', '-', '.', '_'].any fun c => byte c = b then
    [Char.ofNat b.toNat]
  else percentByte b

/-- A plus sign in form data is a space. -/
def spaced (b : UInt8) : UInt8 := if b = byte '+' then byte ' ' else b

theorem spaced_of_isAlphanumeric {b : UInt8} (h : isAlphanumeric b = true) : spaced b = b := by
  refine if_neg ?_
  rintro rfl
  exact absurd h (by decide)

/-- The four marks that are written as they are. -/
theorem mark_of_any {b : UInt8} (h : (['*', '-', '.', '_'].any fun c => byte c = b) = true) :
    b.toNat < 0x80 ∧ b ≠ byte '%' ∧ spaced b = b := by
  obtain ⟨c, hc, hb⟩ := List.any_eq_true.1 h
  obtain rfl := of_decide_eq_true hb
  simp only [List.mem_cons, List.not_mem_nil, or_false] at hc
  rcases hc with rfl | rfl | rfl | rfl <;> decide

theorem percentDecode_formChar_append (b : UInt8) (rest : List UInt8) :
    percentDecode ((Utf8.encode (formChar b)).map spaced ++ rest) = b :: percentDecode rest := by
  rw [formChar]
  split
  · next h =>
    rw [h]
    exact percentDecode_cons_of_ne (by decide) rest
  · split
    · next h =>
      have hplain : b.toNat < 0x80 ∧ b ≠ byte '%' ∧ spaced b = b := by
        rcases Bool.or_eq_true_iff.1 h with h | h
        · refine ⟨toNat_lt_of_isAlphanumeric h, ?_, spaced_of_isAlphanumeric h⟩
          rintro rfl
          exact absurd h (by decide)
        · exact mark_of_any h
      obtain ⟨hascii, hpercent, hspaced⟩ := hplain
      rw [encode_ofNat hascii, List.map_singleton, hspaced, List.singleton_append,
        percentDecode_cons_of_ne hpercent]
    · have hsize := b.toNat_lt
      have hpercent : spaced (byte '%') = byte '%' := by decide
      rw [encode_percentByte]
      simp only [List.map_cons, List.map_nil, hpercent,
        spaced_of_isAlphanumeric (isAlphanumeric_upperHexDigit (n := b.toNat / 16) (by omega)),
        spaced_of_isAlphanumeric (isAlphanumeric_upperHexDigit (n := b.toNat % 16) (by omega))]
      exact percentDecode_escape b rest

/-- A name or a value is read as it was written. -/
theorem formDecode_formEncode (cs : List Char) :
    formDecode (Utf8.encode (formEncode cs)) = String.ofList cs := by
  have hbytes : (Utf8.encode (formEncode cs)).map spaced =
      (Utf8.encode cs).flatMap fun b => (Utf8.encode (formChar b)).map spaced := by
    rw [← List.map_flatMap]
    exact congrArg (List.map spaced) List.flatMap_assoc
  have hread := percentDecode_flatMap_append percentDecode_formChar_append (Utf8.encode cs) []
  rw [List.append_nil, ← hbytes] at hread
  have hend : percentDecode [] = [] := rfl
  show String.ofList (Utf8.decodeLossy
    (percentDecode ((Utf8.encode (formEncode cs)).map spaced))) = String.ofList cs
  rw [hread, hend, List.append_nil, Utf8.decodeLossy_encode]

/-- No separator is written in a name or a value. -/
theorem separator_notMem_formEncode {c : Char} (hc : c = '&' ∨ c = '=') (cs : List Char) :
    c ∉ formEncode cs := by
  intro hmem
  obtain ⟨b, -, h⟩ := List.mem_flatMap.1 hmem
  have hescape : c ∉ percentByte b := by
    intro h
    rcases eq_or_isAlphanumeric_of_mem_percentByte h with h | h
    · rcases hc with rfl | rfl <;> exact absurd h (by decide)
    · rcases hc with rfl | rfl <;> exact absurd h (by decide)
  split at h
  · obtain rfl := List.mem_singleton.1 h
    exact absurd hc (by decide)
  · split at h
    · next hplain =>
      have hbyte : byte c = b := by
        obtain rfl := List.mem_singleton.1 h
        exact byte_ofNat b
      rw [← hbyte] at hplain
      rcases hc with rfl | rfl <;> exact absurd hplain (by decide)
    · exact hescape h

/-! ## Pieces -/

theorem takeWhile_bne {sep : UInt8} {before : List UInt8} (h : sep ∉ before) (after : List UInt8) :
    (before ++ after).takeWhile (· != sep) = before ++ after.takeWhile (· != sep) ∧
      (before ++ after).dropWhile (· != sep) = after.dropWhile (· != sep) := by
  have hbefore : ∀ b ∈ before, (b != sep) = true := by
    intro b hb
    rw [bne_iff_ne]
    rintro rfl
    exact h hb
  exact ⟨List.takeWhile_append_of_pos hbefore, List.dropWhile_append_of_pos hbefore⟩

theorem splitAtByte_append_cons {sep : UInt8} {before : List UInt8} (h : sep ∉ before)
    (after : List UInt8) : splitAtByte sep (before ++ sep :: after) = (before, after) := by
  obtain ⟨htake, hdrop⟩ := takeWhile_bne h (sep :: after)
  rw [splitAtByte, htake, hdrop]
  simp

theorem splitAtByte_of_notMem {sep : UInt8} {bs : List UInt8} (h : sep ∉ bs) :
    splitAtByte sep bs = (bs, []) := by
  obtain ⟨htake, hdrop⟩ := takeWhile_bne h []
  rw [List.append_nil] at htake hdrop
  rw [splitAtByte, htake, hdrop]
  simp

/-- A name and its value in form data. -/
def formPiece (p : String × String) : List Char :=
  formEncode p.1.toList ++ '=' :: formEncode p.2.toList

theorem formText_eq_intercalate (pairs : List (String × String)) :
    formText pairs = ['&'].intercalate (pairs.map formPiece) := by
  induction pairs with
  | nil => rfl
  | cons p rest ih =>
    obtain ⟨name, value⟩ := p
    cases rest with
    | nil => simp [formText, formPiece]
    | cons next rest =>
      rw [formText, ih]
      simp only [List.map_cons, List.intercalate_cons_cons, formPiece, List.append_assoc,
        List.cons_append, List.nil_append]

theorem encode_formPiece (p : String × String) : Utf8.encode (formPiece p) =
    Utf8.encode (formEncode p.1.toList) ++ byte '=' :: Utf8.encode (formEncode p.2.toList) := by
  rw [formPiece, Utf8.encode_append, encode_cons_of_ascii (by decide)]

theorem formPair_formPiece (p : String × String) : formPair (Utf8.encode (formPiece p)) = p := by
  have hname : byte '=' ∉ Utf8.encode (formEncode p.1.toList) := by
    rw [byte, Utf8.mem_encode_iff_of_ascii (by decide)]
    exact separator_notMem_formEncode (.inr rfl) _
  rw [encode_formPiece, formPair, splitAtByte_append_cons hname]
  simp only [formDecode_formEncode, String.ofList_toList]

/-- Names and values are read as they were written. -/
theorem formPairs_formText (pairs : List (String × String)) :
    formPairs (Utf8.encode (formText pairs)) = pairs := by
  cases pairs with
  | nil => rfl
  | cons p rest =>
    have hpieces : ∀ piece ∈ ((p :: rest).map formPiece).map Utf8.encode, byte '&' ∉ piece := by
      intro piece hpiece
      simp only [List.map_map, List.mem_map, Function.comp_apply] at hpiece
      obtain ⟨q, -, rfl⟩ := hpiece
      rw [byte, Utf8.mem_encode_iff_of_ascii (by decide), formPiece]
      simp [separator_notMem_formEncode]
    have hkept : (((p :: rest).map formPiece).map Utf8.encode).filter (!·.isEmpty) =
        ((p :: rest).map formPiece).map Utf8.encode := by
      rw [List.filter_eq_self]
      intro piece hpiece
      simp only [List.map_map, List.mem_map, Function.comp_apply] at hpiece
      obtain ⟨q, -, rfl⟩ := hpiece
      rw [encode_formPiece]
      simp
    rw [formPairs, formText_eq_intercalate, encode_intercalate (by decide),
      splitAll_intercalate hpieces (by simp), hkept, List.map_map, List.map_map]
    exact (List.map_congr_left fun q _ => formPair_formPiece q).trans (List.map_id _)

end AuthGate.Text
