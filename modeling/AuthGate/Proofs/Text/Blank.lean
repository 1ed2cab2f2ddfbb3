import AuthGate.Text.Blank
import Mathlib.Data.List.DropRight

set_option autoImplicit false

/-! # Blanks around a text

Trimming takes away the blanks around a text and nothing else. The main statement is
`trim_eq_iff`. -/

namespace AuthGate.Text

/-- Blanks only. -/
def AreBlank (cs : List Char) : Prop := ∀ c ∈ cs, isBlank c = true

theorem areBlank_nil : AreBlank [] := fun _ hc => absurd hc List.not_mem_nil

/-- No blank at either end. -/
structure Trimmed (cs : List Char) : Prop where
  head : ∀ c ∈ cs.head?, isBlank c = false
  last : ∀ c ∈ cs.getLast?, isBlank c = false

/-! ## One end -/

theorem trimLeft_append {l : List Char} (h : AreBlank l) (cs : List Char) :
    trimLeft (l ++ cs) = trimLeft cs :=
  List.dropWhile_append_of_pos h

theorem trimLeft_cons {c : Char} (h : isBlank c = false) (cs : List Char) :
    trimLeft (c :: cs) = c :: cs := by
  simp [trimLeft, h]

theorem exists_trimLeft (cs : List Char) : ∃ l, AreBlank l ∧ cs = l ++ trimLeft cs :=
  ⟨cs.takeWhile isBlank, fun _ h => List.mem_takeWhile_imp h,
    List.takeWhile_append_dropWhile.symm⟩

theorem head_trimLeft (cs : List Char) : ∀ c ∈ (trimLeft cs).head?, isBlank c = false := by
  intro c hc
  have h := List.head?_dropWhile_not isBlank cs
  rw [trimLeft, Option.mem_def] at hc
  simpa only [hc] using h

theorem trimRight_append {r : List Char} (h : AreBlank r) (cs : List Char) :
    trimRight (cs ++ r) = trimRight cs := by
  have hreverse : ∀ c ∈ r.reverse, isBlank c = true := fun c hc => h c (List.mem_reverse.1 hc)
  rw [trimRight, List.reverse_append, List.dropWhile_append_of_pos hreverse]
  rfl

theorem trimRight_concat {c : Char} (h : isBlank c = false) (cs : List Char) :
    trimRight (cs ++ [c]) = cs ++ [c] :=
  List.rdropWhile_concat_neg isBlank cs c (by simp [h])

theorem exists_trimRight (cs : List Char) : ∃ r, AreBlank r ∧ cs = trimRight cs ++ r :=
  ⟨cs.rtakeWhile isBlank, fun _ h => List.mem_rtakeWhile_imp h,
    List.rdropWhile_append_rtakeWhile.symm⟩

theorem last_trimRight (cs : List Char) : ∀ c ∈ (trimRight cs).getLast?, isBlank c = false := by
  intro c hc
  have h := List.head?_dropWhile_not isBlank cs.reverse
  rw [trimRight, List.getLast?_reverse, Option.mem_def] at hc
  simpa only [hc] using h

theorem trimRight_eq_self {cs : List Char} (h : ∀ c ∈ cs.getLast?, isBlank c = false) :
    trimRight cs = cs := by
  rcases List.eq_nil_or_concat' cs with rfl | ⟨init, c, rfl⟩
  · rfl
  · exact trimRight_concat (h c (by simp)) init

/-- Nothing is taken away in front of a character that is no blank. -/
theorem trimRight_append_cons {c : Char} (h : isBlank c = false) (cs r : List Char) :
    trimRight (cs ++ c :: r) = cs ++ c :: trimRight r := by
  obtain ⟨blank, hblank, hr⟩ := exists_trimRight r
  have hsplit : cs ++ c :: r = (cs ++ c :: trimRight r) ++ blank := by
    rw [List.append_assoc, List.cons_append, ← hr]
  rw [hsplit, trimRight_append hblank]
  apply trimRight_eq_self
  have hlast := last_trimRight r
  rcases List.eq_nil_or_concat' (trimRight r) with hnil | ⟨init, d, hconcat⟩
  · rw [hnil]
    simpa using h
  · rw [hconcat] at hlast ⊢
    rw [← List.cons_append, ← List.append_assoc, List.getLast?_concat]
    simpa using hlast

/-- A text is blank if what is left of it is. -/
theorem areBlank_of_areBlank_trimRight {cs : List Char} (h : AreBlank (trimRight cs)) :
    AreBlank cs := by
  obtain ⟨r, hr, hcs⟩ := exists_trimRight cs
  intro c hc
  rw [hcs] at hc
  exact (List.mem_append.1 hc).elim (h c) (hr c)

/-! ## Both ends -/

theorem Trimmed.trim_eq {l cs r : List Char} (h : Trimmed cs) (hl : AreBlank l)
    (hr : AreBlank r) : trim (l ++ (cs ++ r)) = cs := by
  rw [trim, trimLeft_append hl]
  cases cs with
  | nil =>
    have hnil : trimLeft r = [] := List.dropWhile_eq_nil_iff.2 hr
    rw [List.nil_append, hnil]
    rfl
  | cons c rest =>
    rw [List.cons_append, trimLeft_cons (h.head c rfl), ← List.cons_append, trimRight_append hr,
      trimRight_eq_self h.last]

theorem trimmed_trim (cs : List Char) : Trimmed (trim cs) where
  head c hc := by
    obtain ⟨r, -, htrim⟩ := exists_trimRight (trimLeft cs)
    apply head_trimLeft cs
    rw [htrim, List.head?_append, show (trimRight (trimLeft cs)).head? = some c from hc]
    rfl
  last := last_trimRight _

/-- Trimming takes away the blanks around a text and nothing else. -/
theorem trim_eq_iff {cs text : List Char} :
    trim cs = text ↔ ∃ l r, AreBlank l ∧ AreBlank r ∧ cs = l ++ (text ++ r) ∧ Trimmed text := by
  constructor
  · rintro rfl
    obtain ⟨l, hl, hcs⟩ := exists_trimLeft cs
    obtain ⟨r, hr, htrim⟩ := exists_trimRight (trimLeft cs)
    exact ⟨l, r, hl, hr, htrim ▸ hcs, trimmed_trim cs⟩
  · rintro ⟨l, r, hl, hr, rfl, h⟩
    exact h.trim_eq hl hr

/-! ## Separators -/

/-- The text up to the first separator, which does not occur in it. -/
theorem splitOnce_eq_some_iff {sep : Char} {cs before after : List Char} :
    splitOnce sep cs = some (before, after) ↔ cs = before ++ sep :: after ∧ sep ∉ before := by
  induction cs generalizing before after with
  | nil => simp [splitOnce]
  | cons c rest ih =>
    simp only [splitOnce]
    split
    · next h =>
      subst h
      cases before with
      | nil => simp
      | cons b before =>
        simp only [Option.some.injEq, Prod.mk.injEq, List.cons_append, List.cons.injEq,
          List.mem_cons, not_or]
        constructor
        · rintro ⟨h, -⟩
          cases h
        · rintro ⟨⟨h, -⟩, hne, -⟩
          exact absurd h hne
    · next h =>
      cases before with
      | nil => simp [h]
      | cons b before =>
        simp only [Option.map_eq_some_iff, Prod.exists, ih, Prod.mk.injEq, List.cons.injEq,
          List.cons_append, List.mem_cons, not_or]
        constructor
        · rintro ⟨before', after', ⟨rfl, hsep⟩, ⟨rfl, rfl⟩, rfl⟩
          exact ⟨⟨rfl, rfl⟩, fun hc => h hc.symm, hsep⟩
        · rintro ⟨⟨rfl, rfl⟩, -, hsep⟩
          exact ⟨before, after, ⟨rfl, hsep⟩, ⟨rfl, rfl⟩, rfl⟩

/-! ## Parts -/

theorem occursIn_iff_infix {part cs : List Char} : occursIn part cs = true ↔ part <:+: cs := by
  induction cs with
  | nil => simp [occursIn]
  | cons c rest ih => rw [occursIn, Bool.or_eq_true, List.isPrefixOf_iff_prefix, ih,
      List.infix_cons_iff]

theorem dropStart?_eq_some_iff {start cs rest : List Char} :
    dropStart? start cs = some rest ↔ cs = start ++ rest := by
  induction start generalizing cs with
  | nil => simp [dropStart?]
  | cons s start ih =>
    cases cs with
    | nil => simp [dropStart?]
    | cons c cs =>
      simp only [dropStart?, List.cons_append, List.cons.injEq]
      split
      · next h => simp [ih, h]
      · next h => simp [Ne.symm h]

end AuthGate.Text
