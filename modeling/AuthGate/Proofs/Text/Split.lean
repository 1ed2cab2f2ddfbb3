import AuthGate.Text.Blank

set_option autoImplicit false

/-! # Pieces between separators

Cutting a text at every separator and joining the pieces again are inverse to each other
(`intercalate_splitAll`, `splitAll_intercalate`), and no piece has a separator in it. -/

namespace AuthGate.Text

variable {α : Type} [DecidableEq α] {sep : α} {cs : List α}

theorem splitAll_eq_splitOn (sep : α) (cs : List α) : splitAll sep cs = cs.splitOn sep := by
  induction cs with
  | nil => rw [splitAll, List.splitOn_nil]
  | cons c rest ih =>
    rw [splitAll, ih, List.splitOn_cons_eq_if_modifyHead]
    cases hpieces : rest.splitOn sep with
    | nil => exact absurd hpieces (List.splitOn_ne_nil sep rest)
    | cons piece pieces => by_cases hc : c = sep <;> simp [hc]

theorem splitAll_ne_nil (sep : α) (cs : List α) : splitAll sep cs ≠ [] := by
  rw [splitAll_eq_splitOn]
  exact List.splitOn_ne_nil sep cs

/-- A separator ends a piece, whatever stands before and after it. -/
theorem splitAll_append_cons (sep : α) (cs ds : List α) :
    splitAll sep (cs ++ sep :: ds) = splitAll sep cs ++ splitAll sep ds := by
  simp only [splitAll_eq_splitOn, List.splitOn_append_cons_self]

theorem intercalate_splitAll (sep : α) (cs : List α) : [sep].intercalate (splitAll sep cs) = cs := by
  rw [splitAll_eq_splitOn, List.intercalate_splitOn]

theorem splitAll_intercalate {pieces : List (List α)} (h : ∀ piece ∈ pieces, sep ∉ piece)
    (hne : pieces ≠ []) : splitAll sep ([sep].intercalate pieces) = pieces := by
  rw [splitAll_eq_splitOn, List.splitOn_intercalate sep h hne]

theorem sep_notMem_of_mem_splitAll {piece : List α} (h : piece ∈ splitAll sep cs) : sep ∉ piece := by
  induction cs generalizing piece with
  | nil =>
    obtain rfl := List.mem_singleton.1 h
    exact List.not_mem_nil
  | cons c rest ih =>
    rw [splitAll] at h
    cases hpieces : splitAll sep rest with
    | nil => exact absurd hpieces (splitAll_ne_nil sep rest)
    | cons first others =>
      simp only [hpieces] at h
      split at h
      · -- the separator ends an empty piece
        rcases List.mem_cons.1 h with rfl | hmem
        · exact List.not_mem_nil
        · exact ih (hpieces ▸ hmem)
      · next hc =>
        rcases List.mem_cons.1 h with rfl | hmem
        · rw [List.mem_cons, not_or]
          exact ⟨Ne.symm hc, ih (hpieces ▸ List.mem_cons_self ..)⟩
        · exact ih (hpieces ▸ List.mem_cons_of_mem _ hmem)

end AuthGate.Text
