import AuthGate.Config.Basic
import AuthGate.Proofs.Result

set_option autoImplicit false

/-! # Resolved settings

Settings name their entry point by a path, by a query, or not at all; there is one equation for each
way. However the entry point is given, settings that were resolved name it in exactly one way:
`isEmpty_path_of_resolve`. -/

namespace AuthGate.Config

/-- The settings with the default path, if they name no entry point at all. -/
def completed (c : Config) : Config :=
  if c.path.isEmpty && c.query.isEmpty then { c with path := defaultPath } else c

variable {c : Config}

theorem resolveEntryPoint_both (hpath : c.path.isEmpty = false) (hquery : c.query.isEmpty = false) :
    c.resolveEntryPoint = .error ⟨.config, "specify a value for only the \"path\" field"⟩ := by
  simp [resolveEntryPoint, hpath, hquery]

theorem resolveEntryPoint_query (hpath : c.path.isEmpty = true) (hquery : c.query.isEmpty = false) :
    c.resolveEntryPoint = (EntryPoint.parse c.query).map fun e => (c, e) := by
  simp only [resolveEntryPoint, hpath, hquery, Bool.not_true, Bool.not_false, Bool.false_and,
    Bool.false_eq_true, if_false, if_true]
  cases EntryPoint.parse c.query <;> rfl

theorem resolveEntryPoint_path (hquery : c.query.isEmpty = true) :
    c.resolveEntryPoint =
      (EntryPoint.parse (EntryPoint.ofPath c.completed.path).render).map fun e =>
        (c.completed, e) := by
  simp only [resolveEntryPoint, completed, hquery, Bool.not_true, Bool.and_false, Bool.and_true,
    Bool.false_eq_true, if_false]
  cases EntryPoint.parse _ <;> rfl

/-- Which file the schema is read from does not depend on the entry point, nor the other way
    round. -/
theorem resolveEntryPoint_of_resolve {read : FileReader} {conf : Resolved}
    (h : c.resolve read = .ok conf) : c.resolveEntryPoint = .ok (conf.config, conf.entryPoint) := by
  simp only [resolve, bind_eq_ok_iff] at h
  obtain ⟨⟨c', e⟩, hentry, h⟩ := h
  rw [hentry]
  split at h
  · obtain rfl := pure_eq_ok_iff.1 h
    rfl
  · obtain ⟨schema, -, hret⟩ := bind_eq_ok_iff.1 h
    obtain rfl := pure_eq_ok_iff.1 hret
    rfl

/-- The settings name the entry point by a path or by a query, and not by both. -/
theorem isEmpty_path_of_resolve {read : FileReader} {conf : Resolved}
    (h : c.resolve read = .ok conf) : conf.config.path.isEmpty = !conf.config.query.isEmpty := by
  have hentry := resolveEntryPoint_of_resolve h
  cases hquery : c.query.isEmpty with
  | true =>
    rw [resolveEntryPoint_path hquery, map_eq_ok_iff] at hentry
    obtain ⟨_, -, hconf⟩ := hentry
    obtain ⟨hconf, -⟩ := Prod.mk.inj hconf
    rw [← hconf]
    cases hpath : c.path.isEmpty with
    | true =>
      have hdefault : defaultPath.isEmpty = false := by decide
      simp [completed, hpath, hquery, hdefault]
    | false => simp [completed, hpath, hquery]
  | false =>
    cases hpath : c.path.isEmpty with
    | true =>
      rw [resolveEntryPoint_query hpath hquery, map_eq_ok_iff] at hentry
      obtain ⟨_, -, hconf⟩ := hentry
      obtain ⟨hconf, -⟩ := Prod.mk.inj hconf
      rw [← hconf, hpath, hquery, Bool.not_false]
    | false =>
      rw [resolveEntryPoint_both hpath hquery] at hentry
      cases hentry

end AuthGate.Config
