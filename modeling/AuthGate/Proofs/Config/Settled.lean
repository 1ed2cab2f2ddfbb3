import AuthGate.Proofs.EntryPoint.RoundTrip

set_option autoImplicit false

/-! # Settled settings

When settings without a descriptor set are refused, what they become when they are not, and that
what they become stays as it is. No path is refused, because a path is written as a query that reads
as the same entry point. The main statement is `resolve_settles`. -/

namespace AuthGate

/-- Whatever is wrong with a query, it is the configuration that is wrong. -/
theorem EntryPoint.kind_of_parse_error {query : String} {f : Failure}
    (h : EntryPoint.parse query = .error f) : f.kind = .config := by
  obtain ⟨fault, -, rfl⟩ := mapError_eq_error_iff.1 h
  rfl

namespace Config

variable {c : Config}

/-! ## The default path -/

theorem completed_path : c.completed.path =
    if c.path = "" ∧ c.query = "" then "envoy/authz/allow" else c.path := by
  simp only [completed, Bool.and_eq_true, String.isEmpty_iff]
  split <;> rfl

theorem completed_eq : c.completed = { c with path := c.completed.path } := by
  rw [completed]
  split <;> rfl

theorem completed_query : c.completed.query = c.query := by
  rw [completed_eq]

theorem completed_path_ne (hquery : c.query = "") : c.completed.path ≠ "" := by
  rw [completed_path]
  split
  · decide
  · next hgiven => exact fun hpath => hgiven ⟨hpath, hquery⟩

/-- The default is put in once. -/
theorem completed_completed (hquery : c.query = "") : c.completed.completed = c.completed := by
  have hpath : c.completed.path.isEmpty = false :=
    String.isEmpty_eq_false_iff.2 (completed_path_ne hquery)
  rw [completed, hpath, Bool.false_and, if_neg Bool.false_ne_true]

/-! ## Resolution without a descriptor set -/

/-- With no file to read, the entry point is all that there is to resolve. -/
theorem resolve_eq_map (read : FileReader) (hfile : c.protoDescriptor = "") :
    c.resolve read = c.resolveEntryPoint.map fun (c', e) => ⟨c', e, none⟩ := by
  cases hquery : c.query.isEmpty with
  | true =>
    have hkept : c.completed.protoDescriptor.isEmpty = true := by
      rw [completed_eq, hfile]
      rfl
    rw [resolve, resolveEntryPoint_path_eq_ok hquery]
    show (if c.completed.protoDescriptor.isEmpty = true then _ else _) = _
    rw [if_pos hkept]
    rfl
  | false =>
    cases hpath : c.path.isEmpty with
    | true =>
      rw [resolve, resolveEntryPoint_query hpath hquery]
      cases EntryPoint.parse c.query with
      | error f => rfl
      | ok e =>
        show (if c.protoDescriptor.isEmpty = true then _ else _) = _
        rw [hfile]
        rfl
    | false =>
      rw [resolve, resolveEntryPoint_both hpath hquery]
      rfl

variable {read : FileReader}

theorem resolve_path (hfile : c.protoDescriptor = "") (hquery : c.query = "") :
    c.resolve read = .ok ⟨c.completed, .ofPath c.completed.path, none⟩ := by
  rw [resolve_eq_map read hfile, resolveEntryPoint_path_eq_ok (String.isEmpty_iff.2 hquery)]
  rfl

theorem resolve_query (hfile : c.protoDescriptor = "") (hpath : c.path = "")
    (hquery : c.query ≠ "") :
    c.resolve read = (EntryPoint.parse c.query).map fun e => ⟨c, e, none⟩ := by
  rw [resolve_eq_map read hfile, resolveEntryPoint_query (String.isEmpty_iff.2 hpath)
    (String.isEmpty_eq_false_iff.2 hquery)]
  cases EntryPoint.parse c.query <;> rfl

theorem resolve_both (hfile : c.protoDescriptor = "") (hpath : c.path ≠ "")
    (hquery : c.query ≠ "") :
    c.resolve read = .error ⟨.config, "specify a value for only the \"path\" field"⟩ := by
  rw [resolve_eq_map read hfile, resolveEntryPoint_both (String.isEmpty_eq_false_iff.2 hpath)
    (String.isEmpty_eq_false_iff.2 hquery)]
  rfl

/-! ## The whole -/

/-- What settings become: the entry point is named in one way, nothing but a missing path is
    changed, and the entry point is that of the query, or of the path and of what is written for
    it. -/
structure SettlesAs (c : Config) (conf : Resolved) : Prop where
  one_way : conf.config.path = "" ↔ conf.config.query ≠ ""
  others : conf.config = { c with path := conf.config.path }
  path_eq : conf.config.path = if c.path = "" ∧ c.query = "" then "envoy/authz/allow" else c.path
  of_query : c.query ≠ "" → EntryPoint.parse c.query = .ok conf.entryPoint
  of_path : c.query = "" → conf.entryPoint = .ofPath conf.config.path ∧
    EntryPoint.parse conf.entryPoint.render = .ok conf.entryPoint
  schema : conf.schema = none

theorem settlesAs_of_path (hquery : c.query = "") :
    c.SettlesAs ⟨c.completed, .ofPath c.completed.path, none⟩ where
  one_way :=
    iff_of_false (completed_path_ne hquery) fun hne => hne (completed_query.trans hquery)
  others := completed_eq
  path_eq := completed_path
  of_query h := absurd hquery h
  of_path _ :=
    ⟨rfl, (EntryPoint.parse_eq_ok_iff_of_bounded (EntryPoint.bounded_ofPath _)).2 rfl⟩
  schema := rfl

theorem settlesAs_of_query {e : EntryPoint} (hpath : c.path = "") (hquery : c.query ≠ "")
    (h : EntryPoint.parse c.query = .ok e) : c.SettlesAs ⟨c, e, none⟩ where
  one_way := iff_of_true hpath hquery
  others := rfl
  path_eq := by rw [if_neg fun hboth => hquery hboth.2]
  of_query _ := h
  of_path h := absurd h hquery
  schema := rfl

/-- Settings without a descriptor set are refused, as bad configuration, exactly if they have both a
    path and a query, or a query that does not parse; with a path alone they never are. What they
    become otherwise is described by `SettlesAs`, and becomes itself. -/
theorem resolve_settles (read : FileReader) (c : Config) (hfile : c.protoDescriptor = "") :
    ((∃ f, c.resolve read = .error f) ↔
      c.path ≠ "" ∧ c.query ≠ "" ∨ c.query ≠ "" ∧ ∃ f, EntryPoint.parse c.query = .error f) ∧
    (∀ f, c.resolve read = .error f → f.kind = .config) ∧
    (∀ path, ∃ conf, { c with path := path, query := "" }.resolve read = .ok conf) ∧
    ∀ conf, c.resolve read = .ok conf →
      c.SettlesAs conf ∧ conf.config.resolve read = .ok conf := by
  have hanyPath (path : String) :
      ∃ conf, { c with path := path, query := "" }.resolve read = .ok conf :=
    ⟨_, resolve_path hfile rfl⟩
  by_cases hquery : c.query = ""
  · have hok : c.resolve read = .ok ⟨c.completed, .ofPath c.completed.path, none⟩ :=
      resolve_path hfile hquery
    have hagain : c.completed.resolve read = .ok ⟨c.completed, .ofPath c.completed.path, none⟩ := by
      have hfile' : c.completed.protoDescriptor = "" := by rw [completed_eq, hfile]
      rw [resolve_path hfile' (completed_query.trans hquery), completed_completed hquery]
    refine ⟨?_, ?_, hanyPath, ?_⟩
    · simp [hok, hquery]
    · intro f hf
      rw [hok] at hf
      cases hf
    · intro conf hconf
      obtain rfl := Except.ok.inj (hok.symm.trans hconf)
      exact ⟨settlesAs_of_path hquery, hagain⟩
  by_cases hpath : c.path = ""
  · have hmap : c.resolve read = (EntryPoint.parse c.query).map fun e => ⟨c, e, none⟩ :=
      resolve_query hfile hpath hquery
    refine ⟨?_, ?_, hanyPath, ?_⟩
    · simp [hmap, map_eq_error_iff, hpath, hquery]
    · intro f hf
      rw [hmap, map_eq_error_iff] at hf
      exact EntryPoint.kind_of_parse_error hf
    · intro conf hconf
      obtain ⟨e, hparse, rfl⟩ := map_eq_ok_iff.1 (hmap.symm.trans hconf)
      exact ⟨settlesAs_of_query hpath hquery hparse, hconf⟩
  · have herror : c.resolve read =
        .error ⟨.config, "specify a value for only the \"path\" field"⟩ :=
      resolve_both hfile hpath hquery
    refine ⟨?_, ?_, hanyPath, ?_⟩
    · simp [herror, hpath, hquery]
    · intro f hf
      obtain rfl := Except.error.inj (herror.symm.trans hf)
      rfl
    · intro conf hconf
      rw [herror] at hconf
      cases hconf

/-- A path with brackets, a quote, an index and an empty segment. -/
def oddPathConfig : Config := { path := "/a]b//7/\"c\"/allow", dryRun := true }

theorem resolve_settles_oddPath :
    oddPathConfig.protoDescriptor = "" ∧
      ∃ conf, oddPathConfig.resolve (fun _ => .error "no file") = .ok conf ∧
        oddPathConfig.SettlesAs conf ∧ conf.config.resolve (fun _ => .error "no file") = .ok conf := by
  obtain ⟨hrefused, -, -, hsettles⟩ :=
    resolve_settles (fun _ => .error "no file") oddPathConfig rfl
  have hquery : oddPathConfig.query = "" := rfl
  cases hconf : oddPathConfig.resolve fun _ => .error "no file" with
  | error f => exact absurd (hrefused.1 ⟨f, hconf⟩) (by simp [hquery])
  | ok conf => exact ⟨rfl, conf, rfl, hsettles conf hconf⟩

end Config

end AuthGate
