import AuthGate.Decision.Shape
import AuthGate.Proofs.Result

set_option autoImplicit false

/-! # Well-formed decisions

What a decision must look like for a response to be made of it, said of the document alone. The main
statements are `exists_shape_isOk_iff`: the response of a decision lets the request pass exactly if
the decision says so and every part that goes with it is well-formed. -/

namespace AuthGate.Decision

/-! ## Parts -/

/-- The value of a header: a text or an array of texts. -/
def IsHeaderValue : Json → Prop
  | .string _ => True
  | .array values => ∀ v ∈ values, ∃ s, v = .string s
  | _ => False

/-- The fields of a header object. -/
def AreHeaderFields (fields : List (String × Json)) : Prop := ∀ f ∈ fields, IsHeaderValue f.2

/-- Headers, if there are any: a header object, or an array of them. -/
def AreHeaders : Option Json → Prop
  | none => True
  | some (.object fields) => AreHeaderFields fields
  | some (.array items) => ∀ v ∈ items, ∃ fields, v = .object fields ∧ AreHeaderFields fields
  | some _ => False

/-- Texts, if there are any: an array of them. -/
def AreStrings : Option Json → Prop
  | none => True
  | some (.array items) => ∀ v ∈ items, ∃ s, v = .string s
  | some _ => False

/-- Metadata, if there is any: an object. -/
def IsMetadata : Option Json → Prop
  | none => True
  | some (.object _) => True
  | some _ => False

theorem exists_headersOfField_eq_ok_iff {key : String} {v : Json} :
    (∃ hs, headersOfField key v = .ok hs) ↔ IsHeaderValue v := by
  cases v with
  | array values =>
    simp only [headersOfField, IsHeaderValue, exists_mapM_eq_ok_iff]
    refine forall₂_congr fun v _ => ?_
    cases v <;> simp
  | _ => simp [headersOfField, IsHeaderValue]

theorem exists_headersOfObject_eq_ok_iff {fields : List (String × Json)} :
    (∃ hs, headersOfObject fields = .ok hs) ↔ AreHeaderFields fields := by
  simp only [headersOfObject, exists_bind_pure_eq_ok_iff, exists_mapM_eq_ok_iff, AreHeaderFields]
  exact forall₂_congr fun f _ => exists_headersOfField_eq_ok_iff

theorem exists_headers_eq_ok_iff {o : Option Json} :
    (∃ hs, headers o = .ok hs) ↔ AreHeaders o := by
  rcases o with _ | v
  · simp [headers, AreHeaders]
  · cases v with
    | object fields => exact exists_headersOfObject_eq_ok_iff
    | array items =>
      simp only [headers, exists_bind_pure_eq_ok_iff, exists_mapM_eq_ok_iff, AreHeaders]
      refine forall₂_congr fun v _ => ?_
      cases v with
      | object fields => simp [exists_headersOfObject_eq_ok_iff]
      | _ => simp
    | _ => simp [headers, AreHeaders]

theorem exists_strings_eq_ok_iff {o : Option Json} :
    (∃ ss, strings o = .ok ss) ↔ AreStrings o := by
  rcases o with _ | v
  · simp [strings, AreStrings]
  · cases v with
    | array items =>
      simp only [strings, AreStrings, exists_mapM_eq_ok_iff]
      refine forall₂_congr fun v _ => ?_
      cases v <;> simp
    | _ => simp [strings, AreStrings]

theorem exists_dynamicMetadata_eq_ok_iff {o : Option Json} :
    (∃ m, dynamicMetadata o = .ok m) ↔ IsMetadata o := by
  rcases o with _ | v
  · simp [dynamicMetadata, IsMetadata]
  · cases v <;> simp [dynamicMetadata, IsMetadata]

theorem about_eq_ok_iff {α : Type} {part : String} {r : Except Failure α} {a : α} :
    about part r = .ok a ↔ r = .ok a :=
  mapError_eq_ok_iff

/-! ## The whole -/

/-- The field that says whether the request may pass says that it may. The alias counts only where
    the field is absent. -/
def SaysAllowed (fields : List (String × Json)) : Prop :=
  Fields.get? allowedKey fields = some (.bool true) ∨
    Fields.get? allowedKey fields = none ∧ Fields.get? allowAlias fields = some (.bool true)

/-- The fields of a decision that lets the request pass. -/
structure AllowsWith (fields : List (String × Json)) : Prop where
  allowed : SaysAllowed fields
  headers : AreHeaders (Fields.get? "headers" fields)
  metadata : IsMetadata (Fields.get? "dynamic_metadata" fields)
  remove : AreStrings (Fields.get? "request_headers_to_remove" fields)
  add : AreHeaders (Fields.get? "response_headers_to_add" fields)

/-- A decision that lets the request pass: `true`, or an object that says so and is well-formed. -/
def Allows : Json → Prop
  | .bool b => b = true
  | .object fields => AllowsWith fields
  | _ => False

theorem isAllowed_structured_eq_true_iff {fields : List (String × Json)} :
    (structured fields).isAllowed = .ok true ↔ SaysAllowed fields := by
  simp only [isAllowed, SaysAllowed]
  cases hfield : Fields.get? allowedKey fields with
  | none =>
    simp only [Option.none_or, reduceCtorEq, true_and, false_or]
    cases halias : Fields.get? allowAlias fields with
    | none => simp
    | some v => cases v <;> simp
  | some v => cases v <;> simp

/-- What a response of a structured decision is made of. -/
theorem shape_structured_eq_ok_iff {fields : List (String × Json)} {r : CheckResponse} :
    (structured fields).shape = .ok r ↔
      ∃ allowed hs m branch, (structured fields).isAllowed = .ok allowed ∧
        Decision.headers (Fields.get? "headers" fields) = .ok hs ∧
        dynamicMetadata (Fields.get? "dynamic_metadata" fields) = .ok m ∧
        (if allowed then okBranch fields hs else deniedBranch fields hs) = .ok branch ∧
        r = ⟨some (.of (if allowed then .ok else .permissionDenied) ""), some branch, m⟩ := by
  simp only [shape, bind_eq_ok_iff, about_eq_ok_iff]
  constructor
  · rintro ⟨allowed, ha, hs, hh, m, hm, h⟩
    cases allowed <;>
      obtain ⟨branch, hb, hr⟩ := bind_eq_ok_iff.1 h <;>
      exact ⟨_, hs, m, branch, ha, hh, hm, hb, (pure_eq_ok_iff.1 hr).symm⟩
  · rintro ⟨allowed, hs, m, branch, ha, hh, hm, hb, rfl⟩
    refine ⟨allowed, ha, hs, hh, m, hm, ?_⟩
    cases allowed <;> exact bind_eq_ok_iff.2 ⟨branch, hb, rfl⟩

theorem exists_okBranch_eq_ok_iff {fields : List (String × Json)} {hs : List HeaderOption} :
    (∃ branch, okBranch fields hs = .ok branch) ↔
      AreStrings (Fields.get? "request_headers_to_remove" fields) ∧
        AreHeaders (Fields.get? "response_headers_to_add" fields) := by
  simp only [okBranch, bind_eq_ok_iff, pure_eq_ok_iff, about_eq_ok_iff,
    ← exists_strings_eq_ok_iff, ← exists_headers_eq_ok_iff]
  constructor
  · rintro ⟨_, remove, hr, add, ha, rfl⟩
    exact ⟨⟨remove, hr⟩, add, ha⟩
  · rintro ⟨⟨remove, hr⟩, add, ha⟩
    exact ⟨_, remove, hr, add, ha, rfl⟩

/-- The response of a decision lets the request pass exactly if the decision does. -/
theorem exists_shape_isOk_iff {d : Json} :
    (∃ r, (ofJson d).shape = .ok r ∧ r.isOk = true) ↔ Allows d := by
  cases d with
  | object fields =>
    simp only [ofJson, Allows]
    constructor
    · rintro ⟨r, hr, hok⟩
      obtain ⟨allowed, hs, m, branch, ha, hh, hm, hb, rfl⟩ := shape_structured_eq_ok_iff.1 hr
      cases allowed with
      | false => simp [CheckResponse.isOk, RpcStatus.of, StatusCode.toInt] at hok
      | true =>
        obtain ⟨hremove, hadd⟩ := exists_okBranch_eq_ok_iff.1 ⟨branch, hb⟩
        exact {
          allowed := isAllowed_structured_eq_true_iff.1 ha
          headers := exists_headers_eq_ok_iff.1 ⟨hs, hh⟩
          metadata := exists_dynamicMetadata_eq_ok_iff.1 ⟨m, hm⟩
          remove := hremove
          add := hadd }
    · intro h
      obtain ⟨hs, hh⟩ := exists_headers_eq_ok_iff.2 h.headers
      obtain ⟨m, hm⟩ := exists_dynamicMetadata_eq_ok_iff.2 h.metadata
      obtain ⟨branch, hb⟩ := exists_okBranch_eq_ok_iff.2 ⟨h.remove, h.add⟩
      have ha := isAllowed_structured_eq_true_iff.2 h.allowed
      exact ⟨_, shape_structured_eq_ok_iff.2 ⟨true, hs, m, branch, ha, hh, hm, hb, rfl⟩, rfl⟩
  | bool b =>
    cases b <;> simp [ofJson, shape, isAllowed, about, Except.mapError, bind, Except.bind, pure,
      Except.pure, Allows, CheckResponse.isOk, RpcStatus.of, StatusCode.toInt]
  | _ =>
    simp [ofJson, shape, isAllowed, about, Except.mapError, bind, Except.bind, pure,
      Except.pure, Allows, CheckResponse.isOk, RpcStatus.of, StatusCode.toInt]

end AuthGate.Decision
