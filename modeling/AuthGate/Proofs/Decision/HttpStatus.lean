import AuthGate.Proofs.Decimal.Value
import AuthGate.Proofs.Decision.Emission
import AuthGate.Proofs.Struct.Conversion
import AuthGate.Proofs.Text.Digits

set_option autoImplicit false

/-! # Status codes of refusals

A refusal may say with which status code the client is answered. Any number will do whose exact
value is a code, however it is written. A machine comes to the code by way of words of 64 and 32
bits: `httpStatus_number` says that it finds the same, since a number that does not fit is brought
to the end of the range, where no code lies. The main statement is `shape_httpStatus`. -/

namespace AuthGate

/-! ## Numbers as words -/

namespace Number

open Double (clamp64)

/-- The number itself, if it is a whole number that 64 signed bits hold. -/
def asInt64? : Number → Option Int
  | .whole w => if Text.fitsInt64 w.value then some w.value else none
  | .double _ => none

/-- A number as 64 signed bits: itself, or else what is cut from the nearest double, if that has no
    fraction. -/
def toInt64? (n : Number) : Option Int :=
  n.asInt64?.or (if n.toDouble.IsWhole then some n.toDouble.toInt64 else none)

theorem clamp64_of_fits {i : Int} (h : Text.fitsInt64 i = true) : clamp64 i = i := by
  have hrange := Text.fitsInt64_iff.1 h
  rw [clamp64]
  omega

/-- However a number is brought to 64 bits, it is its exact value that is brought into range. -/
theorem toInt64?_eq (n : Number) : n.toInt64? = n.toInt?.map clamp64 := by
  cases n with
  | double d => exact d.cut_eq
  | whole w =>
    rw [toInt64?, asInt64?]
    split
    · next hfits => rw [Option.some_or, toInt?, Option.map_some, clamp64_of_fits hfits]
    · next hlarge =>
      have hin := w.in_range
      have hi : 0x8000000000000000 ≤ w.value := by
        rw [Text.fitsInt64_iff] at hlarge
        omega
      have hnearest : (Number.whole w).toDouble.IsNearest w.value := rounds_toDouble (.whole w)
      obtain ⟨j, hj, hjlarge⟩ := hnearest.exists_toInt? hi
      rw [Option.none_or, Double.cut_eq, hj, toInt?, Option.map_some, Option.map_some, clamp64,
        clamp64]
      congr 1
      omega

end Number

namespace Decision

/-- A whole number, if 32 signed bits hold it. -/
def narrow32? (i : Int) : Option Int :=
  if -(0x80000000) ≤ i ∧ i < 0x80000000 then some i else none

/-- The status code of a number by way of words: first 64 bits, then 32, then the table. -/
def statusByWords (n : Number) : Except Failure Int :=
  match n.toInt64? with
  | none => .error (httpStatus.notNumeric (.number n))
  | some i =>
    match (narrow32? i).filter HttpStatus.isCode with
    | some code => .ok code
    | none => .error (malformed s!"Invalid HTTP status code {i}")

theorem filter_narrow32? (i : Int) :
    (narrow32? i).filter HttpStatus.isCode = if HttpStatus.isCode i then some i else none := by
  by_cases hcode : HttpStatus.isCode i = true
  · have hbounds := bounds_of_isCode hcode
    rw [narrow32?, if_pos (by omega), if_pos hcode, Option.filter_some_pos hcode]
  · rw [if_neg hcode, narrow32?]
    split
    · rw [Option.filter_some_neg (by simpa using hcode)]
    · rfl

/-- Reading a number by way of words gives the same code or failure. -/
theorem httpStatus_number (n : Number) : httpStatus (some (.number n)) = statusByWords n := by
  have hclamped : clamped? n = n.toInt64? := n.toInt64?_eq.symm
  rw [httpStatus, statusByWords, hclamped]
  cases n.toInt64? with
  | none => rfl
  | some i =>
    simp only [filter_narrow32?]
    cases HttpStatus.isCode i <;> rfl

/-! ## Status codes -/

/-- A number whose exact value is a status code. -/
structure NamesCode (v : Json) (code : Int) : Prop where
  number : ∃ n, v = .number n ∧ n.IsFinite ∧ n.value = code
  known : HttpStatus.isCode code = true

theorem httpStatus_eq_ok_iff {v : Json} {code : Int} :
    httpStatus (some v) = .ok code ↔ NamesCode v code := by
  constructor
  · intro h
    rcases httpStatus_eq_ok h with ⟨hnone, -⟩ | ⟨n, hv, hclamped, hcode⟩
    · cases hnone
    · have hvalue := Number.toInt?_eq_some_iff.1 ((clamped?_eq_some_code_iff hcode).1 hclamped)
      exact ⟨⟨n, Option.some.inj hv, hvalue⟩, hcode⟩
  · rintro ⟨⟨n, rfl, hvalue⟩, hcode⟩
    have hclamped := (clamped?_eq_some_code_iff hcode).2 (Number.toInt?_eq_some_iff.2 hvalue)
    simp only [httpStatus, hclamped, hcode, if_true]

/-- No number becomes a status code in 64 bits that it does not equal. -/
theorem value_of_toInt64? {n : Number} {code : Int} (h : n.toInt64? = some code)
    (hcode : HttpStatus.isCode code = true) : n.IsFinite ∧ n.value = code := by
  have hclamped : clamped? n = some code := n.toInt64?_eq.symm.trans h
  exact Number.toInt?_eq_some_iff.1 ((clamped?_eq_some_code_iff hcode).1 hclamped)

/-! ## Refusals -/

theorem kind_of_shape_error {fields : List (String × Json)} {f : Failure}
    (h : (structured fields).shape = .error f) : f.kind = .responseShaping := by
  have hdone : (parts fields).forM (Part.check fields) = .error f := by
    rw [← done_shape_structured, h]
    rfl
  obtain ⟨-, p, -, -, -, hp⟩ := forM_eq_error_iff.1 hdone
  exact (p.names_of_check_eq_error hp).1

/-- A refusal with this status field. -/
structure Refuses (fields : List (String × Json)) (status : Json) : Prop where
  denied : allowBit fields = some (.bool false)
  status_eq : Fields.get? "http_status" fields = some status

section Refuses

variable {fields : List (String × Json)} {status : Json}

/-- The response of a refusal carries the status code that the field is. -/
theorem Refuses.http_eq (h : Refuses fields status) {r : CheckResponse}
    (hr : (structured fields).shape = .ok r) :
    ∃ branch code, r.http = some (.denied branch) ∧ branch.status = some code ∧
      NamesCode status code := by
  obtain ⟨allowed, hs, m, branch, hallowed, -, -, hbranch, rfl⟩ := shape_structured_eq_ok_iff.1 hr
  obtain rfl : allowed = false := by
    simpa [h.denied, eq_comm] using isAllowed_structured_eq_ok_iff.1 hallowed
  obtain ⟨text, code, -, hcode, rfl⟩ := deniedBranch_eq_ok hbranch
  rw [h.status_eq] at hcode
  exact ⟨_, code, rfl, rfl, httpStatus_eq_ok_iff.1 hcode⟩

theorem Refuses.exists_shape_iff (h : Refuses fields status)
    (hheaders : AreHeaders (Fields.get? "headers" fields))
    (hmetadata : IsMetadata (Fields.get? "dynamic_metadata" fields))
    (hbody : IsBody (Fields.get? "body" fields)) :
    (∃ r, (structured fields).shape = .ok r) ↔ ∃ code, NamesCode status code := by
  constructor
  · rintro ⟨r, hr⟩
    obtain ⟨-, code, -, -, hnames⟩ := h.http_eq hr
    exact ⟨code, hnames⟩
  · rintro ⟨code, hnames⟩
    obtain ⟨hs, hhs⟩ := exists_headers_eq_ok_iff.2 hheaders
    obtain ⟨m, hm⟩ := exists_dynamicMetadata_eq_ok_iff.2 hmetadata
    obtain ⟨text, htext⟩ := exists_body_eq_ok_iff.2 hbody
    have hcode : httpStatus (Fields.get? "http_status" fields) = .ok code := by
      rw [h.status_eq, httpStatus_eq_ok_iff]
      exact hnames
    have hbranch : deniedBranch fields hs = .ok (.denied ⟨some code, hs, text⟩) := by
      rw [deniedBranch, htext, hcode]
      rfl
    have hallowed := isAllowed_structured_eq_ok_iff.2 h.denied
    exact ⟨_, shape_structured_eq_ok_iff.2 ⟨false, hs, m, _, hallowed, hhs, hm, hbranch, rfl⟩⟩

end Refuses

/-- The status field of a refusal is accepted exactly if it is a number whose exact value is a
    status code, and the response carries that code; of any other value no response is made. Going
    by way of words of 64 and 32 bits, where a number may be rounded, cut and brought into range,
    gives the same, and never a code that is not the exact value. -/
theorem shape_httpStatus :
    (∀ v code, httpStatus (some v) = .ok code ↔ NamesCode v code) ∧
    (∀ n : Number, httpStatus (some (.number n)) = statusByWords n) ∧
    (∀ (n : Number) (code : Int), n.toInt64? = some code → HttpStatus.isCode code = true →
      n.IsFinite ∧ n.value = code) ∧
    ∀ fields status, Refuses fields status →
      (∀ r, (ofJson (.object fields)).shape = .ok r →
        ∃ branch code, r.http = some (.denied branch) ∧ branch.status = some code ∧
          NamesCode status code) ∧
      (AreHeaders (Fields.get? "headers" fields) →
        IsMetadata (Fields.get? "dynamic_metadata" fields) → IsBody (Fields.get? "body" fields) →
          ((∃ r, (ofJson (.object fields)).shape = .ok r) ↔ ∃ code, NamesCode status code)) ∧
      ((¬ ∃ code, NamesCode status code) →
        ∃ f, (ofJson (.object fields)).shape = .error f ∧ f.kind = .responseShaping) := by
  refine ⟨fun _ _ => httpStatus_eq_ok_iff, httpStatus_number, fun _ _ => value_of_toInt64?,
    fun fields status h => ⟨fun r => h.http_eq, h.exists_shape_iff, fun hnone => ?_⟩⟩
  cases hshape : (structured fields).shape with
  | ok r =>
    obtain ⟨-, code, -, -, hnames⟩ := h.http_eq hshape
    exact absurd ⟨code, hnames⟩ hnone
  | error f => exact ⟨f, hshape, kind_of_shape_error hshape⟩

/-- A refusal with this status. -/
def refusalWith (n : Number) : List (String × Json) :=
  [("allowed", .bool false), ("http_status", .number n)]

/-- The double 404.0. -/
def missing : Number := .double ⟨0x4079400000000000⟩

/-- A number beyond 63 bits of which the last 32 bits are 404. -/
def beyond : Number := .whole ⟨9223372036854776212, by decide⟩

theorem shape_httpStatus_extremes :
    Refuses (refusalWith missing) (.number missing) ∧
      (∃ r branch, (ofJson (.object (refusalWith missing))).shape = .ok r ∧
        r.http = some (.denied branch) ∧ branch.status = some 404) ∧
      Refuses (refusalWith beyond) (.number beyond) ∧
      ∃ f, (ofJson (.object (refusalWith beyond))).shape = .error f ∧
        f.kind = .responseShaping := by
  obtain ⟨haccepts, -, -, hshape⟩ := shape_httpStatus
  have hmissing : Refuses (refusalWith missing) (.number missing) := ⟨rfl, rfl⟩
  have hbeyond : Refuses (refusalWith beyond) (.number beyond) := ⟨rfl, rfl⟩
  have hcode : NamesCode (.number missing) 404 := (haccepts _ _).1 rfl
  have hnone : ¬ ∃ code, NamesCode (.number beyond) code := by
    rintro ⟨code, hnames⟩
    have hread := (haccepts _ _).2 hnames
    cases hread
  obtain ⟨r, hr⟩ := ((hshape _ _ hmissing).2.1 trivial trivial trivial).2 ⟨404, hcode⟩
  obtain ⟨branch, code, hbranch, hstatus, hnames⟩ := (hshape _ _ hmissing).1 r hr
  obtain rfl : code = 404 :=
    Except.ok.inj (((haccepts _ _).2 hnames).symm.trans ((haccepts _ _).2 hcode))
  exact ⟨hmissing, ⟨r, branch, hr, hbranch, hstatus⟩, hbeyond, (hshape _ _ hbeyond).2.2 hnone⟩

end Decision

end AuthGate
