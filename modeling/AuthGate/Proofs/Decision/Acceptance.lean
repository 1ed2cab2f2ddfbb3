import AuthGate.Proofs.Decision.WellFormed

set_option autoImplicit false

/-! # Accepted decisions

Which decisions a response is made of, and which part of a decision is named when none is. The parts
of a response are read one after the other; a decision is accepted exactly if each part that its
response needs is well-formed, and the failure names the first one that is not. The main statement
is `shape_ofJson`. -/

namespace AuthGate.Decision

/-! ## Parts -/

/-- A body, if there is one: a text. -/
def IsBody : Option Json → Prop
  | none => True
  | some (.string _) => True
  | some _ => False

/-- An HTTP status, if there is one: a number that equals a status code exactly. -/
def IsHttpStatus : Option Json → Prop
  | none => True
  | some (.number n) => ∃ code, n.toInt? = some code ∧ HttpStatus.isCode code = true
  | some _ => False

theorem exists_body_eq_ok_iff {o : Option Json} : (∃ s, body o = .ok s) ↔ IsBody o := by
  rcases o with _ | v
  · simp [body, IsBody]
  · cases v <;> simp [body, IsBody]

/-- The status codes are far from the ends of the range that numbers are brought into. -/
theorem bounds_of_isCode {code : Int} (h : HttpStatus.isCode code = true) :
    0 ≤ code ∧ code < 600 := by
  have hall : ∀ e ∈ HttpStatus.codes, 0 ≤ e.1 ∧ e.1 < 600 := by decide
  obtain ⟨e, he, hcode⟩ := List.any_eq_true.1 h
  exact beq_iff_eq.1 hcode ▸ hall e he

/-- A number is brought into range to a status code only if it equals that code. -/
theorem clamped?_eq_some_code_iff {n : Number} {code : Int} (h : HttpStatus.isCode code = true) :
    clamped? n = some code ↔ n.toInt? = some code := by
  have hbounds := bounds_of_isCode h
  cases hn : n.toInt? with
  | none => simp [clamped?, hn]
  | some i =>
    simp only [clamped?, hn, Option.map_some, Option.some.injEq]
    omega

theorem exists_httpStatus_eq_ok_iff {o : Option Json} :
    (∃ code, httpStatus o = .ok code) ↔ IsHttpStatus o := by
  rcases o with _ | v
  · simp [httpStatus, IsHttpStatus]
  cases v with
  | number n =>
    simp only [httpStatus, IsHttpStatus]
    constructor
    · rintro ⟨code, h⟩
      split at h
      · next code' hclamped =>
        split at h
        · next hcode => exact ⟨code', (clamped?_eq_some_code_iff hcode).1 hclamped, hcode⟩
        · cases h
      · cases h
    · rintro ⟨code, hn, hcode⟩
      rw [(clamped?_eq_some_code_iff hcode).2 hn]
      exact ⟨code, if_pos hcode⟩
  | _ => simp [httpStatus, IsHttpStatus]

/-- The field that says whether the request may pass. The alias counts only where it is absent. -/
def allowBit (fields : List (String × Json)) : Option Json :=
  match Fields.get? allowedKey fields with
  | some v => some v
  | none => Fields.get? allowAlias fields

theorem isAllowed_structured_eq_ok_iff {fields : List (String × Json)} {allowed : Bool} :
    (structured fields).isAllowed = .ok allowed ↔ allowBit fields = some (.bool allowed) := by
  have hor : (Fields.get? allowedKey fields).or (Fields.get? allowAlias fields) =
      allowBit fields := by
    simp only [allowBit]
    cases Fields.get? allowedKey fields <;> rfl
  simp only [isAllowed, hor]
  cases allowBit fields with
  | none => simp
  | some v => cases v <;> simp

/-- The parts of a response. -/
inductive Part where
  | status
  | headers
  | metadata
  | remove
  | add
  | body
  | httpStatus
  deriving DecidableEq, Repr

namespace Part

/-- What a part is called in a failure. -/
def name : Part → String
  | status => "response status"
  | headers => "response headers"
  | metadata => "dynamic metadata"
  | remove => "request headers to remove"
  | add => "response headers to send to client"
  | body => "response body"
  | httpStatus => "response http status"

/-- What the fields of a decision must be like for a part to be made. -/
def WellFormed (fields : List (String × Json)) : Part → Prop
  | status => ∃ allowed, allowBit fields = some (.bool allowed)
  | headers => AreHeaders (Fields.get? "headers" fields)
  | metadata => IsMetadata (Fields.get? "dynamic_metadata" fields)
  | remove => AreStrings (Fields.get? "request_headers_to_remove" fields)
  | add => AreHeaders (Fields.get? "response_headers_to_add" fields)
  | body => IsBody (Fields.get? "body" fields)
  | httpStatus => IsHttpStatus (Fields.get? "http_status" fields)

end Part

/-- The parts that only a response needs that lets the request pass, or only one that does not. -/
def branchParts (allowed : Bool) : List Part :=
  if allowed then [.remove, .add] else [.body, .httpStatus]

/-- The parts that the response of an object needs, in the order in which they are read. -/
def parts (fields : List (String × Json)) : List Part :=
  .status :: .headers :: .metadata ::
    match allowBit fields with
    | some (.bool allowed) => branchParts allowed
    | _ => []

/-- The first part that is malformed: the response needs it, and all before it are well-formed. -/
def FirstMalformed (fields : List (String × Json)) (p : Part) : Prop :=
  ∃ before after, parts fields = before ++ p :: after ∧ (∀ q ∈ before, q.WellFormed fields) ∧
    ¬ p.WellFormed fields

/-! ## Failures -/

/-- Whatever goes wrong is a failure to make a response of a decision. -/
def FailsAsMalformed {α : Type} (r : Except Failure α) : Prop :=
  ∀ f, r = .error f → f.kind = .responseShaping

theorem failsAsMalformed_ok {α : Type} (a : α) : FailsAsMalformed (.ok a : Except Failure α) :=
  fun _ h => by cases h

theorem failsAsMalformed_error {α : Type} (cause : String) :
    FailsAsMalformed (.error (malformed cause) : Except Failure α) := by
  rintro _ ⟨⟩
  rfl

theorem failsAsMalformed_mapM {α β : Type} {f : α → Except Failure β} {xs : List α}
    (h : ∀ x ∈ xs, FailsAsMalformed (f x)) : FailsAsMalformed (xs.mapM f) := by
  intro e he
  obtain ⟨x, hx, hfail⟩ := exists_of_mapM_eq_error he
  exact h x hx e hfail

theorem FailsAsMalformed.bind_pure {α β : Type} {r : Except Failure α} (h : FailsAsMalformed r)
    (f : α → β) : FailsAsMalformed (r >>= fun a => pure (f a)) := by
  intro e he
  rcases bind_eq_error_iff.1 he with he | ⟨a, -, he⟩
  · exact h e he
  · cases he

theorem isAllowed_failsAsMalformed (d : Decision) : FailsAsMalformed d.isAllowed := by
  cases d with
  | structured fields =>
    simp only [isAllowed]
    split
    · exact failsAsMalformed_error _
    · exact failsAsMalformed_ok _
    · exact failsAsMalformed_error _
  | scalar | other => exact failsAsMalformed_ok _

theorem headersOfObject_failsAsMalformed (fields : List (String × Json)) :
    FailsAsMalformed (headersOfObject fields) := by
  refine (failsAsMalformed_mapM fun f _ => ?_).bind_pure _
  obtain ⟨key, v⟩ := f
  cases v with
  | string v => exact failsAsMalformed_ok _
  | array values =>
    refine failsAsMalformed_mapM fun v _ => ?_
    cases v with
    | string v => exact failsAsMalformed_ok _
    | _ => exact failsAsMalformed_error _
  | _ => exact failsAsMalformed_error _

theorem headers_failsAsMalformed (o : Option Json) : FailsAsMalformed (headers o) := by
  rcases o with _ | v
  · exact failsAsMalformed_ok _
  cases v with
  | object fields => exact headersOfObject_failsAsMalformed fields
  | array items =>
    refine (failsAsMalformed_mapM fun v _ => ?_).bind_pure _
    cases v with
    | object fields => exact headersOfObject_failsAsMalformed fields
    | _ => exact failsAsMalformed_error _
  | _ => exact failsAsMalformed_error _

theorem strings_failsAsMalformed (o : Option Json) : FailsAsMalformed (strings o) := by
  rcases o with _ | v
  · exact failsAsMalformed_ok _
  cases v with
  | array items =>
    refine failsAsMalformed_mapM fun v _ => ?_
    cases v with
    | string s => exact failsAsMalformed_ok _
    | _ => exact failsAsMalformed_error _
  | _ => exact failsAsMalformed_error _

theorem dynamicMetadata_failsAsMalformed (o : Option Json) :
    FailsAsMalformed (dynamicMetadata o) := by
  rcases o with _ | v
  · exact failsAsMalformed_ok _
  cases v with
  | object fields => exact failsAsMalformed_ok _
  | _ => exact failsAsMalformed_error _

theorem body_failsAsMalformed (o : Option Json) : FailsAsMalformed (body o) := by
  rcases o with _ | v
  · exact failsAsMalformed_ok _
  cases v with
  | string s => exact failsAsMalformed_ok _
  | _ => exact failsAsMalformed_error _

theorem httpStatus_failsAsMalformed (o : Option Json) : FailsAsMalformed (httpStatus o) := by
  rcases o with _ | v
  · exact failsAsMalformed_ok _
  cases v with
  | number n =>
    simp only [httpStatus]
    split
    · split
      · exact failsAsMalformed_ok _
      · exact failsAsMalformed_error _
    · exact failsAsMalformed_error _
  | _ => exact failsAsMalformed_error _

/-! ## Reading the parts -/

/-- A part read, without what was read. -/
def Part.read (fields : List (String × Json)) : Part → Except Failure Unit
  | .status => done (structured fields).isAllowed
  | .headers => done (Decision.headers (Fields.get? "headers" fields))
  | .metadata => done (dynamicMetadata (Fields.get? "dynamic_metadata" fields))
  | .remove => done (strings (Fields.get? "request_headers_to_remove" fields))
  | .add => done (Decision.headers (Fields.get? "response_headers_to_add" fields))
  | .body => done (Decision.body (Fields.get? "body" fields))
  | .httpStatus => done (Decision.httpStatus (Fields.get? "http_status" fields))
where
  /-- What was read is not kept. -/
  done {α : Type} (r : Except Failure α) : Except Failure Unit := r.map fun _ => ()

/-- A part read; a failure names it. -/
def Part.check (fields : List (String × Json)) (p : Part) : Except Failure Unit :=
  about p.name (p.read fields)

theorem done_eq_ok_iff {α : Type} {r : Except Failure α} :
    Part.read.done r = .ok () ↔ ∃ a, r = .ok a := by
  cases r <;> simp [Part.read.done, Except.map]

theorem FailsAsMalformed.done {α : Type} {r : Except Failure α} (h : FailsAsMalformed r) :
    FailsAsMalformed (Part.read.done r) := by
  intro f hf
  cases r with
  | error f' => exact h f (by simpa [Part.read.done, Except.map] using hf)
  | ok a => cases hf

/-- A part can be read exactly if it is well-formed. -/
theorem Part.check_eq_ok_iff {fields : List (String × Json)} {p : Part} :
    p.check fields = .ok () ↔ p.WellFormed fields := by
  rw [Part.check, about_eq_ok_iff]
  cases p with
  | status => simp only [read, done_eq_ok_iff, isAllowed_structured_eq_ok_iff, WellFormed]
  | headers | add => simp only [read, done_eq_ok_iff, exists_headers_eq_ok_iff, WellFormed]
  | metadata => simp only [read, done_eq_ok_iff, exists_dynamicMetadata_eq_ok_iff, WellFormed]
  | remove => simp only [read, done_eq_ok_iff, exists_strings_eq_ok_iff, WellFormed]
  | body => simp only [read, done_eq_ok_iff, exists_body_eq_ok_iff, WellFormed]
  | httpStatus => simp only [read, done_eq_ok_iff, exists_httpStatus_eq_ok_iff, WellFormed]

theorem Part.read_failsAsMalformed (fields : List (String × Json)) (p : Part) :
    FailsAsMalformed (p.read fields) := by
  cases p with
  | status => exact (isAllowed_failsAsMalformed _).done
  | headers | add => exact (headers_failsAsMalformed _).done
  | metadata => exact (dynamicMetadata_failsAsMalformed _).done
  | remove => exact (strings_failsAsMalformed _).done
  | body => exact (body_failsAsMalformed _).done
  | httpStatus => exact (httpStatus_failsAsMalformed _).done

/-- The failure of a part says so. -/
def Names (p : Part) (f : Failure) : Prop :=
  f.kind = .responseShaping ∧ ∃ cause, f.text = "failed to get " ++ p.name ++ ": " ++ cause

theorem Part.names_of_check_eq_error {fields : List (String × Json)} {p : Part} {f : Failure}
    (h : p.check fields = .error f) : Names p f := by
  obtain ⟨g, hg, rfl⟩ := mapError_eq_error_iff.1 h
  have hkind := p.read_failsAsMalformed fields g hg
  obtain ⟨kind, message⟩ := g
  obtain rfl : kind = .responseShaping := hkind
  exact ⟨rfl, message, rfl⟩

theorem done_bind {α β : Type} (x : Except Failure α) (f : α → Except Failure β) :
    Part.read.done (x >>= f) = x >>= fun a => Part.read.done (f a) := by
  cases x <;> rfl

theorem done_bind_pure {α β : Type} (x : Except Failure α) (f : α → β) :
    Part.read.done (x >>= fun a => pure (f a)) = Part.read.done x := by
  cases x <;> rfl

theorem about_done_bind {α β : Type} (part : String) (x : Except Failure α)
    (y : Except Failure β) :
    (about part (Part.read.done x) >>= fun _ => y) = about part x >>= fun _ => y := by
  cases x <;> rfl

theorem done_branch (allowed : Bool) (fields : List (String × Json)) (hs : List HeaderOption) :
    Part.read.done (if allowed then okBranch fields hs else deniedBranch fields hs) =
      (branchParts allowed).forM (Part.check fields) := by
  cases allowed with
  | true =>
    have hforM : (branchParts true).forM (Part.check fields) =
      Part.remove.check fields >>= fun _ => Part.add.check fields >>= fun _ => .ok () := rfl
    rw [hforM, if_pos rfl, okBranch]
    simp only [Part.check, Part.name, Part.read, about_done_bind, done_bind]
    rfl
  | false =>
    have hforM : (branchParts false).forM (Part.check fields) =
      Part.body.check fields >>= fun _ => Part.httpStatus.check fields >>= fun _ => .ok () := rfl
    rw [hforM, if_neg Bool.false_ne_true, deniedBranch]
    simp only [Part.check, Part.name, Part.read, about_done_bind, done_bind]
    rfl

/-- The response of an object is made by reading its parts in their order. -/
theorem done_shape_structured (fields : List (String × Json)) :
    Part.read.done (structured fields).shape = (parts fields).forM (Part.check fields) := by
  have hforM : ∀ rest : List Part, (.status :: .headers :: .metadata :: rest).forM
      (Part.check fields) = Part.status.check fields >>= fun _ => Part.headers.check fields >>=
        fun _ => Part.metadata.check fields >>= fun _ => rest.forM (Part.check fields) :=
    fun _ => rfl
  have hparts : parts fields = .status :: .headers :: .metadata :: _ := rfl
  rw [hparts, hforM, shape]
  simp only [Part.check, Part.name, Part.read, about_done_bind, done_bind]
  cases hallowed : (structured fields).isAllowed with
  | error f => rfl
  | ok allowed =>
    have hbit := isAllowed_structured_eq_ok_iff.1 hallowed
    have hnext : ∀ next : Bool → Except Failure Unit,
        (about "response status" (.ok allowed) >>= next) = next allowed := fun _ => rfl
    rw [hbit, hnext, hnext]
    refine bind_congr fun hs => bind_congr fun m => ?_
    rw [← done_branch allowed fields hs]
    cases allowed <;> exact done_bind_pure _ _

/-! ## The whole -/

/-- On success an object's response has the status and the branch that the allow bit asks for. -/
theorem shape_structured_branch {fields : List (String × Json)} {r : CheckResponse}
    (h : (structured fields).shape = .ok r) :
    (allowBit fields = some (.bool true) ∧ r.status = some (.of .ok "") ∧
        ∃ branch, r.http = some (.ok branch)) ∨
      (allowBit fields = some (.bool false) ∧ r.status = some (.of .permissionDenied "") ∧
        ∃ branch, r.http = some (.denied branch)) := by
  obtain ⟨allowed, hs, m, branch, hallowed, -, -, hbranch, rfl⟩ := shape_structured_eq_ok_iff.1 h
  have hbit := isAllowed_structured_eq_ok_iff.1 hallowed
  cases allowed with
  | true =>
    obtain ⟨remove, -, hbranch⟩ := bind_eq_ok_iff.1 hbranch
    obtain ⟨add, -, hbranch⟩ := bind_eq_ok_iff.1 hbranch
    obtain rfl := pure_eq_ok_iff.1 hbranch
    exact .inl ⟨hbit, rfl, _, rfl⟩
  | false =>
    obtain ⟨text, -, hbranch⟩ := bind_eq_ok_iff.1 hbranch
    obtain ⟨code, -, hbranch⟩ := bind_eq_ok_iff.1 hbranch
    obtain rfl := pure_eq_ok_iff.1 hbranch
    exact .inr ⟨hbit, rfl, _, rfl⟩

/-- What becomes of a decision. One that is no object has a response with a status only. An object
    has a response exactly if all parts that the response needs are well-formed; it lets the request
    pass, or not, as the allow bit says. Else the failure names the first part that is malformed. -/
theorem shape_ofJson (d : Json) :
    match d with
    | .object fields =>
      ((∃ r, (ofJson d).shape = .ok r) ↔ ∀ p ∈ parts fields, p.WellFormed fields) ∧
      (∀ r, (ofJson d).shape = .ok r →
        (allowBit fields = some (.bool true) ∧ r.status = some (.of .ok "") ∧
            ∃ branch, r.http = some (.ok branch)) ∨
          (allowBit fields = some (.bool false) ∧ r.status = some (.of .permissionDenied "") ∧
            ∃ branch, r.http = some (.denied branch))) ∧
      ∀ f, (ofJson d).shape = .error f → ∃ p, FirstMalformed fields p ∧ Names p f
    | .bool true => (ofJson d).shape = .ok ⟨some (.of .ok ""), none, none⟩
    | _ => (ofJson d).shape = .ok ⟨some (.of .permissionDenied ""), none, none⟩ := by
  cases d with
  | object fields =>
    refine ⟨?_, fun r hr => shape_structured_branch hr, fun f hf => ?_⟩
    · rw [ofJson, ← done_eq_ok_iff, done_shape_structured, forM_eq_ok_iff]
      exact forall₂_congr fun p _ => Part.check_eq_ok_iff
    · have hdone : (parts fields).forM (Part.check fields) = .error f := by
        rw [← done_shape_structured, show (structured fields).shape = .error f from hf]
        rfl
      obtain ⟨before, p, after, heq, hbefore, hp⟩ := forM_eq_error_iff.1 hdone
      refine ⟨p, ⟨before, after, heq, fun q hq => Part.check_eq_ok_iff.1 (hbefore q hq), ?_⟩,
        p.names_of_check_eq_error hp⟩
      intro hwell
      rw [Part.check_eq_ok_iff.2 hwell] at hp
      cases hp
  | bool b => cases b <;> rfl
  | _ => rfl

end AuthGate.Decision
