import AuthGate.Proofs.Decision.Emission
import AuthGate.Response.Legacy
import Mathlib.Data.Option.Basic

set_option autoImplicit false

/-! # What older responses carry

What an older response keeps of a response: all that version 2 has a place for. Of the response of a
decision it keeps all but three things, because the headers of such a response are plain and its HTTP
status is a known one. The main statement is `ofCurrent_carries`. -/

namespace AuthGate

/-- The part about HTTP without what version 2 has no place for. -/
def HttpBranch.stripped : HttpBranch → HttpBranch
  | .ok b => .ok { headers := b.headers }
  | .denied b => .denied b

/-- A response without what version 2 has no place for: metadata, headers to remove and headers for the
    client. -/
def CheckResponse.stripped (r : CheckResponse) : CheckResponse :=
  { r with http := r.http.map .stripped, dynamicMetadata := none }

namespace Legacy

/-! ## Any response -/

/-- A header with the same name and value, empty ones if there is none, which is not to be
    appended. -/
structure CarriesHeader (o : AuthGate.HeaderOption) (o' : HeaderOption) : Prop where
  given : ∀ h, o.header = some h → o'.header = some ⟨h.key, h.value⟩
  missing : o.header = none → o'.header = some ⟨"", ""⟩
  unappended : o'.append = none

/-- The same status code, or zero for one that version 2 does not know. -/
structure CarriesCode (code code' : Int) : Prop where
  known : code ∈ HttpStatus.codes.map (·.1) → code' = code
  unknown : code ∉ HttpStatus.codes.map (·.1) → code' = 0

/-- The same branch, with the same headers in the same order and the same body. -/
inductive CarriesBranch : AuthGate.HttpBranch → HttpBranch → Prop
  | ok {b : OkResponse} {headers : List HeaderOption}
    (carried : List.Forall₂ CarriesHeader b.headers headers) : CarriesBranch (.ok b) (.ok headers)
  | denied {b : DeniedResponse} {status : Option Int} {headers : List HeaderOption}
    (code : Option.Rel CarriesCode b.status status)
    (carried : List.Forall₂ CarriesHeader b.headers headers) :
    CarriesBranch (.denied b) (.denied status headers b.body)

/-- The same status and the same branch or none. -/
structure Carries (r : AuthGate.CheckResponse) (r' : CheckResponse) : Prop where
  status : r'.status = r.status
  http : Option.Rel CarriesBranch r.http r'.http

theorem HeaderOption.carriesHeader_ofCurrent (o : AuthGate.HeaderOption) :
    CarriesHeader o (.ofCurrent o) where
  given h hh := by rw [ofCurrent, hh]; rfl
  missing hh := by rw [ofCurrent, hh]; rfl
  unappended := rfl

theorem isCode_iff {code : Int} :
    HttpStatus.isCode code = true ↔ code ∈ HttpStatus.codes.map (·.1) := by
  simp only [HttpStatus.isCode, List.any_eq_true, List.mem_map, beq_iff_eq]

theorem carriesCode_statusCode (code : Int) : CarriesCode code (statusCode code) where
  known h := if_pos (isCode_iff.2 h)
  unknown h := if_neg fun hcode => h (isCode_iff.1 hcode)

theorem forall₂_carriesHeader (headers : List AuthGate.HeaderOption) :
    List.Forall₂ CarriesHeader headers (headers.map .ofCurrent) := by
  rw [List.forall₂_map_right_iff, List.forall₂_same]
  exact fun o _ => HeaderOption.carriesHeader_ofCurrent o

theorem rel_map_of_forall {α β : Type} {R : α → β → Prop} {f : α → β} (h : ∀ a, R a (f a))
    (o : Option α) : Option.Rel R o (o.map f) := by
  cases o with
  | none => exact .none
  | some a => exact .some (h a)

theorem HttpBranch.carriesBranch_ofCurrent (b : AuthGate.HttpBranch) :
    CarriesBranch b (.ofCurrent b) := by
  cases b with
  | ok b => exact .ok (forall₂_carriesHeader b.headers)
  | denied b =>
    exact .denied (rel_map_of_forall carriesCode_statusCode b.status)
      (forall₂_carriesHeader b.headers)

theorem CheckResponse.carries_ofCurrent (r : AuthGate.CheckResponse) : Carries r (.ofCurrent r) where
  status := rfl
  http := rel_map_of_forall HttpBranch.carriesBranch_ofCurrent r.http

/-! ## The response of a decision -/

/-- A header that is nothing but a name and a value, in both versions. -/
inductive SameHeader : AuthGate.HeaderOption → HeaderOption → Prop
  | mk (key value : String) : SameHeader ⟨some ⟨key, value, []⟩, none⟩ ⟨some ⟨key, value⟩, none⟩

/-- The same headers, and for a request that may not pass all the rest. -/
inductive SameBranch : AuthGate.HttpBranch → HttpBranch → Prop
  | ok {b : OkResponse} {headers : List HeaderOption}
    (same : List.Forall₂ SameHeader b.headers headers) : SameBranch (.ok b) (.ok headers)
  | denied {status : Option Int} {headers : List AuthGate.HeaderOption}
    {headers' : List HeaderOption} {body : String} (same : List.Forall₂ SameHeader headers headers') :
    SameBranch (.denied ⟨status, headers, body⟩) (.denied status headers' body)

theorem forall₂_sameHeader {o : Option Json} {hs : List AuthGate.HeaderOption}
    (h : Decision.headers o = .ok hs) : List.Forall₂ SameHeader hs (hs.map .ofCurrent) := by
  obtain ⟨pairs, rfl⟩ := Decision.exists_setHeader_of_headers h
  rw [List.map_map, List.forall₂_map_right_iff, List.forall₂_map_left_iff, List.forall₂_same]
  exact fun pair _ => .mk pair.1 pair.2

theorem statusCode_of_httpStatus {o : Option Json} {code : Int}
    (h : Decision.httpStatus o = .ok code) : statusCode code = code := by
  rw [statusCode, if_pos (Decision.isCode_of_httpStatus h)]

/-- A response of a decision is not changed but for what version 2 has no place for. -/
theorem sameBranch_of_shape {d : Decision} {r : AuthGate.CheckResponse} (h : d.shape = .ok r) :
    Option.Rel SameBranch r.http (CheckResponse.ofCurrent r).http := by
  cases d with
  | scalar allowed =>
    obtain rfl := Except.ok.inj h
    exact .none
  | other v =>
    obtain rfl := Except.ok.inj h
    exact .none
  | structured fields =>
    obtain ⟨allowed, hs, m, branch, -, hheaders, -, hbranch, rfl⟩ :=
      Decision.shape_structured_eq_ok_iff.1 h
    refine .some ?_
    cases allowed with
    | true =>
      obtain ⟨remove, add, -, -, rfl⟩ := Decision.okBranch_eq_ok hbranch
      exact .ok (forall₂_sameHeader hheaders)
    | false =>
      obtain ⟨text, code, -, hcode, rfl⟩ := Decision.deniedBranch_eq_ok hbranch
      have hkept : some (statusCode code) = some code :=
        congrArg some (statusCode_of_httpStatus hcode)
      show SameBranch _ (.denied (some (statusCode code)) _ text)
      rw [hkept]
      exact .denied (forall₂_sameHeader hheaders)

/-- Headers that are nothing but names and values are told apart. -/
theorem SameHeader.leftUnique : Relator.LeftUnique SameHeader := by
  rintro _ _ _ ⟨key, value⟩ ⟨⟩
  rfl

theorem SameBranch.stripped_eq {b b' : AuthGate.HttpBranch} {old : HttpBranch}
    (h : SameBranch b old) (h' : SameBranch b' old) : b.stripped = b'.stripped := by
  cases h with
  | ok same =>
    cases h' with
    | ok same' =>
      rw [HttpBranch.stripped, HttpBranch.stripped,
        List.left_unique_forall₂' SameHeader.leftUnique same same']
  | denied same =>
    cases h' with
    | denied same' =>
      rw [HttpBranch.stripped, HttpBranch.stripped,
        List.left_unique_forall₂' SameHeader.leftUnique same same']

/-- An older response carries all that it has a place for. That of a decision carries everything else
    too but metadata, headers to remove and headers for the client, so that decisions whose older
    responses are equal differ in nothing else. -/
theorem ofCurrent_carries :
    (∀ r : AuthGate.CheckResponse, Carries r (.ofCurrent r)) ∧
    (∀ (d : Decision) (r : AuthGate.CheckResponse), d.shape = .ok r →
      Option.Rel SameBranch r.http (CheckResponse.ofCurrent r).http) ∧
    ∀ (d d' : Decision) (r r' : AuthGate.CheckResponse), d.shape = .ok r → d'.shape = .ok r' →
      CheckResponse.ofCurrent r = .ofCurrent r' → r.stripped = r'.stripped := by
  refine ⟨CheckResponse.carries_ofCurrent, fun _ _ => sameBranch_of_shape, ?_⟩
  intro d d' r r' h h' hold
  have hbranch := sameBranch_of_shape h
  have hbranch' := sameBranch_of_shape h'
  have hstatus : r.status = r'.status := congrArg CheckResponse.status hold
  rw [hold] at hbranch
  have hhttp : r.http.map HttpBranch.stripped = r'.http.map HttpBranch.stripped := by
    generalize (CheckResponse.ofCurrent r').http = old at hbranch hbranch'
    generalize r.http = b at hbranch ⊢
    generalize r'.http = b' at hbranch' ⊢
    cases hbranch with
    | none =>
      cases hbranch'
      rfl
    | some hsame =>
      cases hbranch' with
      | some hsame' => exact congrArg some (hsame.stripped_eq hsame')
  rw [AuthGate.CheckResponse.stripped, AuthGate.CheckResponse.stripped, hstatus, hhttp]

/-- A decision with one header. -/
def plainFields : List (String × Json) :=
  [("allowed", .bool true), ("headers", .object [("x-user", .string "alice")])]

/-- A decision with the same header, written in another way, and all that version 2 has no place
    for. -/
def laterFields : List (String × Json) :=
  [("allowed", .bool true), ("dynamic_metadata", .object [("tier", .bool true)]),
    ("headers", .array [.object [("x-user", .array [.string "alice"])]]),
    ("request_headers_to_remove", .array [.string "authorization"]),
    ("response_headers_to_add", .object [("x-served-by", .string "gate")])]

/-- The response of the decision with one header. -/
def plainResponse : AuthGate.CheckResponse where
  status := some (.of .ok "")
  http := some (.ok { headers := [Decision.headerOption "x-user" "alice"] })
  dynamicMetadata := none

/-- The response of the other one. -/
def laterResponse : AuthGate.CheckResponse where
  status := some (.of .ok "")
  http := some (.ok ⟨[Decision.headerOption "x-user" "alice"], ["authorization"],
    [Decision.headerOption "x-served-by" "gate"]⟩)
  dynamicMetadata := some [("tier", .bool true)]

theorem ofCurrent_carries_later :
    (Decision.structured plainFields).shape = .ok plainResponse ∧
      (Decision.structured laterFields).shape = .ok laterResponse ∧
      CheckResponse.ofCurrent plainResponse = .ofCurrent laterResponse ∧
      plainResponse.dynamicMetadata ≠ laterResponse.dynamicMetadata ∧
      plainResponse.stripped = laterResponse.stripped := by
  have hplain : (Decision.structured plainFields).shape = .ok plainResponse := rfl
  have hlater : (Decision.structured laterFields).shape = .ok laterResponse := rfl
  have hold : CheckResponse.ofCurrent plainResponse = .ofCurrent laterResponse := rfl
  exact ⟨hplain, hlater, hold, (Option.some_ne_none _).symm,
    ofCurrent_carries.2.2 _ _ _ _ hplain hlater hold⟩

end Legacy

end AuthGate
