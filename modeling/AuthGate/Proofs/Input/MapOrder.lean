import AuthGate.Proofs.Input.Body
import AuthGate.Proofs.Input.Order

set_option autoImplicit false

/-! # The order of maps is not seen

The maps of a request are received in some order, which no sender and no reader has chosen. As long
as names occur once in them, and those of headers differ in more than case, the policy input is the
same in every order, and so is the failure to build one. The one map that is searched is that of the
headers, for the first of a name in any case; with such names there is no other one to be found. The
main statement is `ofRequest_mapOrder`. -/

namespace AuthGate

/-- The same request, with the entries of its maps in another order, at every depth. -/
def CheckRequest.Reorders (r r' : CheckRequest) : Prop :=
  Option.Rel Attributes.Reorders r.attributes r'.attributes

/-- Headers whose names differ in more than case are not in doubt: there is one of each name. -/
theorem HttpRequest.Unambiguous.agrees {http : HttpRequest} (h : http.Unambiguous)
    (name : String) : http.Agrees name := by
  intro e he e' he' hname hname'
  have hsame : e.1.toList.map Text.asciiLower = e'.1.toList.map Text.asciiLower :=
    (eq_of_beq hname).trans (eq_of_beq hname').symm
  rw [List.inj_on_of_nodup_map h he he' hsame]

theorem HttpRequest.Unambiguous.settled {http : HttpRequest} (h : http.Unambiguous) :
    http.Settled :=
  ⟨h.agrees "content-length", h.agrees "content-type"⟩

namespace Input

/-- In whatever order the entries of its maps come, a request gives the same policy input, or fails
    with the same failure, if names occur once in a map and those of headers differ in more than
    case. -/
theorem ofRequest_mapOrder (o : Options) (v : ApiVersion) {r r' : CheckRequest}
    (h : r.Reorders r') (hdistinct : ∀ a ∈ r.attributes, a.Distinct)
    (hheaders : ∀ http ∈ r.http?, http.Unambiguous) : ofRequest o v r = ofRequest o v r' := by
  obtain ⟨attributes⟩ := r
  obtain ⟨attributes'⟩ := r'
  rw [CheckRequest.Reorders] at h
  cases h with
  | none => rfl
  | @some a b hreorders =>
    have hsettled : a.Settled := by
      intro request hrequest http hhttp
      refine (hheaders http ?_).settled
      exact Option.bind_eq_some_iff.2 ⟨request, hrequest, hhttp⟩
    exact ofRequest_eq_of_distinct o v hreorders (hdistinct a rfl) hsettled

/-- Attributes of a request with two headers, and what filters say of it. -/
def filtered (first second : String × String) (filters : List (String × Struct)) : Attributes :=
  { withHeaders first second with metadata := some ⟨filters, []⟩ }

/-- Names in another order in a struct that stands in a list of a struct. -/
theorem reorders_nested : Struct.Reorders
    [("user", .string "ann"), ("roles", .list [.struct [("id", .bool true), ("of", .string "a")]])]
    [("roles", .list [.struct [("of", .string "a"), ("id", .bool true)]]), ("user", .string "ann")] := by
  have hrole : StructValue.Reorders (.struct [("id", .bool true), ("of", .string "a")])
      (.struct [("of", .string "a"), ("id", .bool true)]) :=
    .struct (.cons (.refl _) (.cons (.refl _) .nil)) (.swap _ _ _)
  exact ⟨_, .cons (.refl _) (.cons (.list (.cons hrole .nil)) .nil), .swap _ _ _⟩

/-- Headers, filters and the names at two depths of a struct, all in another order. -/
theorem ofRequest_mapOrder_nested :
    let a := filtered ("content-length", "0") ("x-tenant", "blue")
      [("authz", [("user", .string "ann"),
        ("roles", .list [.struct [("id", .bool true), ("of", .string "a")]])]), ("lua", [])]
    let b := filtered ("x-tenant", "blue") ("content-length", "0")
      [("lua", []), ("authz", [("roles", .list [.struct [("of", .string "a"), ("id", .bool true)]]),
        ("user", .string "ann")])]
    CheckRequest.Reorders ⟨some a⟩ ⟨some b⟩ ∧ a.Distinct ∧
      (∀ http ∈ CheckRequest.http? ⟨some a⟩, http.Unambiguous) ∧
      ofRequest ⟨none, false⟩ .v3 ⟨some a⟩ = ofRequest ⟨none, false⟩ .v3 ⟨some b⟩ := by
  intro a b
  have hreorders : CheckRequest.Reorders ⟨some a⟩ ⟨some b⟩ := by
    refine .some { reorders_withHeaders ("content-length", "0") ("x-tenant", "blue") with
      metadata := .some ⟨⟨_, .cons reorders_nested (.cons ⟨_, .nil, .refl _⟩ .nil), .swap _ _ _⟩,
        .refl _⟩ }
  have hdistinct : a.Distinct := by
    refine ⟨by rintro _ ⟨⟩, by rintro _ ⟨⟩, ?_, List.nodup_nil, ?_, ?_⟩
    · rintro _ ⟨⟩ _ ⟨⟩
      decide
    · rintro _ ⟨⟩
      decide
    · rintro _ ⟨⟩ e he
      simp only [List.mem_cons, List.not_mem_nil, or_false] at he
      rcases he with rfl | rfl <;> simp [Struct.Distinct, StructValue.FieldsDistinct,
        StructValue.ItemsDistinct, StructValue.Distinct]
  have hheaders : ∀ http ∈ CheckRequest.http? ⟨some a⟩, http.Unambiguous := by
    rintro _ ⟨⟩
    rw [HttpRequest.Unambiguous]
    decide +kernel
  exact ⟨hreorders, hdistinct, hheaders,
    ofRequest_mapOrder _ _ hreorders (by rintro _ ⟨⟩; exact hdistinct) hheaders⟩

end Input

end AuthGate
