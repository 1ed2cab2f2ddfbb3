import AuthGate.Input.Document
import AuthGate.Proofs.Result

set_option autoImplicit false

/-! # The version in the policy input

The version of the protocol is a label: it stands in one field of the policy input and decides
nothing about the rest of it, nor about whether it can be built. The main statement is
`ofRequest_alike`. -/

namespace AuthGate.Input

/-- The field of the policy input about the version. -/
def versionJson (v : ApiVersion) : Json :=
  .ofFields [("encoding", .string "protojson"), ("ext_authz", .string v.label)]

/-- Policy inputs that are the same but for the label of the version. -/
inductive SameInput (v v' : ApiVersion) : Json → Json → Prop
  | intro (fields : List (String × Json)) :
    SameInput v v' (.object (Fields.insert "version" (versionJson v) fields))
      (.object (Fields.insert "version" (versionJson v') fields))

/-- The version stands beside fields that do not depend on it. -/
theorem ofFields_version (fields : List (String × Json)) (v : ApiVersion) :
    Json.ofFields (fields ++ [("version", versionJson v)]) =
      .object (Fields.insert "version" (versionJson v) (Fields.ofList fields)) := by
  simp only [Json.ofFields, Fields.ofList, List.foldl_append, List.foldl_cons, List.foldl_nil]

/-- Requests of two versions are read alike: they fail with the same failure, or give inputs that
    are the same but for the label. -/
theorem ofRequest_alike (o : Options) (v v' : ApiVersion) (r : CheckRequest) :
    SameResult (SameInput v v') (ofRequest o v r) (ofRequest o v' r) := by
  have hend (fields : List (String × Json)) : SameResult (SameInput v v')
      (pure (.ofFields (fields ++ [("version", versionJson v)])) : Except Failure Json)
      (pure (.ofFields (fields ++ [("version", versionJson v')]))) := by
    rw [ofFields_version, ofFields_version]
    exact .ok (.intro _)
  simp only [ofRequest]
  refine .bind _ fun path => ?_
  -- the body is left alone, is read, or there is none
  split
  · split
    · exact .bind _ fun _ => hend _
    · exact .bind _ fun _ => .bind _ fun _ => hend _
  · exact .bind _ fun _ => hend _

end AuthGate.Input
