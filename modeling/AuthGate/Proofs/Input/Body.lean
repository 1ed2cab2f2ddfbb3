import AuthGate.Proofs.Input.Frame
import AuthGate.Proofs.Result
import AuthGate.Proofs.Text.Blank
import AuthGate.Proofs.Text.Digits
import Mathlib.Data.List.Nodup

set_option autoImplicit false

/-! # How bodies are read

The headers of a request decide how its body is read. What they say is stated here by what the
headers hold (`header?_eq_some_iff`, `BodyFormat.ofContentType_eq_iff`, `isTruncated_eq_ok_iff`), and
what becomes of the body then has one lemma for each way to read it. -/

namespace AuthGate

/-! ## Headers -/

/-- A header of this name, in whatever case, has this value. -/
def HttpRequest.Tells (http : HttpRequest) (name value : String) : Prop :=
  ∃ e ∈ http.headers, Text.sameIgnoringCase e.1.toList name.toList = true ∧ e.2 = value

/-- No two headers have names that differ in case only. -/
def HttpRequest.Unambiguous (http : HttpRequest) : Prop :=
  (http.headers.map fun e => e.1.toList.map Text.asciiLower).Nodup

namespace Input

variable {http : HttpRequest}

theorem header?_eq_none_iff {name : String} :
    header? name http = none ↔ ∀ value, ¬ http.Tells name value := by
  simp only [header?, Option.map_eq_none_iff, List.find?_eq_none, HttpRequest.Tells]
  constructor
  · rintro h _ ⟨e, he, hname, rfl⟩
    exact h e he hname
  · exact fun h e he hname => h e.2 ⟨e, he, hname, rfl⟩

theorem tells_of_header?_eq_some {name value : String} (h : header? name http = some value) :
    http.Tells name value := by
  obtain ⟨e, he, rfl⟩ := Option.map_eq_some_iff.1 h
  have hname := List.find?_some he
  exact ⟨e, List.mem_of_find?_eq_some he, hname, rfl⟩

/-- A header is found by its name if no other has the same name. -/
theorem header?_eq_some_iff (h : http.Unambiguous) {name value : String} :
    header? name http = some value ↔ http.Tells name value := by
  refine ⟨tells_of_header?_eq_some, ?_⟩
  rintro ⟨e, he, hname, rfl⟩
  cases hfound : header? name http with
  | none => exact absurd ⟨e, he, hname, rfl⟩ (header?_eq_none_iff.1 hfound e.2)
  | some found =>
    obtain ⟨e', he', rfl⟩ := Option.map_eq_some_iff.1 hfound
    have hname' := List.find?_some he'
    have hsame : e'.1.toList.map Text.asciiLower = e.1.toList.map Text.asciiLower :=
      (eq_of_beq hname').trans (eq_of_beq hname).symm
    rw [List.inj_on_of_nodup_map h (List.mem_of_find?_eq_some he') he hsame]

/-! ## Content types -/

/-- The content type that the headers tell, empty if they tell none. -/
def contentType (http : HttpRequest) : String := (header? "content-type" http).getD ""

/-- The formats that a content type asks for: of those that it mentions the first. -/
inductive BodyFormat.Asked (type : String) : BodyFormat → Prop
  | json (json : "application/json".toList <:+: type.toList) : Asked type .json
  | form (json : ¬ "application/json".toList <:+: type.toList)
    (form : "application/x-www-form-urlencoded".toList <:+: type.toList) : Asked type .form
  | grpc (json : ¬ "application/json".toList <:+: type.toList)
    (form : ¬ "application/x-www-form-urlencoded".toList <:+: type.toList)
    (grpc : "application/grpc".toList <:+: type.toList) : Asked type .grpc
  | other (json : ¬ "application/json".toList <:+: type.toList)
    (form : ¬ "application/x-www-form-urlencoded".toList <:+: type.toList)
    (grpc : ¬ "application/grpc".toList <:+: type.toList) : Asked type .other

theorem BodyFormat.ofContentType_eq_iff {type : String} {format : BodyFormat} :
    BodyFormat.ofContentType type = format ↔ format.Asked type := by
  constructor
  · rintro rfl
    simp only [BodyFormat.ofContentType, Text.occursIn_iff_infix]
    split
    · next hjson => exact .json hjson
    · next hjson =>
      split
      · next hform => exact .form hjson hform
      · next hform =>
        split
        · next hgrpc => exact .grpc hjson hform hgrpc
        · next hgrpc => exact .other hjson hform hgrpc
  · intro h
    simp only [BodyFormat.ofContentType, Text.occursIn_iff_infix]
    cases h with
    | json hjson => rw [if_pos hjson]
    | form hjson hform => rw [if_neg hjson, if_pos hform]
    | grpc hjson hform hgrpc => rw [if_neg hjson, if_neg hform, if_pos hgrpc]
    | other hjson hform hgrpc => rw [if_neg hjson, if_neg hform, if_neg hgrpc]

/-! ## Lengths -/

/-- The text of a header tells a length: a natural number of 64 bits, with blanks around it. -/
def IsLength (value : String) (n : Nat) : Prop :=
  Text.IsNatural (Text.trim value.toList) n ∧ n < 2 ^ 64

theorem word64?_trim_eq_some_iff {value : String} {n : Nat} :
    Text.word64? (Text.trim value.toList) = some n ↔ IsLength value n :=
  Text.word64?_eq_some_iff

/-- No header tells that the body is longer than it is. -/
def IsWhole (http : HttpRequest) : Prop :=
  ∀ value, http.Tells "content-length" value → ∃ n, IsLength value n ∧ n ≤ (bodyBytes http).length

/-- The length of a body is only in doubt if a header tells no length. -/
theorem isTruncated_error_iff (h : http.Unambiguous) {length : Nat} :
    (∃ f, isTruncated http length = .error f) ↔
      ∃ value, http.Tells "content-length" value ∧ ¬ ∃ n, IsLength value n := by
  simp only [isTruncated, ← header?_eq_some_iff h, ← word64?_trim_eq_some_iff]
  cases header? "content-length" http with
  | none => simp
  | some value =>
    cases hlength : Text.word64? (Text.trim value.toList) <;> simp [hlength]

/-- If every length that is told is one, it is known whether the body is truncated. -/
theorem exists_isTruncated (length : Nat)
    (h : ∀ value, http.Tells "content-length" value → ∃ n, IsLength value n) :
    ∃ truncated, isTruncated http length = .ok truncated := by
  rw [isTruncated]
  cases hfound : header? "content-length" http with
  | none => exact ⟨_, rfl⟩
  | some value =>
    obtain ⟨n, hn⟩ := h value (tells_of_header?_eq_some hfound)
    simp only [word64?_trim_eq_some_iff.2 hn]
    exact ⟨_, rfl⟩

theorem isTruncated_eq_false_iff (h : http.Unambiguous) :
    isTruncated http (bodyBytes http).length = .ok false ↔ IsWhole http := by
  simp only [isTruncated, IsWhole, ← header?_eq_some_iff h, ← word64?_trim_eq_some_iff]
  cases header? "content-length" http with
  | none => simp
  | some value =>
    cases hlength : Text.word64? (Text.trim value.toList) <;> simp [hlength]

/-! ## Bodies -/

/-- Bytes that cannot be shown as a message of a type: they are none, or one without a form in
    JSON. -/
inductive Unshown (s : Proto.Schema) (type : Proto.MessageType) (payload : List UInt8) : Prop
  | message (bad : Proto.merge s type [] payload = none)
  | form {m : Proto.Message} (message : Proto.merge s type [] payload = some m)
    (bad : m.toJson? s type = none)

theorem unshown_of_merge_eq_some_iff {s : Proto.Schema} {type : Proto.MessageType}
    {payload : List UInt8} {m : Proto.Message} (h : Proto.merge s type [] payload = some m) :
    Unshown s type payload ↔ m.toJson? s type = none := by
  constructor
  · intro hunshown
    cases hunshown with
    | message bad =>
      rw [h] at bad
      cases bad
    | form message bad =>
      rw [h] at message
      cases message
      exact bad
  · exact .form h

/-- A gRPC body fails to be read if its method is known and it holds no frame, or one with bytes
    that cannot be shown. -/
theorem grpcBody_error_iff {s : Proto.Schema} {path : String} {bs : List UInt8} :
    (∃ f, grpcBody s path bs = .error f) ↔
      ∃ type, methodInput? s path.toList = some type ∧
        (bs.length < frameHeader ∨ ∃ payload : List UInt8,
          payload.length < 2 ^ 32 ∧ frame payload <+: bs ∧ Unshown s type payload) := by
  simp only [grpcBody, ← Frame.ofBytes_eq_short_iff, ← and_assoc, ← Frame.ofBytes_eq_message_iff]
  cases methodInput? s path.toList with
  | none => simp
  | some type =>
    cases Frame.ofBytes bs with
    | message payload =>
      cases hmessage : Proto.merge s type [] payload with
      | none => simp [hmessage, Unshown.message hmessage]
      | some m =>
        simp only [hmessage, Option.some.injEq, exists_eq_left', reduceCtorEq, false_or,
          Frame.message.injEq, unshown_of_merge_eq_some_iff hmessage]
        cases m.toJson? s type <;> simp
    | _ => simp

/-- A body that is there, read in a format. -/
def readAs (schema : Option Proto.Schema) (http : HttpRequest) (truncated : Bool) :
    BodyFormat → Except Failure Body
  | .json =>
    if truncated then .ok ⟨none, true⟩
    else match Json.ofBytes? (bodyBytes http) with
    | some v => .ok ⟨some v, false⟩
    | none => .error ⟨.inputConversion, "body is not valid JSON: the bytes are no document"⟩
  | .form => .ok ⟨some (parametersJson (bodyBytes http)), truncated⟩
  | .grpc =>
    match schema with
    | none => .ok ⟨none, truncated⟩
    | some s =>
      if truncated then .ok ⟨none, true⟩ else grpcBody s http.path (bodyBytes http)
  | .other => .ok ⟨none, truncated⟩

variable {schema : Option Proto.Schema} {truncated : Bool}

/-- First it is told whether the body is truncated, then what it is read as. -/
theorem parseBody_eq_bind : parseBody schema http =
    isTruncated http (bodyBytes http).length >>= fun truncated =>
      if bodyBytes http = [] then .ok ⟨none, truncated⟩
      else readAs schema http truncated (.ofContentType (contentType http)) := by
  simp only [parseBody, ← contentType.eq_def, ← List.isEmpty_iff]
  congr 1

/-- A truncated body never fails to be read. -/
theorem exists_readAs_of_truncated (schema : Option Proto.Schema) (http : HttpRequest)
    (format : BodyFormat) : ∃ body, readAs schema http true format = .ok body := by
  cases format with
  | grpc => cases schema <;> exact ⟨_, rfl⟩
  | _ => exact ⟨_, rfl⟩

/-- A body that is not truncated fails to be read only as JSON or as gRPC. -/
theorem readAs_error_iff {format : BodyFormat} : (∃ f, readAs schema http false format = .error f) ↔
    format = .json ∧ Json.ofBytes? (bodyBytes http) = none ∨
      format = .grpc ∧ ∃ s ∈ schema, ∃ f, grpcBody s http.path (bodyBytes http) = .error f := by
  cases format with
  | json => cases hjson : Json.ofBytes? (bodyBytes http) <;> simp [readAs, hjson]
  | grpc => cases schema <;> simp [readAs]
  | form | other => simp [readAs]

theorem kind_of_isTruncated_error {length : Nat} {f : Failure}
    (h : isTruncated http length = .error f) : f.kind = .inputConversion := by
  simp only [isTruncated] at h
  split at h
  · cases h
  · split at h <;> cases h
    rfl

theorem kind_of_grpcBody_error {s : Proto.Schema} {path : String} {bs : List UInt8} {f : Failure}
    (h : grpcBody s path bs = .error f) : f.kind = .inputConversion := by
  simp only [grpcBody] at h
  split at h
  · cases h
  · split at h
    · cases h
      rfl
    · cases h
    · cases h
    · split at h
      · cases h
        rfl
      · split at h <;> cases h
        rfl

theorem kind_of_readAs_error {format : BodyFormat} {f : Failure}
    (h : readAs schema http truncated format = .error f) : f.kind = .inputConversion := by
  cases truncated with
  | true =>
    obtain ⟨body, hbody⟩ := exists_readAs_of_truncated schema http format
    rw [hbody] at h
    cases h
  | false =>
    rcases readAs_error_iff.1 ⟨f, h⟩ with ⟨rfl, hjson⟩ | ⟨rfl, s, ⟨⟩, -⟩
    · simp only [readAs, hjson, Bool.false_eq_true, if_false] at h
      cases h
      rfl
    · exact kind_of_grpcBody_error h

/-- However a body fails to be read, what fails is the building of an input. -/
theorem kind_of_parseBody_error {f : Failure} (h : parseBody schema http = .error f) :
    f.kind = .inputConversion := by
  rw [parseBody_eq_bind, bind_eq_error_iff] at h
  rcases h with h | ⟨truncated, -, h⟩
  · exact kind_of_isTruncated_error h
  · split at h
    · cases h
    · exact kind_of_readAs_error h

/-- A frame that is cut is not shown. -/
theorem parsed_grpcBody {s : Proto.Schema} {path : String} {bs : List UInt8} {body : Body}
    (h : grpcBody s path bs = .ok body) (htruncated : body.truncated = true) :
    body.parsed = none := by
  simp only [grpcBody] at h
  split at h
  · cases h
    rfl
  · split at h
    · cases h
    · cases h
      rfl
    · cases h
      rfl
    · split at h
      · cases h
      · split at h <;> cases h
        cases htruncated

/-- Whatever a body is read as, it is not shown if it is truncated, but for a form. -/
theorem parsed_eq_none_of_truncated {body : Body} (h : parseBody schema http = .ok body)
    (htruncated : body.truncated = true)
    (hform : BodyFormat.ofContentType (contentType http) ≠ .form) : body.parsed = none := by
  rw [parseBody_eq_bind, bind_eq_ok_iff] at h
  obtain ⟨truncated, -, h⟩ := h
  split at h
  · cases h
    rfl
  · cases hformat : BodyFormat.ofContentType (contentType http) with
    | form => exact absurd hformat hform
    | other =>
      rw [hformat] at h
      cases h
      rfl
    | json =>
      rw [hformat, readAs] at h
      split at h
      · cases h
        rfl
      · split at h <;> cases h
        cases htruncated
    | grpc =>
      rw [hformat, readAs.eq_def] at h
      dsimp only at h
      split at h
      · cases h
        rfl
      · split at h
        · cases h
          rfl
        · -- all of the body is there, but its frame may say that there is more
          exact parsed_grpcBody h htruncated

end Input

end AuthGate
