import AuthGate.Proofs.Decision.Acceptance
import AuthGate.Proofs.Json.WellFormed
import AuthGate.Proofs.Text.ByteOrder

set_option autoImplicit false

/-! # What a response carries

A response carries all that its decision says and nothing else, in the order in which the decision
says it. What that is, is said of the document alone: `Lists` for headers, one relation for each other
part. The main statement is `shape_emits`. -/

namespace AuthGate.Decision

/-! ## What the headers of a decision stand for -/

/-- The fields of an object in the order of the UTF-8 bytes of their names. -/
def byBytes (fields : List (String × Json)) : List (String × Json) :=
  fields.mergeSort fun f g =>
    decide (Text.Utf8.encode f.1.toList ≤ Text.Utf8.encode g.1.toList)

/-- The names and values that a field of a header object stands for: a text is one value, and an
    array of texts is as many. -/
inductive FieldLists (name : String) : Json → List (String × String) → Prop
  | one (value : String) : FieldLists name (.string value) [(name, value)]
  | many (values : List String) :
    FieldLists name (.array (values.map .string)) (values.map (name, ·))

/-- The names and values of fields one after the other. -/
def FieldsList (fields : List (String × Json)) (pairs : List (String × String)) : Prop :=
  ∃ lists, List.Forall₂ (fun f list => FieldLists f.1 f.2 list) fields lists ∧ pairs = lists.flatten

/-- The names and values that a header object stands for. -/
def ObjectLists (fields : List (String × Json)) : List (String × String) → Prop :=
  FieldsList (byBytes fields)

/-- The names and values that the headers of a decision stand for: those of an object, or those of the
    objects of an array one after the other. -/
inductive Lists : Option Json → List (String × String) → Prop
  | missing : Lists none []
  | object {fields : List (String × Json)} {pairs : List (String × String)}
    (h : ObjectLists fields pairs) : Lists (some (.object fields)) pairs
  | array {objects : List (List (String × Json))} {lists : List (List (String × String))}
    (h : List.Forall₂ ObjectLists objects lists) :
    Lists (some (.array (objects.map .object))) lists.flatten

/-- Sorted fields are in the order of the bytes. -/
theorem byBytes_eq_self {fields : List (String × Json)} (h : Fields.Sorted fields) :
    byBytes fields = fields := by
  refine List.mergeSort_of_pairwise ?_
  refine List.Pairwise.imp ?_ (List.pairwise_map.1 h)
  intro f g hlt
  exact decide_eq_true (List.le_of_lt (Text.Utf8.encode_lt_of_lt hlt))

/-- A header to set as a name and a value. -/
def setHeader (pair : String × String) : HeaderOption := headerOption pair.1 pair.2

/-! ## Traversals -/

section Traversals

variable {α β γ : Type}

/-- A traversal that takes documents of one kind and nothing else. -/
theorem mapM_of_kind {kind : α → Json} {f : Json → Except Failure β} {g : α → Except Failure β}
    (htaken : ∀ a, f (kind a) = g a) (hother : ∀ v b, f v = .ok b → ∃ a, v = kind a)
    {items : List Json} {ys : List β} (h : items.mapM f = .ok ys) :
    ∃ as, items = as.map kind ∧ List.Forall₂ (fun a y => g a = .ok y) as ys := by
  rw [mapM_eq_ok_iff] at h
  induction h with
  | nil => exact ⟨[], rfl, .nil⟩
  | cons hv _ ih =>
    obtain ⟨as, rfl, has⟩ := ih
    obtain ⟨a, rfl⟩ := hother _ _ hv
    exact ⟨a :: as, rfl, .cons ((htaken a).symm.trans hv) has⟩

/-- A traversal that takes texts and nothing else. -/
theorem mapM_of_texts {f : Json → Except Failure β} {k : String → β}
    (htaken : ∀ s, f (.string s) = .ok (k s)) (hother : ∀ v b, f v = .ok b → ∃ s, v = .string s)
    {items : List Json} {ys : List β} (h : items.mapM f = .ok ys) :
    ∃ ss : List String, items = ss.map .string ∧ ys = ss.map k := by
  obtain ⟨ss, hitems, hss⟩ := mapM_of_kind htaken hother h
  refine ⟨ss, hitems, ?_⟩
  clear h hitems
  induction hss with
  | nil => rfl
  | cons hs _ ih =>
    obtain rfl := Except.ok.inj hs
    rw [ih, List.map_cons]

/-- Lists put one after the other, for each of which it is known what it lists. -/
theorem exists_flatten_of_forall₂ {f : α → Except Failure (List γ)} {R : α → List β → Prop}
    {k : β → γ} {xs : List α} {yss : List (List γ)}
    (h : List.Forall₂ (fun x ys => f x = .ok ys) xs yss)
    (hstep : ∀ x ∈ xs, ∀ ys, f x = .ok ys → ∃ pairs, R x pairs ∧ ys = pairs.map k) :
    ∃ lists, List.Forall₂ R xs lists ∧ yss.flatten = lists.flatten.map k := by
  induction h with
  | nil => exact ⟨[], .nil, rfl⟩
  | cons hx _ ih =>
    obtain ⟨hhead, hrest⟩ := List.forall_mem_cons.1 hstep
    obtain ⟨pairs, hpairs, rfl⟩ := hhead _ hx
    obtain ⟨lists, hlists, hflat⟩ := ih hrest
    refine ⟨pairs :: lists, .cons hpairs hlists, ?_⟩
    rw [List.flatten_cons, List.flatten_cons, List.map_append, hflat]

end Traversals

/-! ## Headers are emitted -/

theorem headersOfField_lists {name : String} {v : Json} {hs : List HeaderOption}
    (h : headersOfField name v = .ok hs) :
    ∃ pairs, FieldLists name v pairs ∧ hs = pairs.map setHeader := by
  cases v with
  | string value =>
    obtain rfl := Except.ok.inj h
    exact ⟨_, .one value, rfl⟩
  | array values =>
    obtain ⟨ss, rfl, rfl⟩ := mapM_of_texts (k := headerOption name) (fun _ => rfl)
      (fun v _ hv => by
        cases v with
        | string s => exact ⟨s, rfl⟩
        | _ => cases hv) h
    refine ⟨_, .many ss, ?_⟩
    rw [List.map_map]
    rfl
  | _ => cases h

theorem headersOfObject_lists {fields : List (String × Json)} {hs : List HeaderOption}
    (h : headersOfObject fields = .ok hs) :
    ∃ pairs, FieldsList fields pairs ∧ hs = pairs.map setHeader := by
  obtain ⟨yss, hyss, hret⟩ := bind_eq_ok_iff.1 h
  obtain rfl := pure_eq_ok_iff.1 hret
  obtain ⟨lists, hlists, hflat⟩ := exists_flatten_of_forall₂
    (R := fun f list => FieldLists f.1 f.2 list) (mapM_eq_ok_iff.1 hyss)
    fun f _ _ hf => headersOfField_lists hf
  exact ⟨_, ⟨lists, hlists, rfl⟩, hflat⟩

/-- The headers of an array are those of its objects one after the other. -/
theorem headers_array_eq_ok {items : List Json} {hs : List HeaderOption}
    (h : headers (some (.array items)) = .ok hs) :
    ∃ objects yss, items = objects.map Json.object ∧
      List.Forall₂ (fun fields ys => headersOfObject fields = .ok ys) objects yss ∧
      hs = yss.flatten := by
  obtain ⟨yss, hyss, hret⟩ := bind_eq_ok_iff.1 h
  obtain rfl := pure_eq_ok_iff.1 hret
  obtain ⟨objects, hitems, hobjects⟩ := mapM_of_kind (g := headersOfObject) (fun _ => rfl)
    (fun v _ hv => by
      cases v with
      | object fields => exact ⟨fields, rfl⟩
      | _ => cases hv) hyss
  exact ⟨objects, yss, hitems, hobjects, rfl⟩

/-- Whatever the headers are, each is a name and a value to set and no more. -/
theorem exists_setHeader_of_headers {o : Option Json} {hs : List HeaderOption}
    (h : headers o = .ok hs) : ∃ pairs : List (String × String), hs = pairs.map setHeader := by
  cases o with
  | none =>
    obtain rfl := Except.ok.inj h
    exact ⟨[], rfl⟩
  | some v =>
    cases v with
    | object fields =>
      obtain ⟨pairs, -, hpairs⟩ := headersOfObject_lists h
      exact ⟨pairs, hpairs⟩
    | array items =>
      obtain ⟨objects, yss, -, hobjects, rfl⟩ := headers_array_eq_ok h
      obtain ⟨lists, -, hflat⟩ :=
        exists_flatten_of_forall₂ hobjects fun _ _ _ hfields => headersOfObject_lists hfields
      exact ⟨_, hflat⟩
    | _ => cases h

theorem headersOfObject_listed {fields : List (String × Json)} (hsorted : Fields.Sorted fields)
    {hs : List HeaderOption} (h : headersOfObject fields = .ok hs) :
    ∃ pairs, ObjectLists fields pairs ∧ hs = pairs.map setHeader := by
  rw [ObjectLists, byBytes_eq_self hsorted]
  exact headersOfObject_lists h

theorem headers_listed {o : Option Json} (hwell : ∀ v, o = some v → v.WellFormed)
    {hs : List HeaderOption} (h : headers o = .ok hs) :
    ∃ pairs, Lists o pairs ∧ hs = pairs.map setHeader := by
  cases o with
  | none =>
    obtain rfl := Except.ok.inj h
    exact ⟨[], .missing, rfl⟩
  | some v =>
    cases v with
    | object fields =>
      obtain ⟨pairs, hpairs, hmap⟩ := headersOfObject_listed (hwell _ rfl).sorted h
      exact ⟨pairs, .object hpairs, hmap⟩
    | array items =>
      obtain ⟨objects, yss, rfl, hobjects, rfl⟩ := headers_array_eq_ok h
      obtain ⟨lists, hlists, hflat⟩ := exists_flatten_of_forall₂ hobjects
        fun fields hmem _ hfields => headersOfObject_listed
          ((hwell _ rfl).of_mem_items (List.mem_map_of_mem hmem)).sorted hfields
      exact ⟨_, .array hlists, hflat⟩
    | _ => cases h

/-- Headers emitted for a field: their names and values are those listed, each is a header to set and
    none is to be appended, and those of an array are what its items have on their own. -/
structure Emits (o : Option Json) (hs : List HeaderOption) : Prop where
  pairs : ∃ pairs, Lists o pairs ∧
    hs.map (fun h => h.header.map fun v => (v.key, v.value)) = pairs.map some
  unappended : ∀ h ∈ hs, h.append = none
  concat : ∀ items, o = some (.array items) →
    ∃ lists, List.Forall₂ (fun item list => headers (some item) = .ok list) items lists ∧
      hs = lists.flatten

theorem headers_emits {o : Option Json} (hwell : ∀ v, o = some v → v.WellFormed)
    {hs : List HeaderOption} (h : headers o = .ok hs) : Emits o hs := by
  obtain ⟨pairs, hlists, hpairs⟩ := headers_listed hwell h
  refine ⟨⟨pairs, hlists, ?_⟩, ?_, ?_⟩
  · rw [hpairs, List.map_map]
    rfl
  · intro header hmem
    rw [hpairs] at hmem
    obtain ⟨pair, -, rfl⟩ := List.mem_map.1 hmem
    rfl
  · rintro items rfl
    obtain ⟨objects, yss, rfl, hobjects, hflat⟩ := headers_array_eq_ok h
    exact ⟨yss, List.forall₂_map_left_iff.2 hobjects, hflat⟩

/-! ## The other parts -/

/-- The texts of a field, in order, and none for a field that is not there. -/
def GivesTexts : Option Json → List String → Prop
  | none, ss => ss = []
  | some v, ss => v = .array (ss.map .string)

/-- The text of a field, and the empty one for a field that is not there. -/
def GivesBody : Option Json → String → Prop
  | none, s => s = ""
  | some v, s => v = .string s

/-- The status code that the number of a field is, and 403 for a field that is not there. -/
def GivesStatus : Option Json → Option Int → Prop
  | none, status => status = some 403
  | some v, status => ∃ n code, v = .number n ∧ n.toInt? = some code ∧ status = some code

/-- The struct of a field's object, and none for a field that is not there. -/
def GivesMetadata : Option Json → Option Struct → Prop
  | none, m => m = none
  | some v, m => ∃ fields, v = .object fields ∧ m = some (Struct.ofFields fields)

theorem strings_gives {o : Option Json} {ss : List String} (h : strings o = .ok ss) :
    GivesTexts o ss := by
  cases o with
  | none => exact (Except.ok.inj h).symm
  | some v =>
    cases v with
    | array items =>
      obtain ⟨ss', rfl, rfl⟩ := mapM_of_texts (k := id) (fun _ => rfl)
        (fun v _ hv => by
          cases v with
          | string s => exact ⟨s, rfl⟩
          | _ => cases hv) h
      rw [List.map_id]
      rfl
    | _ => cases h

theorem body_gives {o : Option Json} {s : String} (h : body o = .ok s) : GivesBody o s := by
  cases o with
  | none => exact (Except.ok.inj h).symm
  | some v =>
    cases v with
    | string s' =>
      obtain rfl := Except.ok.inj h
      rfl
    | _ => cases h

/-- The status code is 403, or the known code that a number is. -/
theorem httpStatus_eq_ok {o : Option Json} {code : Int} (h : httpStatus o = .ok code) :
    (o = none ∧ code = HttpStatus.forbidden) ∨
      ∃ n, o = some (.number n) ∧ clamped? n = some code ∧ HttpStatus.isCode code = true := by
  cases o with
  | none => exact .inl ⟨rfl, (Except.ok.inj h).symm⟩
  | some v =>
    cases v with
    | number n =>
      simp only [httpStatus] at h
      split at h
      · next code' hclamped =>
        split at h
        · next hcode =>
          obtain rfl := Except.ok.inj h
          exact .inr ⟨n, rfl, hclamped, hcode⟩
        · cases h
      · cases h
    | _ => cases h

theorem httpStatus_gives {o : Option Json} {code : Int} (h : httpStatus o = .ok code) :
    GivesStatus o (some code) := by
  rcases httpStatus_eq_ok h with ⟨rfl, rfl⟩ | ⟨n, rfl, hclamped, hcode⟩
  · rfl
  · exact ⟨n, code, rfl, (clamped?_eq_some_code_iff hcode).1 hclamped, rfl⟩

/-- The status code of a response is always a known one. -/
theorem isCode_of_httpStatus {o : Option Json} {code : Int} (h : httpStatus o = .ok code) :
    HttpStatus.isCode code = true := by
  rcases httpStatus_eq_ok h with ⟨-, rfl⟩ | ⟨-, -, -, hcode⟩
  · decide
  · exact hcode

theorem dynamicMetadata_gives {o : Option Json} {m : Option Struct}
    (h : dynamicMetadata o = .ok m) : GivesMetadata o m := by
  cases o with
  | none => exact (Except.ok.inj h).symm
  | some v =>
    cases v with
    | object fields => exact ⟨fields, rfl, (Except.ok.inj h).symm⟩
    | _ => cases h

/-! ## The whole -/

/-- What the part about HTTP carries, by the fields of the decision. -/
def BranchCarries (fields : List (String × Json)) : HttpBranch → Prop
  | .ok b =>
    allowBit fields = some (.bool true) ∧
      Emits (Fields.get? "headers" fields) b.headers ∧
      Emits (Fields.get? "response_headers_to_add" fields) b.responseHeadersToAdd ∧
      GivesTexts (Fields.get? "request_headers_to_remove" fields) b.headersToRemove
  | .denied b =>
    allowBit fields = some (.bool false) ∧
      Emits (Fields.get? "headers" fields) b.headers ∧
      GivesBody (Fields.get? "body" fields) b.body ∧
      GivesStatus (Fields.get? "http_status" fields) b.status

theorem okBranch_eq_ok {fields : List (String × Json)} {hs : List HeaderOption} {b : HttpBranch}
    (h : okBranch fields hs = .ok b) :
    ∃ remove add, strings (Fields.get? "request_headers_to_remove" fields) = .ok remove ∧
      headers (Fields.get? "response_headers_to_add" fields) = .ok add ∧
      b = .ok ⟨hs, remove, add⟩ := by
  obtain ⟨remove, hremove, h⟩ := bind_eq_ok_iff.1 h
  obtain ⟨add, hadd, h⟩ := bind_eq_ok_iff.1 h
  exact ⟨remove, add, about_eq_ok_iff.1 hremove, about_eq_ok_iff.1 hadd, (pure_eq_ok_iff.1 h).symm⟩

theorem deniedBranch_eq_ok {fields : List (String × Json)} {hs : List HeaderOption}
    {b : HttpBranch} (h : deniedBranch fields hs = .ok b) :
    ∃ text code, body (Fields.get? "body" fields) = .ok text ∧
      httpStatus (Fields.get? "http_status" fields) = .ok code ∧
      b = .denied ⟨some code, hs, text⟩ := by
  obtain ⟨text, htext, h⟩ := bind_eq_ok_iff.1 h
  obtain ⟨code, hcode, h⟩ := bind_eq_ok_iff.1 h
  exact ⟨text, code, about_eq_ok_iff.1 htext, about_eq_ok_iff.1 hcode, (pure_eq_ok_iff.1 h).symm⟩

/-- The response of an object has the branch that the allow bit asks for, and in it and beside it just
    what the fields of the object say. -/
theorem shape_emits {fields : List (String × Json)} (hwell : (Json.object fields).WellFormed)
    {r : CheckResponse} (h : (ofJson (.object fields)).shape = .ok r) :
    ∃ branch, r.http = some branch ∧ BranchCarries fields branch ∧
      GivesMetadata (Fields.get? "dynamic_metadata" fields) r.dynamicMetadata := by
  obtain ⟨allowed, hs, m, branch, hallowed, hheaders, hm, hbranch, rfl⟩ :=
    shape_structured_eq_ok_iff.1 h
  have hbit := isAllowed_structured_eq_ok_iff.1 hallowed
  have hhs : Emits (Fields.get? "headers" fields) hs :=
    headers_emits (fun _ hv => hwell.of_get? hv) hheaders
  refine ⟨branch, rfl, ?_, dynamicMetadata_gives hm⟩
  cases allowed with
  | true =>
    obtain ⟨remove, add, hremove, hadd, rfl⟩ := okBranch_eq_ok hbranch
    have hadded := headers_emits (fun _ hv => hwell.of_get? hv) hadd
    exact ⟨hbit, hhs, hadded, strings_gives hremove⟩
  | false =>
    obtain ⟨text, code, htext, hcode, rfl⟩ := deniedBranch_eq_ok hbranch
    exact ⟨hbit, hhs, body_gives htext, httpStatus_gives hcode⟩

/-- A refusal with two header objects that have a name in common, one value of it twice. -/
def refusalFields : List (String × Json) :=
  [("allowed", .bool false),
    ("body", .string "no"),
    ("headers", .array [
      .object [("x-a", .array [.string "1", .string "1"]), ("é", .string "2")],
      .object [("empty", .array []), ("x-a", .string "3")]]),
    ("http_status", .number (.whole ⟨401, by decide⟩))]

/-- The response of that refusal. -/
def refusal : CheckResponse where
  status := some (.of .permissionDenied "")
  http := some (.denied ⟨some 401,
    [("x-a", "1"), ("x-a", "1"), ("é", "2"), ("x-a", "3")].map setHeader, "no"⟩)
  dynamicMetadata := none

theorem shape_emits_refusal :
    (Json.object refusalFields).WellFormed ∧
      (ofJson (.object refusalFields)).shape = .ok refusal ∧
      ∃ branch, refusal.http = some branch ∧ BranchCarries refusalFields branch ∧
        GivesMetadata none refusal.dynamicMetadata := by
  have hwell : (Json.object refusalFields).WellFormed := by
    simp only [refusalFields, Json.WellFormed, Json.FieldsWellFormed, Json.ItemsWellFormed,
      Number.IsFinite, Fields.Sorted]
    decide +kernel
  have hshape : (ofJson (.object refusalFields)).shape = .ok refusal := rfl
  exact ⟨hwell, hshape, shape_emits hwell hshape⟩

end AuthGate.Decision
