import AuthGate.Input.Document
import AuthGate.Proofs.Request.Order

set_option autoImplicit false

/-! # Requests are delivered as they were sent

A request that is put on the wire and read there gives the policy input of the request that was sent
(`ofRequest_delivered`), in whatever order the entries of its maps were written. The one thing that
may depend on that order is which of several headers counts whose names differ in case only. -/

namespace AuthGate

/-- All headers of this name, in whatever case, have the same value. -/
def HttpRequest.Agrees (name : String) (h : HttpRequest) : Prop :=
  ∀ e ∈ h.headers, ∀ e' ∈ h.headers, Text.sameIgnoringCase e.1.toList name.toList = true →
    Text.sameIgnoringCase e'.1.toList name.toList = true → e.2 = e'.2

instance (name : String) (h : HttpRequest) : Decidable (h.Agrees name) :=
  inferInstanceAs (Decidable (∀ e ∈ h.headers, ∀ e' ∈ h.headers, _ → _ → _))

/-- The headers that decide how the body is read are not in doubt. -/
structure HttpRequest.Settled (h : HttpRequest) : Prop where
  length : h.Agrees "content-length"
  type : h.Agrees "content-type"

/-- The headers of the HTTP request, if there is one, are not in doubt. -/
def Attributes.Settled (a : Attributes) : Prop := ∀ r ∈ a.request, ∀ h ∈ r.http, h.Settled

theorem HttpRequest.Agrees.of_perm {name : String} {h : HttpRequest} (hagrees : h.Agrees name)
    {headers : List (String × String)} (hperm : h.headers.Perm headers) :
    HttpRequest.Agrees name { h with headers := headers } :=
  fun e he e' he' => hagrees e (hperm.mem_iff.2 he) e' (hperm.mem_iff.2 he')

theorem Attributes.Reorders.settled {a b : Attributes} (h : a.Reorders b) (ha : a.Settled) :
    b.Settled := by
  refine forall_mem_of_rel h.request (fun r r' hr hsettled => ?_) ha
  refine forall_mem_of_rel hr.http (fun request request' hrequest hsettled => ?_) hsettled
  cases hrequest with
  | intro hperm => exact ⟨hsettled.length.of_perm hperm, hsettled.type.of_perm hperm⟩

namespace Input

/-! ## Attributes -/

/-- A map of texts is the same field in every order. -/
theorem mapField_eq_of_perm (name : String) {entries entries' : List (String × String)}
    (hperm : entries.Perm entries') (h : (entries.map (·.1)).Nodup) :
    mapField name entries = mapField name entries' := by
  have htexts : Json.ofTexts entries = Json.ofTexts entries' := by
    refine Json.ofFields_eq_of_perm (hperm.map _) ?_
    rw [Fields.names_mapValues]
    exact h
  rw [mapField, mapField, htexts, hperm.isEmpty_eq]

theorem peerJson_eq (p p' : Peer) (h : p.Reorders p') (hp : (p.labels.map (·.1)).Nodup) :
    peerJson p = peerJson p' := by
  cases h with
  | intro hperm => simp only [peerJson, mapField_eq_of_perm "labels" hperm hp]

theorem httpJson_eq (h h' : HttpRequest) (hh : h.Reorders h')
    (hnames : (h.headers.map (·.1)).Nodup) : httpJson h = httpJson h' := by
  cases hh with
  | intro hperm => simp only [httpJson, mapField_eq_of_perm "headers" hperm hnames]

/-- What is the same document wherever it is there is the same where it may be missing. -/
theorem map_eq_of_rel {α β : Type} {r : α → α → Prop} {p : α → Prop} {f : α → β} {o o' : Option α}
    (h : Option.Rel r o o') (hr : ∀ x y, r x y → p x → f x = f y) (ho : ∀ x ∈ o, p x) :
    o.map f = o'.map f := by
  cases h with
  | none => rfl
  | some hxy => exact congrArg some (hr _ _ hxy (ho _ rfl))

theorem requestJson_eq (r r' : TimedRequest) (h : r.Reorders r')
    (hr : ∀ http ∈ r.http, (http.headers.map (·.1)).Nodup) : requestJson r = requestJson r' := by
  rw [requestJson, requestJson, h.time, map_eq_of_rel h.http httpJson_eq hr]

theorem mapValues_toJson_eq {filters filters' : List (String × Struct)}
    (h : Metadata.FiltersReorder filters filters') (hdistinct : ∀ e ∈ filters, e.2.Distinct) :
    Fields.mapValues Struct.toJson filters = Fields.mapValues Struct.toJson filters' := by
  induction h with
  | nil => rfl
  | cons hs _ ih =>
    obtain ⟨hfirst, hrest⟩ := List.forall_mem_cons.1 hdistinct
    have htail := ih hrest
    simp only [Fields.mapValues, List.map_cons] at htail ⊢
    rw [htail, Struct.toJson_eq_of_reorders hs hfirst]

theorem metadataJson_eq (m m' : Metadata) (h : m.Reorders m')
    (hm : (m.filters.map (·.1)).Nodup ∧ ∀ e ∈ m.filters, e.2.Distinct) :
    metadataJson m = metadataJson m' := by
  obtain ⟨filters, hfilters, hperm⟩ := h.filters
  have hvalues := mapValues_toJson_eq hfilters hm.2
  have hempty : m.filters.isEmpty = m'.filters.isEmpty := by
    have hnames := congrArg List.isEmpty hfilters.names_eq
    rw [List.isEmpty_map, List.isEmpty_map, hperm.isEmpty_eq] at hnames
    exact hnames.symm
  have hjson : Json.ofFields (Fields.mapValues Struct.toJson m.filters) =
      Json.ofFields (Fields.mapValues Struct.toJson m'.filters) := by
    rw [hvalues]
    refine Json.ofFields_eq_of_perm (hperm.map _) ?_
    rw [Fields.names_mapValues, hfilters.names_eq]
    exact hm.1
  rw [metadataJson, metadataJson, hempty, hjson]

theorem attributesJson_eq {a b : Attributes} (h : a.Reorders b) (ha : a.Distinct) :
    attributesJson a = attributesJson b := by
  rw [attributesJson, attributesJson, map_eq_of_rel h.source peerJson_eq ha.source,
    map_eq_of_rel h.destination peerJson_eq ha.destination,
    map_eq_of_rel h.request requestJson_eq ha.headers,
    mapField_eq_of_perm "contextExtensions" h.contextExtensions ha.contextExtensions,
    map_eq_of_rel h.metadata metadataJson_eq fun m hm => ⟨ha.filters m hm, ha.structs m hm⟩,
    h.tlsSession]

/-! ## The body -/

/-- The value of a header that is not in doubt, found in any order. -/
theorem header?_eq_of_perm {name : String} {h : HttpRequest} (hagrees : h.Agrees name)
    {headers : List (String × String)} (hperm : h.headers.Perm headers) :
    header? name h = header? name { h with headers := headers } := by
  let named (e : String × String) : Bool := Text.sameIgnoringCase e.1.toList name.toList
  show (h.headers.find? named).map (·.2) = (headers.find? named).map (·.2)
  cases hfirst : h.headers.find? named with
  | none =>
    have hnone : headers.find? named = none := by
      rw [List.find?_eq_none] at hfirst ⊢
      exact fun e he => hfirst e (hperm.mem_iff.2 he)
    rw [hnone]
  | some e =>
    have he := List.mem_of_find?_eq_some hfirst
    have hnamed : named e = true := List.find?_some hfirst
    have hsome : (headers.find? named).isSome = true :=
      List.find?_isSome.2 ⟨e, hperm.mem_iff.1 he, hnamed⟩
    obtain ⟨e', hother⟩ := Option.isSome_iff_exists.1 hsome
    have he' := hperm.mem_iff.2 (List.mem_of_find?_eq_some hother)
    have hnamed' : named e' = true := List.find?_some hother
    rw [hother, Option.map_some, Option.map_some, hagrees e he e' he' hnamed hnamed']

theorem parseBody_eq (schema : Option Proto.Schema) {h h' : HttpRequest} (hh : h.Reorders h')
    (hsettled : h.Settled) : parseBody schema h = parseBody schema h' := by
  cases hh with
  | intro hperm =>
    rw [parseBody, parseBody, isTruncated, isTruncated, header?_eq_of_perm hsettled.length hperm,
      header?_eq_of_perm hsettled.type hperm]
    rfl

/-! ## The policy input -/

theorem rel_http? {a b : Attributes} (h : a.Reorders b) :
    Option.Rel HttpRequest.Reorders (CheckRequest.http? ⟨some a⟩) (CheckRequest.http? ⟨some b⟩) := by
  show Option.Rel _ (a.request.bind (·.http)) (b.request.bind (·.http))
  have hrequest := h.request
  generalize a.request = r at hrequest ⊢
  generalize b.request = r' at hrequest ⊢
  cases hrequest with
  | none => exact .none
  | some hr => exact hr.http

/-- The order of the entries of maps does not show in the policy input if names occur once and the
    headers are not in doubt. -/
theorem ofRequest_eq_of_distinct (o : Options) (v : ApiVersion) {a b : Attributes}
    (h : a.Reorders b) (ha : a.Distinct) (hsettled : a.Settled) :
    ofRequest o v ⟨some a⟩ = ofRequest o v ⟨some b⟩ := by
  have hattributes := attributesJson_eq h ha
  have hhttp := rel_http? h
  have hread : ∀ request ∈ CheckRequest.http? ⟨some a⟩, request.Settled := by
    intro request hrequest
    obtain ⟨r, hr, hmem⟩ := Option.bind_eq_some_iff.1 hrequest
    exact hsettled r hr request hmem
  rw [ofRequest, ofRequest, Option.map_some, Option.map_some, hattributes]
  generalize CheckRequest.http? ⟨some a⟩ = request at hhttp hread ⊢
  generalize CheckRequest.http? ⟨some b⟩ = request' at hhttp ⊢
  cases hhttp with
  | none => rfl
  | @some http http' hreorders =>
    have hbody := parseBody_eq o.schema hreorders (hread http rfl)
    have hpath : http.path = http'.path := by
      cases hreorders
      rfl
    simp only [Option.map_some, hpath, hbody]

theorem ofRequest_eq_of_reorders (o : Options) (v : ApiVersion) {a b : Attributes}
    (h : a.Reorders b) (ha : a.Fits) (hsettled : a.Settled) :
    ofRequest o v ⟨some a⟩ = ofRequest o v ⟨some b⟩ :=
  ofRequest_eq_of_distinct o v h ha.distinct hsettled

/-- A request that is put on the wire, the entries of its maps in any order, and read there gives the
    policy input, or the failure, of the request that was sent. Bytes are fewer than an address can
    count. -/
theorem ofRequest_delivered (o : Options) (v : ApiVersion) {a b : Attributes} (h : a.Reorders b)
    (ha : a.Fits) (hsettled : a.Settled)
    (hsize : (CheckRequest.encode ⟨some b⟩).length < 2 ^ 64) :
    (CheckRequest.decode? (CheckRequest.encode ⟨some b⟩)).map (ofRequest o v) =
      some (ofRequest o v ⟨some a⟩) := by
  have hb := h.fits ha
  have hsorted := Attributes.reorders_sorted hb
  rw [CheckRequest.decode?_encode hb hsize, Option.map_some,
    ofRequest_eq_of_reorders o v h ha hsettled,
    ofRequest_eq_of_reorders o v hsorted hb (h.settled hsettled)]

/-- Attributes of a request with two headers and nothing else. -/
def withHeaders (first second : String × String) : Attributes where
  source := none
  destination := none
  request := some ⟨none, some ⟨"", "", [first, second], "", "", "", "", "", 0, "", "", [], none⟩⟩
  contextExtensions := []
  metadata := none
  routeMetadata := none
  tlsSession := none

theorem reorders_withHeaders (first second : String × String) :
    (withHeaders first second).Reorders (withHeaders second first) where
  source := .none
  destination := .none
  request := .some ⟨rfl, .some (.intro _ (.swap _ _ _))⟩
  contextExtensions := .refl _
  metadata := .none
  routeMetadata := .none
  tlsSession := rfl

theorem withHeaders_fits {first second : String × String} (h : first.1 ≠ second.1) :
    (withHeaders first second).Fits where
  source _ hmem := absurd hmem (Option.not_mem_none _)
  destination _ hmem := absurd hmem (Option.not_mem_none _)
  request := by
    rintro r ⟨⟩
    refine ⟨fun _ hmem => absurd hmem (Option.not_mem_none _), ?_⟩
    rintro http ⟨⟩
    refine ⟨List.nodup_cons.2 ⟨by simpa using h, List.nodup_cons.2 ⟨by simp, List.nodup_nil⟩⟩, ?_⟩
    show Proto.IsSigned 64 0
    decide
  contextExtensions := List.nodup_nil
  metadata _ hmem := absurd hmem (Option.not_mem_none _)
  routeMetadata _ hmem := absurd hmem (Option.not_mem_none _)

/-- Two headers, one of which counts, written in the other order. -/
theorem ofRequest_delivered_withHeaders :
    let a := withHeaders ("content-length", "0") ("x-tenant", "blue")
    let b := withHeaders ("x-tenant", "blue") ("content-length", "0")
    a.Reorders b ∧ a.Fits ∧ a.Settled ∧ (CheckRequest.encode ⟨some b⟩).length < 2 ^ 64 ∧
      (CheckRequest.decode? (CheckRequest.encode ⟨some b⟩)).map (ofRequest ⟨none, false⟩ .v2) =
        some (ofRequest ⟨none, false⟩ .v2 ⟨some a⟩) := by
  intro a b
  have hfits : a.Fits := withHeaders_fits (by decide)
  have hsettled : a.Settled := by
    rintro r ⟨⟩ http ⟨⟩
    exact ⟨by decide +kernel, by decide +kernel⟩
  have hsize : (CheckRequest.encode ⟨some b⟩).length < 2 ^ 64 := by decide +kernel
  exact ⟨reorders_withHeaders _ _, hfits, hsettled, hsize,
    ofRequest_delivered _ _ (reorders_withHeaders _ _) hfits hsettled hsize⟩

/-- Of two headers whose names differ in case only, the one that was written first counts, so the
    order in which they were written decides whether there is a policy input at all. -/
theorem ofRequest_not_delivered_withHeaders :
    let a := withHeaders ("Content-Length", "x") ("content-length", "0")
    let b := withHeaders ("content-length", "0") ("Content-Length", "x")
    a.Reorders b ∧ a.Fits ∧ (CheckRequest.encode ⟨some b⟩).length < 2 ^ 64 ∧
      (CheckRequest.decode? (CheckRequest.encode ⟨some b⟩)).map (ofRequest ⟨none, false⟩ .v2) ≠
        some (ofRequest ⟨none, false⟩ .v2 ⟨some a⟩) := by
  intro a b
  have hfits : b.Fits := withHeaders_fits (by decide)
  have hsize : (CheckRequest.encode ⟨some b⟩).length < 2 ^ 64 := by decide +kernel
  refine ⟨reorders_withHeaders _ _, withHeaders_fits (by decide), hsize, fun h => ?_⟩
  have hsent : (ofRequest ⟨none, false⟩ .v2 ⟨some a⟩).isOk = false := by decide +kernel
  have hread : (ofRequest ⟨none, false⟩ .v2 ⟨some b⟩).isOk = true := by decide +kernel
  rw [CheckRequest.decode?_encode hfits hsize, Option.map_some, Option.some_inj] at h
  rw [← h] at hsent
  cases hsent.symm.trans hread

end Input

end AuthGate
