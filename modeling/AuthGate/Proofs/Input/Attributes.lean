import AuthGate.Proofs.Input.Order
import AuthGate.Proofs.Json.Fields
import AuthGate.Proofs.Text.Base64
import AuthGate.Proofs.Text.Digits
import Mathlib.Data.Option.Basic

set_option autoImplicit false

/-! # Attributes are known from their document

The document of attributes leaves out what is empty or missing. Nothing is confused by that: two
requests with the same document agree in all that a policy is shown of them
(`alike_of_attributesJson_eq`). Every part of the document is an object of fields that may be
missing, so that `Json.ofParts_inj` tells its fields, and each way to write a field can be undone. -/

namespace AuthGate

/-! ## Attributes that show alike -/

/-- Neither a socket nor a pipe: the document says nothing about such an address. -/
def Address.isHidden : Address → Bool
  | .unset | .internal .. => true
  | .socket _ | .pipe .. => false

/-- Addresses that agree in what is shown of them. -/
inductive Address.Alike : Address → Address → Prop
  | socket {s s' : SocketAddress} (address : s.address = s'.address)
    (resolverName : s.resolverName = s'.resolverName) (port : s.port = s'.port) :
    Address.Alike (.socket s) (.socket s')
  | pipe (path : String) (mode mode' : Nat) : Address.Alike (.pipe path mode) (.pipe path mode')
  | hidden {a a' : Address} (h : a.isHidden = true) (h' : a'.isHidden = true) : Address.Alike a a'

/-- Peers that agree in what is shown of them; maps may differ in their order. -/
structure Peer.Alike (p p' : Peer) : Prop where
  address : Option.Rel Address.Alike p.address p'.address
  service : p.service = p'.service
  labels : p.labels.Perm p'.labels
  principal : p.principal = p'.principal
  certificate : p.certificate = p'.certificate

/-- HTTP requests that agree in what is shown of them. -/
structure HttpRequest.Alike (h h' : HttpRequest) : Prop where
  id : h.id = h'.id
  method : h.method = h'.method
  headers : h.headers.Perm h'.headers
  path : h.path = h'.path
  host : h.host = h'.host
  scheme : h.scheme = h'.scheme
  query : h.query = h'.query
  fragment : h.fragment = h'.fragment
  size : h.size = h'.size
  protocol : h.protocol = h'.protocol
  body : h.body = h'.body
  rawBody : h.rawBody = h'.rawBody

/-- Requests that agree in what is shown of them, but for the time. -/
def TimedRequest.Alike (r r' : TimedRequest) : Prop := Option.Rel HttpRequest.Alike r.http r'.http

/-- Metadata with the same documents under the same names. -/
def Metadata.Alike (m m' : Metadata) : Prop :=
  (Fields.mapValues Struct.toJson m.filters).Perm (Fields.mapValues Struct.toJson m'.filters)

/-- Attributes that agree in what is shown of them, but for the time. -/
structure Attributes.Alike (a a' : Attributes) : Prop where
  source : Option.Rel Peer.Alike a.source a'.source
  destination : Option.Rel Peer.Alike a.destination a'.destination
  request : Option.Rel TimedRequest.Alike a.request a'.request
  contextExtensions : a.contextExtensions.Perm a'.contextExtensions
  metadata : Option.Rel Metadata.Alike a.metadata a'.metadata
  tlsSession : a.tlsSession = a'.tlsSession

/-! ## Attributes as they are received -/

/-- The number of a port has 32 bits. -/
def Address.Proper (a : Address) : Prop :=
  ∀ s n, a = .socket s → s.port = some (.number n) → n < 2 ^ 32

/-- A label occurs once. -/
structure Peer.Proper (p : Peer) : Prop where
  address : ∀ a ∈ p.address, a.Proper
  labels : (p.labels.map (·.1)).Nodup

/-- Attributes as a proxy sends them: a name occurs once in a map, and ports have 32 bits. -/
structure Attributes.Proper (a : Attributes) : Prop where
  source : ∀ p ∈ a.source, p.Proper
  destination : ∀ p ∈ a.destination, p.Proper
  headers : ∀ r ∈ a.request, ∀ h ∈ r.http, (h.headers.map (·.1)).Nodup
  contextExtensions : (a.contextExtensions.map (·.1)).Nodup
  filters : ∀ m ∈ a.metadata, (m.filters.map (·.1)).Nodup

namespace Input

open Fields

/-! ## Ways to write a field -/

/-- A text, left out if empty. -/
def text? (value : String) : Option Json := if value.isEmpty then none else some (.string value)

/-- A map of texts, left out if empty. -/
def texts? (entries : List (String × String)) : Option Json :=
  if entries.isEmpty then none else some (.ofTexts entries)

/-- A whole number as text, left out if zero. -/
def int? (i : Int) : Option Json :=
  if i = 0 then none else some (.string (String.ofList (Text.ofInt i)))

/-- The number of a port. -/
def portValue? : Option Port → Option Json
  | some (.number n) => some (.ofNat n)
  | _ => none

/-- The name of a port. -/
def namedPort? : Option Port → Option Json
  | some (.named name) => some (.string name)
  | _ => none

theorem text?_inj {value value' : String} (h : text? value = text? value') : value = value' := by
  simp only [text?] at h
  split at h <;> split at h <;> simp_all

theorem texts?_inj {entries entries' : List (String × String)} (h : (entries.map (·.1)).Nodup)
    (h' : (entries'.map (·.1)).Nodup) (heq : texts? entries = texts? entries') :
    entries.Perm entries' := by
  simp only [texts?] at heq
  split at heq <;> split at heq
  · simp_all
  · cases heq
  · cases heq
  · exact Json.perm_of_ofTexts_eq h h' (Option.some_inj.1 heq)

theorem int?_inj {i i' : Int} (h : int? i = int? i') : i = i' := by
  simp only [int?] at h
  split at h <;> split at h
  · simp_all
  · cases h
  · cases h
  · exact Text.ofInt_inj (String.ofList_injective (Json.string.inj (Option.some_inj.1 h)))

/-- Numbers of up to 64 bits are known from their documents. -/
theorem ofNat_inj {m n : Nat} (hm : m < 2 ^ 64) (hn : n < 2 ^ 64) (h : Json.ofNat m = Json.ofNat n) :
    m = n := by
  have hwhole {k : Nat} (hk : k < 2 ^ 64) :
      ∃ w : Whole, Json.ofNat k = .number (.whole w) ∧ w.value = k := by
    have hrange : -(0x8000000000000000) ≤ (k : Int) ∧ (k : Int) < 0x10000000000000000 := by omega
    refine ⟨⟨k, hrange⟩, ?_, rfl⟩
    rw [Json.ofNat, Json.ofInt, Number.ofInt, Whole.ofInt?, dif_pos hrange]
  obtain ⟨w, hw, hvalue⟩ := hwhole hm
  obtain ⟨w', hw', hvalue'⟩ := hwhole hn
  rw [hw, hw', Json.number.injEq, Number.whole.injEq] at h
  rw [← Int.ofNat_inj, ← hvalue, ← hvalue', h]

/-- The two fields of a port tell it. -/
theorem port_inj {p p' : Option Port} (hp : ∀ n, p = some (.number n) → n < 2 ^ 32)
    (hp' : ∀ n, p' = some (.number n) → n < 2 ^ 32) (hvalue : portValue? p = portValue? p')
    (hnamed : namedPort? p = namedPort? p') : p = p' := by
  rcases p with _ | (n | name) <;> rcases p' with _ | (n' | name') <;>
    simp only [portValue?, namedPort?, reduceCtorEq, Option.some.injEq] at hvalue hnamed
  · rfl
  · have hn := hp n rfl
    have hn' := hp' n' rfl
    rw [ofNat_inj (by omega) (by omega) hvalue]
  · rw [Json.string.inj hnamed]

/-! ## The fields of each part -/

theorem textField_eq (name value : String) : textField name value = given [(name, text? value)] := by
  rw [textField, text?]
  split <;> rfl

theorem mapField_eq (name : String) (entries : List (String × String)) :
    mapField name entries = given [(name, texts? entries)] := by
  rw [mapField, texts?]
  split <;> rfl

theorem optionalField_eq (name : String) (value : Option Json) :
    optionalField name value = given [(name, value)] := by
  cases value <;> rfl

theorem portField_eq (p : Option Port) :
    portField p = given [("portValue", portValue? p), ("namedPort", namedPort? p)] := by
  rcases p with _ | (n | name) <;> rfl

/-- What is shown of a socket. -/
def socketJson (s : SocketAddress) : Json :=
  .ofParts [("address", text? s.address), ("resolverName", text? s.resolverName),
    ("portValue", portValue? s.port), ("namedPort", namedPort? s.port)]

/-- What is shown of a pipe. -/
def pipeJson (path : String) : Json := .ofParts [("path", text? path)]

theorem addressJson_eq (a : Address) : addressJson a = .ofParts [
    ("socketAddress", match a with | .socket s => some (socketJson s) | _ => none),
    ("pipe", match a with | .pipe path _ => some (pipeJson path) | _ => none)] := by
  cases a with
  | unset | internal => rfl
  | socket s =>
    simp only [addressJson, textField_eq, portField_eq, ← given_append]
    rfl
  | pipe path mode =>
    simp only [addressJson, textField_eq]
    rfl

theorem peerJson_eq_ofParts (p : Peer) : peerJson p = .ofParts [
    ("address", p.address.map addressJson), ("service", text? p.service),
    ("labels", texts? p.labels), ("principal", text? p.principal),
    ("certificate", text? p.certificate)] := by
  simp only [peerJson, textField_eq, mapField_eq, optionalField_eq, ← given_append]
  rfl

theorem httpJson_eq_ofParts (h : HttpRequest) : httpJson h = .ofParts [
    ("id", text? h.id), ("method", text? h.method), ("headers", texts? h.headers),
    ("path", text? h.path), ("host", text? h.host), ("scheme", text? h.scheme),
    ("query", text? h.query), ("fragment", text? h.fragment), ("size", int? h.size),
    ("protocol", text? h.protocol), ("body", text? h.body),
    ("rawBody", text? (String.ofList (Text.Base64.encode h.rawBody)))] := by
  simp only [httpJson, textField_eq, mapField_eq, optionalField_eq, ← given_append]
  rfl

theorem requestJson_eq_ofParts (r : TimedRequest) : requestJson r = .ofParts [
    ("time", r.time.bind timeJson?), ("http", r.http.map httpJson)] := by
  simp only [requestJson, optionalField_eq, ← given_append]
  rfl

theorem metadataJson_eq_ofParts (m : Metadata) : metadataJson m = .ofParts [
    ("filterMetadata", if m.filters.isEmpty then none
      else some (.ofFields (Fields.mapValues Struct.toJson m.filters)))] := by
  rw [metadataJson]
  split <;> rfl

theorem attributesJson_eq_ofParts (a : Attributes) : attributesJson a = .ofParts [
    ("source", a.source.map peerJson), ("destination", a.destination.map peerJson),
    ("request", a.request.map requestJson), ("contextExtensions", texts? a.contextExtensions),
    ("metadataContext", a.metadata.map metadataJson),
    ("tlsSession", a.tlsSession.map fun t => .ofParts [("sni", text? t.sni)])] := by
  simp only [attributesJson, textField_eq, mapField_eq, optionalField_eq, ← given_append]
  rfl

/-! ## Each part is known from its document -/

/-- What is known from its document wherever it is there is known where it may be missing. -/
theorem rel_of_map_eq {α : Type} {r : α → α → Prop} {f : α → Json} {o o' : Option α}
    (h : ∀ x ∈ o, ∀ y ∈ o', f x = f y → r x y) (heq : o.map f = o'.map f) : Option.Rel r o o' := by
  cases o with
  | none =>
    cases o' with
    | none => exact .none
    | some y => cases heq
  | some x =>
    cases o' with
    | none => cases heq
    | some y => exact .some (h x rfl y rfl (Option.some_inj.1 heq))

theorem socket_inj {s s' : SocketAddress} (hs : (Address.socket s).Proper)
    (hs' : (Address.socket s').Proper) (h : socketJson s = socketJson s') :
    Address.Alike (.socket s) (.socket s') := by
  have hparts := Json.ofParts_inj (by rfl) (by simp) h
  simp only [List.cons.injEq, Prod.mk.injEq, true_and, and_true] at hparts
  obtain ⟨haddress, hresolver, hvalue, hnamed⟩ := hparts
  exact .socket (text?_inj haddress) (text?_inj hresolver)
    (port_inj (fun n => hs s n rfl) (fun n => hs' s' n rfl) hvalue hnamed)

theorem address_inj {a a' : Address} (ha : a.Proper) (ha' : a'.Proper)
    (h : addressJson a = addressJson a') : a.Alike a' := by
  rw [addressJson_eq, addressJson_eq] at h
  have hparts := Json.ofParts_inj (by rfl) (by simp) h
  simp only [List.cons.injEq, Prod.mk.injEq, true_and, and_true] at hparts
  obtain ⟨hsocket, hpipe⟩ := hparts
  -- each kind of address that is shown has a field of its own
  cases a <;> cases a' <;> simp only [reduceCtorEq, Option.some.injEq] at hsocket hpipe
  case socket.socket => exact socket_inj ha ha' hsocket
  case pipe.pipe path mode path' mode' =>
    have hparts := Json.ofParts_inj (by rfl) (by simp) hpipe
    simp only [List.cons.injEq, Prod.mk.injEq, true_and, and_true] at hparts
    obtain rfl := text?_inj hparts
    exact .pipe path mode mode'
  all_goals exact .hidden rfl rfl

theorem peer_inj {p p' : Peer} (hp : p.Proper) (hp' : p'.Proper) (h : peerJson p = peerJson p') :
    p.Alike p' := by
  rw [peerJson_eq_ofParts, peerJson_eq_ofParts] at h
  have hparts := Json.ofParts_inj (by rfl) (by simp) h
  simp only [List.cons.injEq, Prod.mk.injEq, true_and, and_true] at hparts
  obtain ⟨haddress, hservice, hlabels, hprincipal, hcertificate⟩ := hparts
  exact {
    address := rel_of_map_eq
      (fun a ha a' ha' => address_inj (hp.address a ha) (hp'.address a' ha')) haddress
    service := text?_inj hservice
    labels := texts?_inj hp.labels hp'.labels hlabels
    principal := text?_inj hprincipal
    certificate := text?_inj hcertificate }

theorem http_inj {r r' : HttpRequest} (hr : (r.headers.map (·.1)).Nodup)
    (hr' : (r'.headers.map (·.1)).Nodup) (h : httpJson r = httpJson r') : r.Alike r' := by
  rw [httpJson_eq_ofParts, httpJson_eq_ofParts] at h
  have hparts := Json.ofParts_inj (by rfl) (by simp) h
  simp only [List.cons.injEq, Prod.mk.injEq, true_and, and_true] at hparts
  obtain ⟨hid, hmethod, hheaders, hpath, hhost, hscheme, hquery, hfragment, hsize, hprotocol, hbody,
    hraw⟩ := hparts
  exact {
    id := text?_inj hid
    method := text?_inj hmethod
    headers := texts?_inj hr hr' hheaders
    path := text?_inj hpath
    host := text?_inj hhost
    scheme := text?_inj hscheme
    query := text?_inj hquery
    fragment := text?_inj hfragment
    size := int?_inj hsize
    protocol := text?_inj hprotocol
    body := text?_inj hbody
    rawBody := Text.Base64.encode_injective (String.ofList_injective (text?_inj hraw)) }

theorem request_inj {r r' : TimedRequest} (hr : ∀ h ∈ r.http, (h.headers.map (·.1)).Nodup)
    (hr' : ∀ h ∈ r'.http, (h.headers.map (·.1)).Nodup) (h : requestJson r = requestJson r') :
    r.Alike r' := by
  rw [requestJson_eq_ofParts, requestJson_eq_ofParts] at h
  have hparts := Json.ofParts_inj (by rfl) (by simp) h
  simp only [List.cons.injEq, Prod.mk.injEq, true_and, and_true] at hparts
  exact rel_of_map_eq (fun x hx y hy => http_inj (hr x hx) (hr' y hy)) hparts.2

theorem metadata_inj {m m' : Metadata} (hm : (m.filters.map (·.1)).Nodup)
    (hm' : (m'.filters.map (·.1)).Nodup) (h : metadataJson m = metadataJson m') : m.Alike m' := by
  rw [metadataJson_eq_ofParts, metadataJson_eq_ofParts] at h
  have hparts := Json.ofParts_inj (by rfl) (by simp) h
  simp only [List.cons.injEq, Prod.mk.injEq, true_and, and_true] at hparts
  split at hparts <;> split at hparts
  · next hempty hempty' =>
    rw [Metadata.Alike, List.isEmpty_iff.1 hempty, List.isEmpty_iff.1 hempty']
  · cases hparts
  · cases hparts
  · exact Fields.perm_of_ofList_eq (by rwa [Fields.names_mapValues])
      (by rwa [Fields.names_mapValues]) (Json.object.inj (Option.some_inj.1 hparts))

/-- Attributes with the same document agree in all that is shown of them. -/
theorem alike_of_attributesJson_eq {a a' : Attributes} (ha : a.Proper) (ha' : a'.Proper)
    (h : attributesJson a = attributesJson a') : a.Alike a' := by
  rw [attributesJson_eq_ofParts, attributesJson_eq_ofParts] at h
  have hparts := Json.ofParts_inj (by rfl) (by simp) h
  simp only [List.cons.injEq, Prod.mk.injEq, true_and, and_true] at hparts
  obtain ⟨hsource, hdestination, hrequest, hextensions, hmetadata, htls⟩ := hparts
  have hsession : (fun t : TlsSession => Json.ofParts [("sni", text? t.sni)]).Injective := by
    intro t t' heq
    have hsni := Json.ofParts_inj (by rfl) (by simp) heq
    simp only [List.cons.injEq, Prod.mk.injEq, true_and, and_true] at hsni
    exact congrArg TlsSession.mk (text?_inj hsni)
  exact {
    source := rel_of_map_eq (fun p hp p' hp' => peer_inj (ha.source p hp) (ha'.source p' hp'))
      hsource
    destination := rel_of_map_eq
      (fun p hp p' hp' => peer_inj (ha.destination p hp) (ha'.destination p' hp')) hdestination
    request := rel_of_map_eq
      (fun r hr r' hr' => request_inj (ha.headers r hr) (ha'.headers r' hr')) hrequest
    contextExtensions := texts?_inj ha.contextExtensions ha'.contextExtensions hextensions
    metadata := rel_of_map_eq (fun m hm m' hm' => metadata_inj (ha.filters m hm) (ha'.filters m' hm'))
      hmetadata
    tlsSession := Option.map_injective hsession htls }

/-- What is told of a client behind a pipe. -/
def pipedClient (mode : Nat) (labels headers : List (String × String)) : Attributes where
  source := some ⟨some (.pipe "/run/edge" mode), "edge", labels, "", ""⟩
  destination := none
  request := some ⟨none, some ⟨"", "GET", headers, "/a", "", "", "", "", 0, "", "", [], none⟩⟩
  contextExtensions := []
  metadata := some ⟨[], []⟩
  routeMetadata := none
  tlsSession := none

/-- A document in which neither the mode of the pipe nor the order of a map is seen. -/
theorem alike_of_attributesJson_eq_pipedClient :
    let a := pipedClient 0 [("app", "web"), ("zone", "a")] [("accept", "*"), ("x-tenant", "blue")]
    let a' := pipedClient 7 [("zone", "a"), ("app", "web")] [("x-tenant", "blue"), ("accept", "*")]
    a.Proper ∧ a'.Proper ∧ attributesJson a = attributesJson a' ∧ a.Alike a' := by
  intro a a'
  have hproper (mode : Nat) {labels headers : List (String × String)}
      (hlabels : (labels.map (·.1)).Nodup) (hheaders : (headers.map (·.1)).Nodup) :
      (pipedClient mode labels headers).Proper := by
    refine ⟨?_, by rintro _ ⟨⟩, ?_, List.nodup_nil, ?_⟩
    · rintro _ ⟨⟩
      refine ⟨?_, hlabels⟩
      rintro _ ⟨⟩ _ _ ⟨⟩
    · rintro _ ⟨⟩ _ ⟨⟩
      exact hheaders
    · rintro _ ⟨⟩
      exact List.nodup_nil
  have ha : a.Proper := hproper 0 (by decide) (by decide)
  have ha' : a'.Proper := hproper 7 (by decide) (by decide)
  have hdocument : attributesJson a = attributesJson a' := by
    have hlabels := mapField_eq_of_perm "labels" (.swap ("zone", "a") ("app", "web") []) (by decide)
    have hheaders :=
      mapField_eq_of_perm "headers" (.swap ("x-tenant", "blue") ("accept", "*") []) (by decide)
    simp only [a, a', attributesJson, pipedClient, Option.map_some, peerJson, addressJson,
      requestJson, httpJson, hlabels, hheaders]
  exact ⟨ha, ha', hdocument, alike_of_attributesJson_eq ha ha' hdocument⟩

end Input

end AuthGate
