import AuthGate.Proofs.Struct.Wire
import AuthGate.Proofs.Proto.RoundTrip
import AuthGate.Request.Wire
import Mathlib.Data.Option.Basic

set_option autoImplicit false

/-! # Check requests on the wire

Which attributes a request can carry, and what is read back from its bytes: the same attributes, the
names in their structs sorted (`CheckRequest.decode?_encode`). -/

namespace AuthGate

open Proto

/-! ## Maps -/

@[simp] theorem textEntries_eq_part (n : Nat) (entries : List (String × String)) :
    textEntries n entries = Message.part n
      (if (entries.map fun e => (Key.text e.1, Value.text e.2)).isEmpty then none
      else some (.map (entries.map fun e => (Key.text e.1, Value.text e.2)))) := by
  rw [textEntries, List.isEmpty_map]
  split <;> rfl

@[simp] theorem messageEntries_eq_part (n : Nat) (entries : List (String × Message)) :
    messageEntries n entries = Message.part n
      (if (entries.map fun e => (Key.text e.1, Value.message e.2)).isEmpty then none
      else some (.map (entries.map fun e => (Key.text e.1, Value.message e.2)))) := by
  rw [messageEntries, List.isEmpty_map]
  split <;> rfl

section Maps

variable {s : Schema} {levels n : Nat} {t : MessageType} {name type value : String}

theorem among_textEntries {entries : List (String × String)}
    (hf : t.field? n = some (.mapOf n name type))
    (htype : s.message? type = some (.entry type .string .string))
    (h : (entries.map (·.1)).Nodup) :
    (textEntries n entries).Among s (Message.Conforms s (levels + 1)) t [n] := by
  rw [textEntries_eq_part]
  refine Message.among_entries hf htype (Message.nodup_textKeys h) fun e he => ?_
  obtain ⟨⟨key, text⟩, -, rfl⟩ := List.mem_map.1 he
  refine ⟨trivial, fun hempty => ?_, Message.conforms_entryMessage htype trivial fun _ => trivial⟩
  rw [show text = "" by simpa [Value.isDefault] using hempty]
  rfl

theorem among_messageEntries {entries : List (String × Message)}
    (hf : t.field? n = some (.mapOf n name type))
    (htype : s.message? type = some (.entry type .string (.message value)))
    (h : (entries.map (·.1)).Nodup)
    (hentries : ∀ e ∈ entries, Message.Conforms s levels value e.2) :
    (messageEntries n entries).Among s (Message.Conforms s (levels + 1)) t [n] := by
  rw [messageEntries_eq_part]
  refine Message.among_entries hf htype (Message.nodup_textKeys h) fun e he => ?_
  obtain ⟨⟨key, m⟩, hm, rfl⟩ := List.mem_map.1 he
  refine ⟨trivial, fun hempty => ?_,
    Message.conforms_entryMessage htype trivial fun _ => hentries _ hm⟩
  rw [show m = [] by simpa [Value.isDefault] using hempty]
  rfl

variable {m : Message}

theorem textsOf_of_get? {entries : List (String × String)}
    (h : Message.get? n m = Message.get? n (textEntries n entries)) : textsOf n m = entries := by
  rw [textsOf, Message.byName, Message.entries, h, textEntries_eq_part, Message.get?_part_self]
  cases entries with
  | nil => rfl
  | cons e rest =>
    simp only [List.isEmpty_map, List.isEmpty_cons, Bool.false_eq_true, if_false,
      List.filterMap_filterMap, List.filterMap_map]
    exact List.filterMap_some

theorem messagesOf_of_get? {entries : List (String × Message)}
    (h : Message.get? n m = Message.get? n (messageEntries n entries)) :
    messagesOf n m = entries := by
  rw [messagesOf, Message.byName, Message.entries, h, messageEntries_eq_part,
    Message.get?_part_self]
  cases entries with
  | nil => rfl
  | cons e rest =>
    simp only [List.isEmpty_map, List.isEmpty_cons, Bool.false_eq_true, if_false,
      List.filterMap_filterMap, List.filterMap_map]
    exact List.filterMap_some

end Maps

/-! ## Attributes that fit -/

/-- The numbers are of the widths of their fields. -/
structure SocketAddress.Fits (s : SocketAddress) : Prop where
  protocol : IsSigned 32 s.protocol
  port : ∀ n : Nat, s.port = some (.number n) → IsUnsigned 32 n

def Address.Fits : Address → Prop
  | .socket s => s.Fits
  | .pipe _ mode => IsUnsigned 32 mode
  | _ => True

/-- A label occurs once. -/
structure Peer.Fits (p : Peer) : Prop where
  address : ∀ a ∈ p.address, a.Fits
  labels : (p.labels.map (·.1)).Nodup

structure Timestamp.Fits (t : Timestamp) : Prop where
  seconds : IsSigned 64 t.seconds
  nanos : IsSigned 32 t.nanos

/-- A header occurs once. -/
structure HttpRequest.Fits (h : HttpRequest) : Prop where
  headers : (h.headers.map (·.1)).Nodup
  size : IsSigned 64 h.size

structure TimedRequest.Fits (r : TimedRequest) : Prop where
  time : ∀ t ∈ r.time, t.Fits
  http : ∀ h ∈ r.http, h.Fits

/-- A filter occurs once, and its struct is not nested too deep for the reader: it stands three
    levels of messages below the request. -/
structure Metadata.Fits (m : Metadata) : Prop where
  filters : (m.filters.map (·.1)).Nodup
  structs : ∀ e ∈ m.filters, e.2.Fits (maxDepth - 3)
  typed : (m.typed.map (·.1)).Nodup

/-- Attributes that a request can carry: numbers have the widths of their fields, names occur once in
    a map, and no struct is nested too deep. -/
structure Attributes.Fits (a : Attributes) : Prop where
  source : ∀ p ∈ a.source, p.Fits
  destination : ∀ p ∈ a.destination, p.Fits
  request : ∀ r ∈ a.request, r.Fits
  contextExtensions : (a.contextExtensions.map (·.1)).Nodup
  metadata : ∀ m ∈ a.metadata, m.Fits
  routeMetadata : ∀ m ∈ a.routeMetadata, m.Fits

/-! ## Attributes are read back from their messages -/

theorem SocketAddress.ofMessage_toMessage (s : SocketAddress) : ofMessage s.toMessage = s := by
  have hother {k : Nat} (h3 : 3 ≠ k) (h4 : 4 ≠ k) : Message.get? k s.toMessage =
      Message.get? k (Message.ofInt 1 s.protocol ++ Message.ofText 2 s.address ++
        Message.ofText 5 s.resolverName ++ Message.ofBool 6 s.ipv4Compat ++
        Message.ofText 7 s.networkNamespace) := by
    rcases hport : s.port with _ | (n | name) <;> simp [toMessage, hport, Message.get?, h3, h4]
  have hprotocol : s.toMessage.int 1 = s.protocol :=
    Message.int_of_get? (by rw [hother (by decide) (by decide)]; simp)
  have haddress : s.toMessage.text 2 = s.address :=
    Message.text_of_get? (by rw [hother (by decide) (by decide)]; simp)
  have hresolver : s.toMessage.text 5 = s.resolverName :=
    Message.text_of_get? (by rw [hother (by decide) (by decide)]; simp)
  have hcompat : s.toMessage.bool 6 = s.ipv4Compat :=
    Message.bool_of_get? (by rw [hother (by decide) (by decide)]; simp)
  have hnamespace : s.toMessage.text 7 = s.networkNamespace :=
    Message.text_of_get? (by rw [hother (by decide) (by decide)]; simp)
  have hport : (ofMessage s.toMessage).port = s.port := by
    rcases hport : s.port with _ | (n | name) <;>
      simp [ofMessage, toMessage, hport, Message.int?, Message.one?, Message.get?]
  show SocketAddress.mk _ _ (ofMessage s.toMessage).port _ _ _ = s
  rw [hprotocol, haddress, hport, hresolver, hcompat, hnamespace]

/-- The listener of an internal address, if a name was set. -/
def listenerOf (m : Message) : Option String :=
  match m.one? 1 with
  | some (.text name) => some name
  | _ => none

theorem Address.ofMessage_toMessage (a : Address) : ofMessage a.toMessage = a := by
  cases a with
  | unset => rfl
  | socket s => exact congrArg Address.socket s.ofMessage_toMessage
  | pipe path mode =>
    let m := Message.ofText 1 path ++ Message.ofInt 2 mode
    have hpath : m.text 1 = path := Message.text_of_get? (by simp [m])
    have hmode : m.int 2 = mode := Message.int_of_get? (by simp [m])
    show Address.pipe (m.text 1) (m.int 2).toNat = _
    rw [hpath, hmode, Int.toNat_natCast]
  | internal listener endpoint =>
    cases listener with
    | none =>
      let m := Message.ofText 2 endpoint
      have hlistener : listenerOf m = none := by simp [m, listenerOf, Message.one?]
      have hendpoint : m.text 2 = endpoint := Message.text_of_get? rfl
      show Address.internal (listenerOf m) (m.text 2) = _
      rw [hlistener, hendpoint]
    | some name =>
      let m : Message := [(1, .one (.text name))] ++ Message.ofText 2 endpoint
      have hlistener : listenerOf m = some name := rfl
      have hendpoint : m.text 2 = endpoint := Message.text_of_get? (by simp [m, Message.get?])
      show Address.internal (listenerOf m) (m.text 2) = _
      rw [hlistener, hendpoint]

theorem Peer.ofMessage_toMessage (p : Peer) : ofMessage p.toMessage = p := by
  have haddress : p.toMessage.nested? 1 = p.address.map (·.toMessage) :=
    Message.nested?_of_get? (by simp [toMessage])
  have hservice : p.toMessage.text 2 = p.service := Message.text_of_get? (by simp [toMessage])
  have hlabels : textsOf 3 p.toMessage = p.labels := textsOf_of_get? (by simp [toMessage])
  have hprincipal : p.toMessage.text 4 = p.principal := Message.text_of_get? (by simp [toMessage])
  have hcertificate : p.toMessage.text 5 = p.certificate :=
    Message.text_of_get? (by simp [toMessage])
  rw [ofMessage, haddress, hservice, hlabels, hprincipal, hcertificate, Option.map_map]
  simp only [Function.comp_def, Address.ofMessage_toMessage, Option.map_id']

theorem Timestamp.ofMessage_toMessage (t : Timestamp) : ofMessage t.toMessage = t := by
  have hseconds : t.toMessage.int 1 = t.seconds := Message.int_of_get? (by simp [toMessage])
  have hnanos : t.toMessage.int 2 = t.nanos := Message.int_of_get? (by simp [toMessage])
  rw [ofMessage, hseconds, hnanos]

theorem HeaderValue.ofMessage_toMessage (h : HeaderValue) : ofMessage h.toMessage = h := by
  have hkey : h.toMessage.text 1 = h.key := Message.text_of_get? (by simp [toMessage])
  have hvalue : h.toMessage.text 2 = h.value := Message.text_of_get? (by simp [toMessage])
  have hraw : h.toMessage.bytes 3 = h.raw := Message.bytes_of_get? (by simp [toMessage])
  rw [ofMessage, hkey, hvalue, hraw]

theorem HttpRequest.ofMessage_toMessage (h : HttpRequest) : ofMessage h.toMessage = h := by
  have hid : h.toMessage.text 1 = h.id := Message.text_of_get? (by simp [toMessage])
  have hmethod : h.toMessage.text 2 = h.method := Message.text_of_get? (by simp [toMessage])
  have hheaders : textsOf 3 h.toMessage = h.headers := textsOf_of_get? (by simp [toMessage])
  have hpath : h.toMessage.text 4 = h.path := Message.text_of_get? (by simp [toMessage])
  have hhost : h.toMessage.text 5 = h.host := Message.text_of_get? (by simp [toMessage])
  have hscheme : h.toMessage.text 6 = h.scheme := Message.text_of_get? (by simp [toMessage])
  have hquery : h.toMessage.text 7 = h.query := Message.text_of_get? (by simp [toMessage])
  have hfragment : h.toMessage.text 8 = h.fragment := Message.text_of_get? (by simp [toMessage])
  have hsize : h.toMessage.int 9 = h.size := Message.int_of_get? (by simp [toMessage])
  have hprotocol : h.toMessage.text 10 = h.protocol := Message.text_of_get? (by simp [toMessage])
  have hbody : h.toMessage.text 11 = h.body := Message.text_of_get? (by simp [toMessage])
  have hrawBody : h.toMessage.bytes 12 = h.rawBody := Message.bytes_of_get? (by simp [toMessage])
  have hheaderMap : h.toMessage.nested? 13 =
      h.headerMap.map fun hs => Message.ofMany 1 (hs.map (·.toMessage)) :=
    Message.nested?_of_get? (by simp [toMessage])
  have hvalues (hs : List HeaderValue) :
      (Message.ofMany 1 (hs.map (·.toMessage))).messages 1 = hs.map (·.toMessage) :=
    Message.messages_of_get? rfl
  rw [ofMessage, hid, hmethod, hheaders, hpath, hhost, hscheme, hquery, hfragment, hsize, hprotocol,
    hbody, hrawBody, hheaderMap, Option.map_map]
  simp only [Function.comp_def, hvalues, List.map_map, HeaderValue.ofMessage_toMessage,
    List.map_id', Option.map_id']

theorem TimedRequest.ofMessage_toMessage (r : TimedRequest) : ofMessage r.toMessage = r := by
  have htime : r.toMessage.nested? 1 = r.time.map (·.toMessage) :=
    Message.nested?_of_get? (by simp [toMessage])
  have hhttp : r.toMessage.nested? 2 = r.http.map (·.toMessage) :=
    Message.nested?_of_get? (by simp [toMessage])
  rw [ofMessage, htime, hhttp, Option.map_map, Option.map_map]
  simp only [Function.comp_def, Timestamp.ofMessage_toMessage, HttpRequest.ofMessage_toMessage,
    Option.map_id']

/-- The metadata with the names in its structs sorted. -/
def Metadata.sorted (m : Metadata) : Metadata :=
  ⟨m.filters.map fun e => (e.1, Struct.sorted e.2), m.typed⟩

theorem Metadata.ofMessage_toMessage (m : Metadata) : ofMessage m.toMessage = m.sorted := by
  have hfilters : messagesOf 1 m.toMessage = m.filters.map fun e => (e.1, Struct.toMessage e.2) :=
    messagesOf_of_get? (by simp [toMessage])
  have htyped : messagesOf 2 m.toMessage = m.typed.map fun e => (e.1, e.2.toMessage) :=
    messagesOf_of_get? (by simp [toMessage])
  rw [ofMessage, sorted, hfilters, htyped, List.map_map, List.map_map]
  simp only [Function.comp_def, Struct.ofMessage_toMessage, AnyValue.ofMessage_toMessage,
    List.map_id']

/-- The attributes with the names in their structs sorted. -/
def Attributes.sorted (a : Attributes) : Attributes :=
  { a with metadata := a.metadata.map (·.sorted), routeMetadata := a.routeMetadata.map (·.sorted) }

theorem Attributes.ofMessage_toMessage (a : Attributes) : ofMessage a.toMessage = a.sorted := by
  have hsource : a.toMessage.nested? 1 = a.source.map (·.toMessage) :=
    Message.nested?_of_get? (by simp [toMessage])
  have hdestination : a.toMessage.nested? 2 = a.destination.map (·.toMessage) :=
    Message.nested?_of_get? (by simp [toMessage])
  have hrequest : a.toMessage.nested? 4 = a.request.map (·.toMessage) :=
    Message.nested?_of_get? (by simp [toMessage])
  have hextensions : textsOf 10 a.toMessage = a.contextExtensions :=
    textsOf_of_get? (by simp [toMessage])
  have hmetadata : a.toMessage.nested? 11 = a.metadata.map (·.toMessage) :=
    Message.nested?_of_get? (by simp [toMessage])
  have hsession : a.toMessage.nested? 12 = a.tlsSession.map fun t => Message.ofText 1 t.sni :=
    Message.nested?_of_get? (by simp [toMessage])
  have hroute : a.toMessage.nested? 13 = a.routeMetadata.map (·.toMessage) :=
    Message.nested?_of_get? (by simp [toMessage])
  have hsni (t : TlsSession) : (Message.ofText 1 t.sni).text 1 = t.sni := Message.text_of_get? rfl
  rw [ofMessage, sorted, hsource, hdestination, hrequest, hextensions, hmetadata, hsession, hroute]
  simp only [Option.map_map, Function.comp_def, Peer.ofMessage_toMessage,
    TimedRequest.ofMessage_toMessage, Metadata.ofMessage_toMessage, hsni, Option.map_id']

theorem CheckRequest.ofMessage_toMessage (r : CheckRequest) :
    ofMessage r.toMessage = ⟨r.attributes.map (·.sorted)⟩ := by
  have hattributes : r.toMessage.nested? 1 = r.attributes.map (·.toMessage) :=
    Message.nested?_of_get? rfl
  rw [ofMessage, hattributes, Option.map_map]
  simp only [Function.comp_def, Attributes.ofMessage_toMessage]

/-! ## Messages of attributes that fit -/

namespace CheckRequest

theorem known_structs : Struct.Known schema := by
  intro t ht
  simp only [Struct.types, List.mem_cons, List.not_mem_nil, or_false] at ht
  rcases ht with rfl | rfl | rfl | rfl <;> rfl

section Conforms

variable (levels : Nat)

theorem conforms_socketAddress {s : SocketAddress} (h : s.Fits) :
    Message.Conforms schema (levels + 1) "SocketAddress" s.toMessage := by
  obtain ⟨protocol, address, port, resolver, compat, namespaceFile⟩ := s
  have hprotocol : Kind.Holds (.enumeration "Protocol") (.int protocol) := h.protocol
  -- of the two kinds of port at most one is set, so the numbers are those of one kind
  have hfits {t : MessageType} (ht : schema.message? "SocketAddress" = some t) {n : Nat}
      {part : Message} (hn : n = 3 ∨ n = 4)
      (hpart : part.Among schema (Message.Conforms schema levels) t [n]) :
      Message.Fits schema (Message.Conforms schema levels) t
        (Message.ofInt 1 protocol ++ Message.ofText 2 address ++ part ++
          Message.ofText 5 resolver ++ Message.ofBool 6 compat ++
          Message.ofText 7 namespaceFile) := by
    obtain rfl := Option.some.inj ht
    rcases hn with rfl | rfl
    all_goals
      exact Message.Among.toFits (.append (.append (.append (.append (.append
        (Message.among_ofInt rfl hprotocol) (Message.among_ofText rfl _)) hpart)
        (Message.among_ofText rfl _)) (Message.among_ofBool rfl _)) (Message.among_ofText rfl _))
        (by decide) (by decide)
  refine ⟨_, rfl, ?_⟩
  rcases port with _ | (n | name)
  · exact hfits rfl (.inl rfl) (Message.among_part (o := none) rfl (by simp))
  · exact hfits rfl (.inl rfl) (Message.among_field rfl ⟨rfl, h.port n rfl, .inl rfl⟩)
  · exact hfits rfl (.inr rfl) (Message.among_field rfl ⟨rfl, trivial, .inl rfl⟩)

theorem conforms_address {a : Address} (h : a.Fits) :
    Message.Conforms schema (levels + 2) "Address" a.toMessage := by
  refine ⟨_, rfl, ?_⟩
  cases a with
  | unset => exact ⟨List.Pairwise.nil, by simp [Address.toMessage]⟩
  | socket s => exact Message.fits_member rfl (by decide) (conforms_socketAddress levels h)
  | pipe path mode =>
    have hmode : Kind.Holds .uint32 (.int mode) := h
    have hpipe : Message.Conforms schema (levels + 1) "Pipe"
        (Message.ofText 1 path ++ Message.ofInt 2 mode) :=
      ⟨_, rfl, Message.Among.toFits (.append (Message.among_ofText rfl _)
        (Message.among_ofInt rfl hmode)) (by decide) (by decide)⟩
    exact Message.fits_member rfl (by decide) hpipe
  | internal listener endpoint =>
    cases listener with
    | none =>
      have hinternal : Message.Conforms schema (levels + 1) "InternalAddress"
          (Message.ofText 2 endpoint) :=
        ⟨_, rfl, Message.Among.toFits (Message.among_ofText rfl _) (by decide) (by decide)⟩
      exact Message.fits_member rfl (by decide) hinternal
    | some name =>
      have hinternal : Message.Conforms schema (levels + 1) "InternalAddress"
          ([(1, .one (.text name))] ++ Message.ofText 2 endpoint) :=
        ⟨_, rfl, Message.Among.toFits (.append
          (Message.among_field rfl ⟨rfl, trivial, .inl rfl⟩) (Message.among_ofText rfl _))
          (by decide) (by decide)⟩
      exact Message.fits_member rfl (by decide) hinternal

theorem conforms_peer {p : Peer} (h : p.Fits) :
    Message.Conforms schema (levels + 3) "Peer" p.toMessage := by
  have haddress : ∀ m ∈ p.address.map (·.toMessage),
      Message.Conforms schema (levels + 2) "Address" m := by
    refine Option.forall_mem_map.2 fun a ha => ?_
    exact conforms_address levels (h.address a ha)
  exact ⟨_, rfl, Message.Among.toFits (.append (.append (.append (.append
    (Message.among_ofNested rfl haddress) (Message.among_ofText rfl _))
    (among_textEntries rfl rfl h.labels)) (Message.among_ofText rfl _))
    (Message.among_ofText rfl _)) (by decide) (by decide)⟩

theorem conforms_headerMap (hs : List HeaderValue) :
    Message.Conforms schema (levels + 2) "HeaderMap"
      (Message.ofMany 1 (hs.map (·.toMessage))) := by
  have hvalues : ∀ m ∈ hs.map (·.toMessage),
      Message.Conforms schema (levels + 1) "HeaderValue" m := by
    refine List.forall_mem_map.2 fun h _ => ?_
    exact ⟨_, rfl, Message.Among.toFits (.append (.append (Message.among_ofText rfl _)
      (Message.among_ofText rfl _)) (Message.among_ofBytes rfl _)) (by decide) (by decide)⟩
  exact ⟨_, rfl, Message.Among.toFits (Message.among_ofMany rfl hvalues) (by decide) (by decide)⟩

theorem conforms_httpRequest {h : HttpRequest} (hfits : h.Fits) :
    Message.Conforms schema (levels + 3) "HttpRequest" h.toMessage := by
  have hsize : Kind.Holds .int64 (.int h.size) := hfits.size
  have hheaderMap : ∀ m ∈ h.headerMap.map fun hs => Message.ofMany 1 (hs.map (·.toMessage)),
      Message.Conforms schema (levels + 2) "HeaderMap" m := by
    refine Option.forall_mem_map.2 fun hs _ => ?_
    exact conforms_headerMap levels hs
  exact ⟨_, rfl, Message.Among.toFits (.append (.append (.append (.append (.append (.append
    (.append (.append (.append (.append (.append (.append (Message.among_ofText rfl _)
    (Message.among_ofText rfl _)) (among_textEntries rfl rfl hfits.headers))
    (Message.among_ofText rfl _)) (Message.among_ofText rfl _)) (Message.among_ofText rfl _))
    (Message.among_ofText rfl _)) (Message.among_ofText rfl _)) (Message.among_ofInt rfl hsize))
    (Message.among_ofText rfl _)) (Message.among_ofText rfl _)) (Message.among_ofBytes rfl _))
    (Message.among_ofNested rfl hheaderMap)) (by decide) (by decide)⟩

theorem conforms_timedRequest {r : TimedRequest} (h : r.Fits) :
    Message.Conforms schema (levels + 4) "Request" r.toMessage := by
  have htime : ∀ m ∈ r.time.map (·.toMessage),
      Message.Conforms schema (levels + 3) "Timestamp" m := by
    refine Option.forall_mem_map.2 fun t ht => ?_
    have hseconds : Kind.Holds .int64 (.int t.seconds) := (h.time t ht).seconds
    have hnanos : Kind.Holds .int32 (.int t.nanos) := (h.time t ht).nanos
    exact ⟨_, rfl, Message.Among.toFits (.append (Message.among_ofInt rfl hseconds)
      (Message.among_ofInt rfl hnanos)) (by decide) (by decide)⟩
  have hhttp : ∀ m ∈ r.http.map (·.toMessage),
      Message.Conforms schema (levels + 3) "HttpRequest" m := by
    refine Option.forall_mem_map.2 fun request hrequest => ?_
    exact conforms_httpRequest levels (h.http request hrequest)
  exact ⟨_, rfl, Message.Among.toFits (.append (Message.among_ofNested rfl htime)
    (Message.among_ofNested rfl hhttp)) (by decide) (by decide)⟩

end Conforms

/-- Metadata is two levels of messages below the request, and its structs two further levels. -/
theorem conforms_metadata {m : Metadata} (h : m.Fits) :
    Message.Conforms schema (maxDepth - 1) "Metadata" m.toMessage := by
  have hfilters : ∀ e ∈ m.filters.map fun e => (e.1, Struct.toMessage e.2),
      Message.Conforms schema (maxDepth - 3) "Struct" e.2 := by
    refine List.forall_mem_map.2 fun filter hfilter => ?_
    exact Struct.conforms_toMessage known_structs (h.structs filter hfilter)
  have htyped : ∀ e ∈ m.typed.map fun e => (e.1, e.2.toMessage),
      Message.Conforms schema (maxDepth - 3) "Any" e.2 := by
    refine List.forall_mem_map.2 fun any _ => ?_
    exact ⟨_, rfl, any.2.fits_toMessage _ _⟩
  have hfilterNames : ((m.filters.map fun e => (e.1, Struct.toMessage e.2)).map (·.1)).Nodup := by
    rw [List.map_map]
    exact h.filters
  have htypedNames : ((m.typed.map fun e => (e.1, e.2.toMessage)).map (·.1)).Nodup := by
    rw [List.map_map]
    exact h.typed
  exact ⟨_, rfl, Message.Among.toFits (.append
    (among_messageEntries rfl rfl hfilterNames hfilters)
    (among_messageEntries rfl rfl htypedNames htyped)) (by decide) (by decide)⟩

theorem conforms_attributes {a : Attributes} (h : a.Fits) :
    Message.Conforms schema maxDepth "AttributeContext" a.toMessage := by
  have hpeer {peer : Option Peer} (hpeer : ∀ p ∈ peer, p.Fits) : ∀ m ∈ peer.map (·.toMessage),
      Message.Conforms schema (maxDepth - 1) "Peer" m := by
    refine Option.forall_mem_map.2 fun p hp => ?_
    exact conforms_peer 96 (hpeer p hp)
  have hrequest : ∀ m ∈ a.request.map (·.toMessage),
      Message.Conforms schema (maxDepth - 1) "Request" m := by
    refine Option.forall_mem_map.2 fun r hr => ?_
    exact conforms_timedRequest 95 (h.request r hr)
  have hmetadata {data : Option Metadata} (hdata : ∀ m ∈ data, m.Fits) :
      ∀ m ∈ data.map (·.toMessage), Message.Conforms schema (maxDepth - 1) "Metadata" m := by
    refine Option.forall_mem_map.2 fun d hd => ?_
    exact conforms_metadata (hdata d hd)
  have hsession : ∀ m ∈ a.tlsSession.map fun t => Message.ofText 1 t.sni,
      Message.Conforms schema (maxDepth - 1) "TlsSession" m := by
    refine Option.forall_mem_map.2 fun t _ => ?_
    exact ⟨_, rfl, Message.Among.toFits (Message.among_ofText rfl _) (by decide) (by decide)⟩
  exact ⟨_, rfl, Message.Among.toFits (.append (.append (.append (.append (.append (.append
    (Message.among_ofNested rfl (hpeer h.source)) (Message.among_ofNested rfl (hpeer h.destination)))
    (Message.among_ofNested rfl hrequest)) (among_textEntries rfl rfl h.contextExtensions))
    (Message.among_ofNested rfl (hmetadata h.metadata))) (Message.among_ofNested rfl hsession))
    (Message.among_ofNested rfl (hmetadata h.routeMetadata))) (by decide) (by decide)⟩

/-- A request is read back from its bytes, the names in its structs sorted. -/
theorem decode?_encode {a : Attributes} (h : a.Fits)
    (hsize : (CheckRequest.encode ⟨some a⟩).length < 2 ^ 64) :
    decode? (CheckRequest.encode ⟨some a⟩) = some ⟨some a.sorted⟩ := by
  have hattributes : ∀ m ∈ some a.toMessage,
      Message.Conforms schema maxDepth "AttributeContext" m := by
    rintro m ⟨⟩
    exact conforms_attributes h
  have hfits : Message.Fits schema (Message.Conforms schema maxDepth)
      ⟨"CheckRequest", [.nested 1 "attributes" "AttributeContext"]⟩
      (CheckRequest.toMessage ⟨some a⟩) :=
    Message.Among.toFits (Message.among_ofNested rfl hattributes) (by decide) (by decide)
  rw [decode?, encode, Proto.decode?_encode rfl hfits hsize, Option.map_some, ofMessage_toMessage,
    Option.map_some]

end CheckRequest

end AuthGate
