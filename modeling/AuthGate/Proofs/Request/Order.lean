import AuthGate.Proofs.Request.Wire
import AuthGate.Proofs.Struct.Order

set_option autoImplicit false

/-! # The order of the entries in a request

The entries of a map come in no particular order: those of labels, headers, extensions and metadata,
and the names of the structs in the metadata. Attributes that differ in it can be carried alike
(`Attributes.Reorders.fits`); in those that can be carried a name occurs once
(`Attributes.Fits.distinct`). -/

namespace AuthGate

/-- The same peer, with its labels in another order. -/
inductive Peer.Reorders : Peer → Peer → Prop
  | intro (p : Peer) {labels : List (String × String)} (hperm : p.labels.Perm labels) :
    Peer.Reorders p { p with labels := labels }

/-- The same HTTP request, with its headers in another order. -/
inductive HttpRequest.Reorders : HttpRequest → HttpRequest → Prop
  | intro (h : HttpRequest) {headers : List (String × String)} (hperm : h.headers.Perm headers) :
    HttpRequest.Reorders h { h with headers := headers }

structure TimedRequest.Reorders (r r' : TimedRequest) : Prop where
  time : r.time = r'.time
  http : Option.Rel HttpRequest.Reorders r.http r'.http

/-- The same filters one by one, each with the names in its struct in another order. -/
inductive Metadata.FiltersReorder : List (String × Struct) → List (String × Struct) → Prop
  | nil : FiltersReorder [] []
  | cons {name : String} {s s' : Struct} {rest rest' : List (String × Struct)}
    (hs : s.Reorders s') (hrest : FiltersReorder rest rest') :
    FiltersReorder ((name, s) :: rest) ((name, s') :: rest')

/-- The same metadata, with its filters and the names in their structs in another order. -/
structure Metadata.Reorders (m m' : Metadata) : Prop where
  filters : ∃ filters, Metadata.FiltersReorder m.filters filters ∧ filters.Perm m'.filters
  typed : m.typed.Perm m'.typed

/-- The same attributes, with the entries of their maps in another order, at every depth. -/
structure Attributes.Reorders (a b : Attributes) : Prop where
  source : Option.Rel Peer.Reorders a.source b.source
  destination : Option.Rel Peer.Reorders a.destination b.destination
  request : Option.Rel TimedRequest.Reorders a.request b.request
  contextExtensions : a.contextExtensions.Perm b.contextExtensions
  metadata : Option.Rel Metadata.Reorders a.metadata b.metadata
  routeMetadata : Option.Rel Metadata.Reorders a.routeMetadata b.routeMetadata
  tlsSession : a.tlsSession = b.tlsSession

/-! ## What fits -/

theorem Metadata.FiltersReorder.names_eq {filters filters' : List (String × Struct)}
    (h : FiltersReorder filters filters') : filters'.map (·.1) = filters.map (·.1) := by
  induction h with
  | nil => rfl
  | cons _ _ ih => rw [List.map_cons, List.map_cons, ih]

theorem Metadata.FiltersReorder.fits {filters filters' : List (String × Struct)}
    (h : FiltersReorder filters filters') {levels : Nat}
    (hfits : ∀ e ∈ filters, e.2.Fits levels) : ∀ e ∈ filters', e.2.Fits levels := by
  induction h with
  | nil => exact hfits
  | cons hs _ ih =>
    obtain ⟨hfirst, hrest⟩ := List.forall_mem_cons.1 hfits
    exact List.forall_mem_cons.2 ⟨hs.fits hfirst, ih hrest⟩

/-- What passes from one thing to another passes from what may be missing to what may be missing. -/
theorem forall_mem_of_rel {α β : Type} {r : α → β → Prop} {p : α → Prop} {q : β → Prop}
    {o : Option α} {o' : Option β} (h : Option.Rel r o o') (hr : ∀ x y, r x y → p x → q y)
    (ho : ∀ x ∈ o, p x) : ∀ y ∈ o', q y := by
  cases h with
  | none => exact fun y hy => absurd hy (Option.not_mem_none y)
  | some hxy =>
    rintro y ⟨⟩
    exact hr _ _ hxy (ho _ rfl)

theorem Peer.Reorders.fits (p p' : Peer) (h : p.Reorders p') (hp : p.Fits) : p'.Fits := by
  cases h with
  | intro hperm => exact ⟨hp.address, (hperm.map (·.1)).nodup_iff.1 hp.labels⟩

theorem HttpRequest.Reorders.fits (h h' : HttpRequest) (hh : h.Reorders h') (hfits : h.Fits) :
    h'.Fits := by
  cases hh with
  | intro hperm => exact ⟨(hperm.map (·.1)).nodup_iff.1 hfits.headers, hfits.size⟩

theorem TimedRequest.Reorders.fits (r r' : TimedRequest) (h : r.Reorders r') (hr : r.Fits) :
    r'.Fits :=
  ⟨h.time ▸ hr.time, forall_mem_of_rel h.http HttpRequest.Reorders.fits hr.http⟩

theorem Metadata.Reorders.fits (m m' : Metadata) (h : m.Reorders m') (hm : m.Fits) : m'.Fits := by
  obtain ⟨filters, hfilters, hperm⟩ := h.filters
  have hnames := hm.filters
  rw [← hfilters.names_eq] at hnames
  refine ⟨(hperm.map (·.1)).nodup_iff.1 hnames, fun e he => ?_,
    (h.typed.map (·.1)).nodup_iff.1 hm.typed⟩
  exact hfilters.fits hm.structs e (hperm.mem_iff.2 he)

/-- Attributes in another order fit if they do in one. -/
theorem Attributes.Reorders.fits {a b : Attributes} (h : a.Reorders b) (ha : a.Fits) : b.Fits where
  source := forall_mem_of_rel h.source Peer.Reorders.fits ha.source
  destination := forall_mem_of_rel h.destination Peer.Reorders.fits ha.destination
  request := forall_mem_of_rel h.request TimedRequest.Reorders.fits ha.request
  contextExtensions := (h.contextExtensions.map (·.1)).nodup_iff.1 ha.contextExtensions
  metadata := forall_mem_of_rel h.metadata Metadata.Reorders.fits ha.metadata
  routeMetadata := forall_mem_of_rel h.routeMetadata Metadata.Reorders.fits ha.routeMetadata

/-! ## Names that occur once -/

/-- A name occurs once in each of the maps of the attributes, at every depth; those of the route's
    metadata are free. -/
structure Attributes.Distinct (a : Attributes) : Prop where
  source : ∀ p ∈ a.source, (p.labels.map (·.1)).Nodup
  destination : ∀ p ∈ a.destination, (p.labels.map (·.1)).Nodup
  headers : ∀ r ∈ a.request, ∀ h ∈ r.http, (h.headers.map (·.1)).Nodup
  contextExtensions : (a.contextExtensions.map (·.1)).Nodup
  filters : ∀ m ∈ a.metadata, (m.filters.map (·.1)).Nodup
  structs : ∀ m ∈ a.metadata, ∀ e ∈ m.filters, e.2.Distinct

theorem Attributes.Fits.distinct {a : Attributes} (h : a.Fits) : a.Distinct where
  source p hp := (h.source p hp).labels
  destination p hp := (h.destination p hp).labels
  headers r hr http hhttp := ((h.request r hr).http http hhttp).headers
  contextExtensions := h.contextExtensions
  filters m hm := (h.metadata m hm).filters
  structs m hm e he := ((h.metadata m hm).structs e he).distinct

/-! ## Sorting is reordering -/

theorem rel_refl {α : Type} {r : α → α → Prop} (hr : ∀ x, r x x) (o : Option α) :
    Option.Rel r o o := by
  cases o with
  | none => exact .none
  | some x => exact .some (hr x)

theorem Metadata.filtersReorder_sorted {filters : List (String × Struct)} {levels : Nat}
    (h : ∀ e ∈ filters, e.2.Fits levels) :
    FiltersReorder filters (filters.map fun e => (e.1, Struct.sorted e.2)) := by
  induction filters with
  | nil => exact .nil
  | cons e rest ih =>
    obtain ⟨hfirst, hrest⟩ := List.forall_mem_cons.1 h
    exact .cons (Struct.reorders_sorted hfirst) (ih hrest)

theorem Metadata.reorders_sorted {data : Option Metadata} (h : ∀ m ∈ data, m.Fits) :
    Option.Rel Metadata.Reorders data (data.map (·.sorted)) := by
  cases data with
  | none => exact .none
  | some m =>
    exact .some ⟨⟨_, filtersReorder_sorted (h m rfl).structs, .refl _⟩, .refl _⟩

theorem Attributes.reorders_sorted {a : Attributes} (h : a.Fits) : a.Reorders a.sorted where
  source := rel_refl (fun p => .intro p (.refl _)) _
  destination := rel_refl (fun p => .intro p (.refl _)) _
  request := rel_refl (fun _ => ⟨rfl, rel_refl (fun request => .intro request (.refl _)) _⟩) _
  contextExtensions := .refl _
  metadata := Metadata.reorders_sorted h.metadata
  routeMetadata := Metadata.reorders_sorted h.routeMetadata
  tlsSession := rfl

end AuthGate
