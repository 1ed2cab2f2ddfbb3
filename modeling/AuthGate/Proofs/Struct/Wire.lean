import AuthGate.Proofs.Proto.Parts
import AuthGate.Struct.Any
import AuthGate.Struct.Wire

set_option autoImplicit false

/-! # Structs and values of any type on the wire

Which structs a message can carry, and what is read back from it: the struct with its names sorted,
at every depth (`Struct.ofMessage_toMessage`). -/

namespace AuthGate

open Proto

namespace AnyValue

theorem fits_toMessage (s : Schema) (Nested : String → Message → Prop) (a : AnyValue) :
    a.toMessage.Fits s Nested messageType :=
  ((Message.among_ofText rfl a.typeUrl).append (Message.among_ofBytes rfl a.value)).toFits
    (by decide) (by decide)

theorem ofMessage_toMessage (a : AnyValue) : ofMessage a.toMessage = a := by
  have htype : a.toMessage.text 1 = a.typeUrl := Message.text_of_get? (by simp [toMessage])
  have hvalue : a.toMessage.bytes 2 = a.value := Message.bytes_of_get? (by simp [toMessage])
  rw [ofMessage, htype, hvalue]

end AnyValue

/-! ## Structs that fit -/

mutual

/-- A value that can be sent in a message at most so many levels of messages deep. A name occurs once
    in a struct, and the number of a null has 32 bits. -/
def StructValue.Fits : StructValue → Nat → Prop
  | .null i, levels => 1 ≤ levels ∧ IsSigned 32 i
  | .list items, levels => 2 ≤ levels ∧ StructValue.ItemsFit items (levels - 2)
  | .struct fields, levels =>
    2 ≤ levels ∧ (fields.map (·.1)).Nodup ∧ StructValue.FieldsFit fields (levels - 2)
  | _, levels => 1 ≤ levels

/-- Values each of which fits. -/
def StructValue.ItemsFit : List StructValue → Nat → Prop
  | [], _ => True
  | v :: vs, levels => v.Fits levels ∧ StructValue.ItemsFit vs levels

/-- Named values each of which fits below an entry of its own; one that is unset is left out of
    it. -/
def StructValue.FieldsFit : List (String × StructValue) → Nat → Prop
  | [], _ => True
  | (_, v) :: rest, levels =>
    1 ≤ levels ∧ (v = .unset ∨ v.Fits (levels - 1)) ∧ StructValue.FieldsFit rest levels

end

/-- A struct that can be sent in a message at most so many levels of messages deep. -/
def Struct.Fits (s : Struct) (levels : Nat) : Prop :=
  1 ≤ levels ∧ (s.map (·.1)).Nodup ∧ StructValue.FieldsFit s (levels - 1)

/-- The schema has the messages of structs. -/
def Struct.Known (s : Schema) : Prop := ∀ t ∈ Struct.types, s.message? t.name = some t

/-! ## Messages of structs -/

theorem StructValue.toEntries_eq_map (fields : Struct) :
    StructValue.toEntries fields = fields.map fun f => (.text f.1, .message f.2.toMessage) := by
  induction fields with
  | nil => rw [StructValue.toEntries, List.map_nil]
  | cons f rest ih =>
    obtain ⟨name, v⟩ := f
    rw [StructValue.toEntries, ih, List.map_cons]

theorem StructValue.toValues_eq_map (items : List StructValue) :
    StructValue.toValues items = items.map fun v => .message v.toMessage := by
  induction items with
  | nil => rw [StructValue.toValues, List.map_nil]
  | cons v rest ih => rw [StructValue.toValues, ih, List.map_cons]

theorem StructValue.structMessage_eq_part (fields : Struct) :
    StructValue.structMessage fields = Message.part 1
      (if (StructValue.toEntries fields).isEmpty then none
      else some (.map (StructValue.toEntries fields))) := by
  rw [StructValue.structMessage, StructValue.toEntries_eq_map, List.isEmpty_map]
  split <;> rfl

theorem StructValue.toMessage_list (items : List StructValue) :
    (StructValue.list items).toMessage =
      [(6, .one (.message (Message.ofMany 1 (items.map (·.toMessage)))))] := by
  rw [StructValue.toMessage, StructValue.toValues_eq_map, Message.ofMany, List.isEmpty_map,
    List.map_map]
  rfl

theorem StructValue.isDefault_toMessage_iff {v : StructValue} :
    (Value.message v.toMessage).isDefault = true ↔ v = .unset := by
  cases v <;> simp [StructValue.toMessage, Value.isDefault]

theorem Struct.Known.message? {s : Schema} (hs : Struct.Known s) {name : String} {t : MessageType}
    (h : (Schema.ofMessages Struct.types).message? name = some t) : s.message? name = some t := by
  have hname : t.name = name := by simpa using List.find?_some h
  rw [← hname]
  exact hs t (List.mem_of_find?_eq_some h)

theorem Struct.Known.entry {s : Schema} (hs : Struct.Known s) :
    s.message? "ValueEntry" = some (.entry "ValueEntry" .string (.message "Value")) :=
  hs.message? rfl

section Conforms

variable {s : Schema} {levels : Nat}

/-- The message of a struct conforms if those of its entries do. -/
theorem conforms_structMessage (hs : Struct.Known s) {fields : Struct}
    (hnodup : (fields.map (·.1)).Nodup)
    (hentries : ∀ f ∈ fields,
      Message.Conforms s levels "ValueEntry" (entryMessage (.text f.1) (.message f.2.toMessage))) :
    Message.Conforms s (levels + 1) "Struct" (StructValue.structMessage fields) := by
  have hkeys : ((StructValue.toEntries fields).map (·.1)).Nodup := by
    rw [StructValue.toEntries_eq_map]
    exact Message.nodup_textKeys (f := fun v => .message v.toMessage) hnodup
  refine ⟨_, hs.message? rfl, ?_⟩
  rw [StructValue.structMessage_eq_part]
  refine (Message.among_entries rfl hs.entry hkeys fun e he => ?_).toFits (by decide) (by decide)
  rw [StructValue.toEntries_eq_map] at he
  obtain ⟨f, hf, rfl⟩ := List.mem_map.1 he
  refine ⟨trivial, fun hdefault => ?_, hentries f hf⟩
  rw [StructValue.isDefault_toMessage_iff.1 hdefault, StructValue.toMessage]
  rfl

theorem StructValue.Fits.pos {v : StructValue} (h : v.Fits levels) : 1 ≤ levels := by
  cases v <;> simp only [StructValue.Fits] at h <;> omega

mutual

/-- The message of a value that fits conforms. -/
theorem StructValue.conforms_toMessage (hs : Struct.Known s) (v : StructValue) (levels : Nat)
    (h : v.Fits levels) : Message.Conforms s levels "Value" v.toMessage := by
  obtain ⟨levels, rfl⟩ : ∃ k, levels = k + 1 := ⟨levels - 1, by have := h.pos; omega⟩
  refine ⟨_, hs.message? rfl, ?_⟩
  cases v with
  | unset =>
    rw [toMessage]
    exact ⟨List.Pairwise.nil, by simp⟩
  | null i =>
    rw [Fits] at h
    rw [toMessage]
    exact Message.fits_member rfl (by decide) h.2
  | bool b =>
    rw [toMessage]
    exact Message.fits_member rfl (by decide) trivial
  | number d =>
    rw [toMessage]
    exact Message.fits_member rfl (by decide) trivial
  | string text =>
    rw [toMessage]
    exact Message.fits_member rfl (by decide) trivial
  | list items =>
    rw [Fits] at h
    obtain ⟨levels, rfl⟩ : ∃ k, levels = k + 1 := ⟨levels - 1, by omega⟩
    have hitems : ∀ m ∈ items.map (·.toMessage), Message.Conforms s levels "Value" m := by
      refine List.forall_mem_map.2 fun v hv => ?_
      exact conforms_toValues hs items levels h.2 v hv
    have hlist : Message.Conforms s (levels + 1) "ListValue"
        (Message.ofMany 1 (items.map (·.toMessage))) :=
      ⟨_, hs.message? rfl, Message.Among.toFits (Message.among_ofMany rfl hitems) (by decide)
        (by decide)⟩
    rw [toMessage_list]
    exact Message.fits_member rfl (by decide) hlist
  | struct fields =>
    rw [Fits] at h
    obtain ⟨levels, rfl⟩ : ∃ k, levels = k + 1 := ⟨levels - 1, by omega⟩
    have hstruct := conforms_structMessage hs h.2.1 (conforms_toEntries hs fields levels h.2.2)
    rw [toMessage]
    exact Message.fits_member rfl (by decide) hstruct

/-- So do those of values. -/
theorem StructValue.conforms_toValues (hs : Struct.Known s) (items : List StructValue)
    (levels : Nat) (h : ItemsFit items levels) :
    ∀ v ∈ items, Message.Conforms s levels "Value" v.toMessage := by
  cases items with
  | nil => simp
  | cons v rest =>
    rw [ItemsFit] at h
    exact List.forall_mem_cons.2
      ⟨conforms_toMessage hs v levels h.1, conforms_toValues hs rest levels h.2⟩

/-- So do those of entries. -/
theorem StructValue.conforms_toEntries (hs : Struct.Known s)
    (fields : List (String × StructValue)) (levels : Nat) (h : FieldsFit fields levels) :
    ∀ f ∈ fields,
      Message.Conforms s levels "ValueEntry" (entryMessage (.text f.1) (.message f.2.toMessage)) := by
  cases fields with
  | nil => simp
  | cons f rest =>
    obtain ⟨name, v⟩ := f
    rw [FieldsFit] at h
    obtain ⟨hlevels, hv, hrest⟩ := h
    refine List.forall_mem_cons.2 ⟨?_, conforms_toEntries hs rest levels hrest⟩
    obtain ⟨levels, rfl⟩ : ∃ k, levels = k + 1 := ⟨levels - 1, by omega⟩
    refine Message.conforms_entryMessage hs.entry trivial fun hset => ?_
    rcases hv with rfl | hv
    · rw [isDefault_toMessage_iff.2 rfl] at hset
      cases hset
    · exact conforms_toMessage hs v levels hv

end

end Conforms

/-- The message of a struct that fits conforms. -/
theorem Struct.conforms_toMessage {schema : Schema} (hs : Struct.Known schema) {s : Struct}
    {levels : Nat} (h : s.Fits levels) :
    Message.Conforms schema levels "Struct" (Struct.toMessage s) := by
  obtain ⟨hlevels, hnodup, hfields⟩ := h
  obtain ⟨levels, rfl⟩ : ∃ k, levels = k + 1 := ⟨levels - 1, by omega⟩
  exact conforms_structMessage hs hnodup (StructValue.conforms_toEntries hs s levels hfields)

/-! ## Structs are read back -/

mutual

/-- The value with the names in its structs sorted. -/
def StructValue.sorted : StructValue → StructValue
  | .list items => .list (StructValue.sortedItems items)
  | .struct fields => .struct (Fields.ofList (StructValue.sortedFields fields))
  | v => v

/-- Each of the values with the names in its structs sorted. -/
def StructValue.sortedItems : List StructValue → List StructValue
  | [] => []
  | v :: vs => v.sorted :: StructValue.sortedItems vs

/-- Each of the named values with the names in its structs sorted. -/
def StructValue.sortedFields : List (String × StructValue) → List (String × StructValue)
  | [] => []
  | (name, v) :: rest => (name, v.sorted) :: StructValue.sortedFields rest

end

/-- The struct with its names sorted, at every depth. -/
def Struct.sorted (s : Struct) : Struct := Fields.ofList (StructValue.sortedFields s)

mutual

theorem StructValue.ofValue_toMessage (v : StructValue) :
    StructValue.ofValue (.message v.toMessage) = v.sorted := by
  cases v with
  | list items =>
    have hitems := ofValues_toValues items
    rw [ofValue, toMessage, ofChoice, sorted, ← hitems]
    cases items <;> simp [ofListFields, toValues, ofValues]
  | struct fields =>
    rw [ofValue, toMessage, ofChoice, sorted, ofStructFields_structMessage fields]
  | _ => simp only [ofValue, toMessage, ofChoice, sorted]

theorem StructValue.ofValues_toValues (items : List StructValue) :
    StructValue.ofValues (StructValue.toValues items) = StructValue.sortedItems items := by
  cases items with
  | nil => rw [toValues, ofValues, sortedItems]
  | cons v rest =>
    rw [toValues, ofValues, sortedItems, ofValue_toMessage v, ofValues_toValues rest]

theorem StructValue.ofStructFields_structMessage (fields : List (String × StructValue)) :
    StructValue.ofStructFields (StructValue.structMessage fields) =
      Fields.ofList (StructValue.sortedFields fields) := by
  have hfields := ofEntries_toEntries fields
  rw [structMessage, ← hfields]
  cases fields <;> simp [ofStructFields, toEntries, ofEntries, Fields.ofList]

theorem StructValue.ofEntries_toEntries (fields : List (String × StructValue)) :
    StructValue.ofEntries (StructValue.toEntries fields) = StructValue.sortedFields fields := by
  cases fields with
  | nil => rw [toEntries, ofEntries, sortedFields]
  | cons f rest =>
    obtain ⟨name, v⟩ := f
    rw [toEntries, ofEntries, sortedFields, ofValue_toMessage v, ofEntries_toEntries rest]

end

/-- A struct is read back with its names sorted. -/
theorem Struct.ofMessage_toMessage (s : Struct) :
    Struct.ofMessage (Struct.toMessage s) = s.sorted :=
  StructValue.ofStructFields_structMessage s

end AuthGate
