import AuthGate.Proofs.Proto.Padding
import AuthGate.Proofs.Struct.Wire
import AuthGate.Response.LegacyWire
import Mathlib.Data.Option.Basic

set_option autoImplicit false

/-! # Older check responses are read as they were written

`CheckResponse.decode?_wire`: a response is read back from its bytes, a part that is present but
empty as present and one that is missing as missing, also when a newer sender has put fields of its
own between the response's. -/

namespace AuthGate.Legacy

open Proto

/-! ## Responses are read back from their messages -/

theorem statusOf_statusMessage (s : RpcStatus) : statusOf (statusMessage s) = s := by
  have hcode : (statusMessage s).int 1 = s.code := Message.int_of_get? (by simp [statusMessage])
  have hmessage : (statusMessage s).text 2 = s.message :=
    Message.text_of_get? (by simp [statusMessage])
  have hdetails : (statusMessage s).messages 3 = s.details.map (·.toMessage) :=
    Message.messages_of_get? (by simp [statusMessage])
  rw [statusOf, hcode, hmessage, hdetails, List.map_map]
  simp only [Function.comp_def, AnyValue.ofMessage_toMessage, List.map_id']

theorem HeaderOption.ofMessage_toMessage (o : HeaderOption) : ofMessage o.toMessage = o := by
  have hheader : o.toMessage.nested? 1 =
      o.header.map fun h => Message.ofText 1 h.key ++ Message.ofText 2 h.value :=
    Message.nested?_of_get? (by simp [toMessage])
  have happend : o.toMessage.nested? 2 = o.append.map fun b => Message.ofBool 1 b :=
    Message.nested?_of_get? (by simp [toMessage])
  have hkey (h : HeaderValue) :
      (Message.ofText 1 h.key ++ Message.ofText 2 h.value).text 1 = h.key :=
    Message.text_of_get? (by simp)
  have hvalue (h : HeaderValue) :
      (Message.ofText 1 h.key ++ Message.ofText 2 h.value).text 2 = h.value :=
    Message.text_of_get? (by simp)
  have hbool (b : Bool) : (Message.ofBool 1 b).bool 1 = b := Message.bool_of_get? rfl
  rw [ofMessage, hheader, happend, Option.map_map, Option.map_map]
  simp only [Function.comp_def, hkey, hvalue, hbool, Option.map_id']

theorem HttpBranch.ofMessage?_toMessage (b : HttpBranch) : ofMessage? b.toMessage = some b := by
  cases b with
  | denied status headers body =>
    let m := Message.ofNested 1 (status.map fun c => Message.ofInt 1 c) ++
      Message.ofMany 2 (headers.map (·.toMessage)) ++ Message.ofText 3 body
    have hstatus : m.nested? 1 = status.map fun c => Message.ofInt 1 c :=
      Message.nested?_of_get? (by simp [m])
    have hheaders : m.messages 2 = headers.map (·.toMessage) :=
      Message.messages_of_get? (by simp [m])
    have hbody : m.text 3 = body := Message.text_of_get? (by simp [m])
    have hcode (c : Int) : (Message.ofInt 1 c).int 1 = c := Message.int_of_get? rfl
    show some (HttpBranch.denied ((m.nested? 1).map (·.int 1)) ((m.messages 2).map .ofMessage)
      (m.text 3)) = _
    rw [hstatus, hheaders, hbody, Option.map_map, List.map_map]
    simp only [Function.comp_def, hcode, HeaderOption.ofMessage_toMessage, Option.map_id',
      List.map_id']
  | ok headers =>
    let m := Message.ofMany 2 (headers.map (·.toMessage))
    have hheaders : m.messages 2 = headers.map (·.toMessage) := Message.messages_of_get? rfl
    show some (HttpBranch.ok ((m.messages 2).map .ofMessage)) = _
    rw [hheaders, List.map_map]
    simp only [Function.comp_def, HeaderOption.ofMessage_toMessage, List.map_id']

theorem CheckResponse.ofMessage_toMessage (r : CheckResponse) : ofMessage r.toMessage = r := by
  let branch : Message := (r.http.map (·.toMessage)).getD []
  have hmessage : r.toMessage = Message.ofNested 1 (r.status.map statusMessage) ++ branch := by
    rw [toMessage]
    cases hb : r.http <;> simp [branch, hb]
  have hlook {number : Nat} (h : 1 ≠ number) :
      Message.get? number r.toMessage = Message.get? number branch := by
    rw [hmessage]
    simp [h]
  have hstatus : r.toMessage.nested? 1 = r.status.map statusMessage := by
    have hfirst : Message.get? 1 branch = none := by
      rcases hb : r.http with _ | (_ | _) <;> simp [branch, hb, HttpBranch.toMessage, Message.get?]
    exact Message.nested?_of_get? (by rw [hmessage]; simp [hfirst])
  have hhttp : HttpBranch.ofMessage? r.toMessage = r.http := by
    have hbranch : HttpBranch.ofMessage? branch = r.http := by
      cases hb : r.http with
      | none => simp [branch, hb]; rfl
      | some b => simpa [branch, hb] using b.ofMessage?_toMessage
    rw [← hbranch]
    simp only [HttpBranch.ofMessage?, Message.nested?, Message.one?, hlook (show 1 ≠ 2 by decide),
      hlook (show 1 ≠ 3 by decide)]
  rw [ofMessage, hstatus, hhttp, Option.map_map]
  simp only [Function.comp_def, statusOf_statusMessage, Option.map_id']

/-! ## Messages are of their types -/

/-- Every code is a number of 32 bits, as its field can carry it. -/
structure CheckResponse.HasCodes (r : CheckResponse) : Prop where
  status : ∀ s ∈ r.status, IsSigned 32 s.code
  denied : ∀ code headers body, r.http = some (.denied (some code) headers body) → IsSigned 32 code

section Conforms

variable (levels : Nat)

theorem conforms_any (a : AnyValue) : Message.Conforms schema (levels + 1) "Any" a.toMessage :=
  ⟨_, rfl, a.fits_toMessage _ _⟩

theorem conforms_status {s : RpcStatus} (h : IsSigned 32 s.code) :
    Message.Conforms schema (levels + 2) "Status" (statusMessage s) := by
  have hdetails : ∀ m ∈ s.details.map (·.toMessage),
      Message.Conforms schema (levels + 1) "Any" m := by
    refine List.forall_mem_map.2 fun a _ => ?_
    exact conforms_any levels a
  refine ⟨_, rfl, Message.Among.toFits (.append (.append (Message.among_ofInt rfl ?_)
    (Message.among_ofText rfl _)) (Message.among_ofMany rfl hdetails)) (by decide) (by decide)⟩
  exact h

theorem conforms_httpStatus {code : Int} (h : IsSigned 32 code) :
    Message.Conforms schema (levels + 1) "HttpStatus" (Message.ofInt 1 code) := by
  refine ⟨_, rfl, Message.Among.toFits (Message.among_ofInt rfl ?_) (by decide) (by decide)⟩
  exact h

theorem conforms_headerOption (o : HeaderOption) :
    Message.Conforms schema (levels + 2) "HeaderValueOption" o.toMessage := by
  have hheader : ∀ m ∈ o.header.map fun h => Message.ofText 1 h.key ++ Message.ofText 2 h.value,
      Message.Conforms schema (levels + 1) "HeaderValue" m := by
    refine Option.forall_mem_map.2 fun h _ => ?_
    exact ⟨_, rfl, Message.Among.toFits (.append (Message.among_ofText rfl _)
      (Message.among_ofText rfl _)) (by decide) (by decide)⟩
  have happend : ∀ m ∈ o.append.map fun b => Message.ofBool 1 b,
      Message.Conforms schema (levels + 1) "BoolValue" m := by
    refine Option.forall_mem_map.2 fun b _ => ?_
    exact ⟨_, rfl, Message.Among.toFits (Message.among_ofBool rfl _) (by decide) (by decide)⟩
  exact ⟨_, rfl, Message.Among.toFits (.append (Message.among_ofNested rfl hheader)
    (Message.among_ofNested rfl happend)) (by decide) (by decide)⟩

theorem conforms_headerOptions (os : List HeaderOption) :
    ∀ m ∈ os.map (·.toMessage), Message.Conforms schema (levels + 2) "HeaderValueOption" m := by
  refine List.forall_mem_map.2 fun o _ => ?_
  exact conforms_headerOption levels o

theorem conforms_checkResponse {r : CheckResponse} (h : r.HasCodes) :
    Message.Conforms schema (levels + 4) "CheckResponse" r.toMessage := by
  have hstatus : ∀ m ∈ r.status.map statusMessage,
      Message.Conforms schema (levels + 3) "Status" m := by
    refine Option.forall_mem_map.2 fun s hs => ?_
    exact conforms_status (levels + 1) (h.status s hs)
  obtain ⟨status, http⟩ := r
  -- of the two branches at most one is set, so the numbers are those of one branch
  cases http with
  | none =>
    rw [CheckResponse.toMessage, List.append_nil]
    exact ⟨_, rfl, Message.Among.toFits (Message.among_ofNested rfl hstatus) (by decide)
      (by decide)⟩
  | some b =>
    cases b with
    | ok headers =>
      have hbranch : Message.Conforms schema (levels + 3) "OkHttpResponse"
          (Message.ofMany 2 (headers.map (·.toMessage))) :=
        ⟨_, rfl, Message.Among.toFits
          (Message.among_ofMany rfl (conforms_headerOptions levels headers)) (by decide)
          (by decide)⟩
      exact ⟨_, rfl, Message.Among.toFits (.append (Message.among_ofNested rfl hstatus)
        (Message.among_field rfl ⟨rfl, hbranch, .inl rfl⟩)) (by decide) (by decide)⟩
    | denied code headers body =>
      have hcode : ∀ m ∈ code.map fun c => Message.ofInt 1 c,
          Message.Conforms schema (levels + 2) "HttpStatus" m := by
        refine Option.forall_mem_map.2 fun c hc => ?_
        have hset : some (HttpBranch.denied code headers body) =
            some (.denied (some c) headers body) := by rw [Option.mem_def.1 hc]
        exact conforms_httpStatus (levels + 1) (h.denied c headers body hset)
      have hbranch : Message.Conforms schema (levels + 3) "DeniedHttpResponse"
          (Message.ofNested 1 (code.map fun c => Message.ofInt 1 c) ++
            Message.ofMany 2 (headers.map (·.toMessage)) ++ Message.ofText 3 body) :=
        ⟨_, rfl, Message.Among.toFits (.append (.append (Message.among_ofNested rfl hcode)
          (Message.among_ofMany rfl (conforms_headerOptions levels headers)))
          (Message.among_ofText rfl _)) (by decide) (by decide)⟩
      exact ⟨_, rfl, Message.Among.toFits (.append (Message.among_ofNested rfl hstatus)
        (Message.among_field rfl ⟨rfl, hbranch, .inl rfl⟩)) (by decide) (by decide)⟩

end Conforms

/-! ## The round trip -/

theorem checkResponse_onlyMessages :
    ∃ t, schema.message? "CheckResponse" = some t ∧ t.fields.map (·.number) = [1, 2, 3] ∧
      ∀ f ∈ t.fields, f.arity = .one ∧ ∃ name, f.kind = .message name := by
  refine ⟨_, rfl, rfl, ?_⟩
  simp [Field.nested, Field.member, Field.optional, Field.single]

/-- A response is read back from its bytes, and still is when well-formed fields with other numbers
    than its own are put before, between and after the fields that its bytes consist of; so no two
    responses have the same bytes. Bytes are fewer than an address can count. -/
theorem CheckResponse.decode?_wire {r : CheckResponse} (hcodes : r.HasCodes)
    (hsize : r.encode.length < 2 ^ 64) :
    decode? r.encode = some r ∧ (∃ fields, Consists fields r.encode) ∧
      (∀ fields bs, Consists fields r.encode → Padded [1, 2, 3] fields bs → decode? bs = some r) ∧
      ∀ r' : CheckResponse, r'.HasCodes → r'.encode = r.encode → r' = r := by
  have hdecode (r : CheckResponse) (hcodes : r.HasCodes) (hsize : r.encode.length < 2 ^ 64) :
      decode? r.encode = some r := by
    obtain ⟨t, ht, hm⟩ := conforms_checkResponse 97 hcodes
    rw [decode?, encode, decode?_encode ht hm hsize, Option.map_some, ofMessage_toMessage]
  obtain ⟨t, ht, hnumbers, honly⟩ := checkResponse_onlyMessages
  obtain ⟨t', ht', hm⟩ := conforms_checkResponse 97 hcodes
  obtain rfl : t = t' := Option.some.inj (ht.symm.trans ht')
  refine ⟨hdecode r hcodes hsize, ?_, ?_, ?_⟩
  · simp only [encode, Proto.encode, ht] at hsize ⊢
    exact ⟨_, consists_partBytes hm honly hsize⟩
  · intro fields bs hfields h
    rw [← hnumbers] at h
    rw [decode?, decode?_padded ht hm honly hsize hfields h, Option.map_some, ofMessage_toMessage]
  · intro r' hcodes' hbytes
    have hread' := hdecode r' hcodes' (hbytes ▸ hsize)
    rw [hbytes, hdecode r hcodes hsize] at hread'
    exact (Option.some.inj hread').symm

/-- Everything present, and everything empty. -/
def CheckResponse.hollow : CheckResponse :=
  ⟨some ⟨0, "", [⟨"", []⟩]⟩, some (.denied (some 0) [⟨some ⟨"", ""⟩, some false⟩] "")⟩

/-- The hollow response is read back, also from behind a field with the number 15. -/
theorem CheckResponse.decode?_hollow :
    hollow.HasCodes ∧ hollow.encode.length < 2 ^ 64 ∧ decode? hollow.encode = some hollow ∧
      decode? ([0x7a, 0x01, 0x00] ++ hollow.encode) = some hollow := by
  have hcodes : hollow.HasCodes := by
    constructor
    · rintro s ⟨⟩
      decide
    · rintro code headers body ⟨⟩
      decide
  have hsize : hollow.encode.length < 2 ^ 64 := by decide +kernel
  obtain ⟨hread, ⟨fields, hfields⟩, hpadded, -⟩ := decode?_wire hcodes hsize
  have hfield : IsField 15 ([0x7a] ++ ([0x01] ++ [0x00])) :=
    .delimited (isKey_keyBytes (by decide) .delimited)
      (Varint.isVarint_encode (show 1 < 2 ^ 64 by decide))
  refine ⟨hcodes, hsize, hread, hpadded fields _ hfields ?_⟩
  rw [← hfields.flatten_eq]
  exact .other (by decide) (by decide) hfield (.flatten _ _)

end AuthGate.Legacy
