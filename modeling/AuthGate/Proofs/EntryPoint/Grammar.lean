import AuthGate.EntryPoint.Parser
import AuthGate.Proofs.Json.Literal
import AuthGate.Proofs.Result

set_option autoImplicit false

/-! # The grammar of queries

A query is `data` followed by segments: `.` and an identifier, or brackets around the literal of a
key or around an index. The reader accepts exactly these texts, with blanks around them, and gives
the elements that the segments name; every other text is a bad configuration. The main statement is
`parse_eq_ok_iff_isPaddedQuery`. -/

namespace AuthGate.EntryPoint

open Text (AreBlank IsDecimal)
open Json.Literal (Content)

/-! ## The grammar -/

/-- The text of a segment and the element that it names. -/
inductive Segment : List Char → RefTerm → Prop
  | dotted {name : List Char} (identifier : isIdentifier name = true) :
    Segment ('.' :: name) (.key (String.ofList name))
  /-- The literal of a key in brackets. -/
  | quoted {l body key r : List Char} (left : AreBlank l) (right : AreBlank r)
      (content : Content body key) :
    Segment ('[' :: (l ++ '"' :: (body ++ '"' :: (r ++ [']'])))) (.key (String.ofList key))
  /-- A whole number in brackets that 64 signed bits hold. -/
  | indexed {l number r : List Char} {i : Int} (left : AreBlank l) (right : AreBlank r)
      (decimal : IsDecimal number i) (low : -(0x8000000000000000) ≤ i)
      (high : i < 0x8000000000000000) :
    Segment ('[' :: (l ++ (number ++ (r ++ [']'])))) (.index i)

/-- The text of any number of segments and the elements that they name, in order. -/
inductive Segments : List Char → List RefTerm → Prop
  | nil : Segments [] []
  | cons {cs rest : List Char} {term : RefTerm} {terms : List RefTerm} (first : Segment cs term)
      (others : Segments rest terms) : Segments (cs ++ rest) (term :: terms)

/-- The text of a query without blanks around it, and its entry point. -/
def IsQuery (cs : List Char) (e : EntryPoint) : Prop :=
  ∃ rest, cs = root.toList ++ rest ∧ Segments rest e.terms

/-! ## Identifiers -/

/-- Nothing that an identifier could go on with. -/
def EndsIdentifier (cs : List Char) : Prop := ∀ c ∈ cs.head?, isMedial c = false

theorem identifier_eq_ok_iff {cs name rest : List Char} :
    identifier cs = .ok (name, rest) ↔
      isIdentifier name = true ∧ cs = name ++ rest ∧ EndsIdentifier rest := by
  constructor
  · intro h
    cases cs with
    | nil => cases h
    | cons c cs =>
      simp only [identifier] at h
      split at h
      · next hc =>
        cases h
        refine ⟨?_, by simp [List.takeWhile_append_dropWhile], fun d hd => ?_⟩
        · simp only [isIdentifier, hc, Bool.true_and, List.all_takeWhile]
        · have hnot := List.head?_dropWhile_not isMedial cs
          rw [Option.mem_def] at hd
          simpa only [hd] using hnot
      · cases h
  · rintro ⟨hname, rfl, hrest⟩
    cases name with
    | nil => cases hname
    | cons c name =>
      obtain ⟨hc, hname⟩ := Bool.and_eq_true_iff.1 hname
      have hmedial := List.all_eq_true.1 hname
      have hends : rest.takeWhile isMedial = [] ∧ rest.dropWhile isMedial = rest := by
        cases rest with
        | nil => exact ⟨rfl, rfl⟩
        | cons d rest =>
          have hd := hrest d rfl
          simp [hd]
      simp only [List.cons_append, identifier, hc, if_true, List.takeWhile_append_of_pos hmedial,
        List.dropWhile_append_of_pos hmedial, hends.1, hends.2, List.append_nil]

/-! ## Brackets -/

theorem not_isBlank_bracket : Text.isBlank ']' = false := by decide

/-- Blanks do not end a bracket. -/
theorem bracket_notMem_of_areBlank {cs : List Char} (h : AreBlank cs) : ']' ∉ cs := by
  intro hmem
  have hblank := h _ hmem
  rw [not_isBlank_bracket] at hblank
  cases hblank

theorem upToBracket_of_areBlank {r : List Char} (h : AreBlank r) (rest : List Char) :
    upToBracket (r ++ ']' :: rest) = some (r, rest) :=
  Text.splitOnce_eq_some_iff.2 ⟨rfl, bracket_notMem_of_areBlank h⟩

/-- The text in front of what follows the closing quote, that quote included. -/
theorem take_literal (body tail : List Char) :
    (body ++ '"' :: tail).take ((body ++ '"' :: tail).length - tail.length) = body ++ ['"'] := by
  have hlength : (body ++ '"' :: tail).length - tail.length = (body ++ ['"']).length := by
    simp only [List.length_append, List.length_cons, List.length_nil]
    omega
  rw [hlength, List.append_cons body '"' tail, List.take_left]

/-- A key in brackets ends at the bracket after its closing quote. -/
theorem bracketed_quoted {l body key r : List Char} (hl : AreBlank l) (hr : AreBlank r)
    (h : Content body key) (rest : List Char) :
    bracketed (l ++ '"' :: (body ++ '"' :: (r ++ ']' :: rest))) =
      .ok (.key (String.ofList key), rest) := by
  have hquote : Text.isBlank '"' = false := by decide
  have htrim : Text.trimRight (('"' :: (body ++ ['"'])) ++ r) = '"' :: (body ++ ['"']) := by
    rw [Text.trimRight_append hr]
    exact Text.trimRight_concat hquote ('"' :: body)
  rw [bracketed, Text.trimLeft_append hl, Text.trimLeft_cons hquote]
  simp only [Json.Literal.afterQuote?_of_content h, upToBracket_of_areBlank hr, take_literal, htrim,
    Json.Literal.literal?_of_content h]

/-- No character of a number is a blank, a quote or a bracket. -/
theorem plain_of_isDecimal {number : List Char} {i : Int} (h : IsDecimal number i) {c : Char}
    (hc : c ∈ number) : Text.isBlank c = false ∧ c ≠ '"' ∧ c ≠ ']' := by
  rcases h.mem hc with hdigit | rfl | rfl
  · have hrange := Text.isDigit_iff.1 hdigit
    refine ⟨?_, ?_, ?_⟩
    · simp only [Text.isBlank, Bool.or_eq_false_iff, Bool.and_eq_false_iff, decide_eq_false_iff_not,
        beq_eq_false_iff_ne]
      omega
    · rintro rfl
      exact absurd hdigit (by decide)
    · rintro rfl
      exact absurd hdigit (by decide)
  · decide
  · decide

theorem trimmed_of_isDecimal {number : List Char} {i : Int} (h : IsDecimal number i) :
    Text.Trimmed number where
  head _ hc := (plain_of_isDecimal h (List.mem_of_mem_head? hc)).1
  last _ hc := (plain_of_isDecimal h (List.mem_of_mem_getLast? hc)).1

theorem bracketed_indexed {l number r : List Char} {i : Int} (hl : AreBlank l) (hr : AreBlank r)
    (h : IsDecimal number i) (hlow : -(0x8000000000000000) ≤ i) (hhigh : i < 0x8000000000000000)
    (rest : List Char) :
    bracketed (l ++ (number ++ (r ++ ']' :: rest))) = .ok (.index i, rest) := by
  have hbracket : ']' ∉ l ++ (number ++ r) := by
    simp only [List.mem_append, not_or]
    exact ⟨bracket_notMem_of_areBlank hl, fun hmem => (plain_of_isDecimal h hmem).2.2 rfl,
      bracket_notMem_of_areBlank hr⟩
  have hinner : upToBracket (l ++ (number ++ (r ++ ']' :: rest))) =
      some (l ++ (number ++ r), rest) :=
    Text.splitOnce_eq_some_iff.2 ⟨by simp only [List.append_assoc], hbracket⟩
  have hread := Text.int64?_eq_some_iff.2 ⟨h, hlow, hhigh⟩
  rw [bracketed, Text.trimLeft_append hl]
  split
  · next body hquote =>
    -- a number does not begin with a quote
    cases number with
    | nil => exact absurd rfl h.ne_nil
    | cons c number =>
      obtain ⟨hblank, hne, -⟩ := plain_of_isDecimal h (List.mem_cons_self ..)
      rw [List.cons_append, Text.trimLeft_cons hblank] at hquote
      exact absurd (List.cons.inj hquote).1 hne
  · simp only [hinner, (trimmed_of_isDecimal h).trim_eq hl hr, hread]

/-- What is read in brackets after a quote is the literal of a key, blanks around it. -/
theorem exists_content_of_afterQuote? {body tail extra key : List Char}
    (htail : Json.Literal.afterQuote? body = some tail)
    (hkey : Json.literal? (Text.trimRight
      (('"' :: body.take (body.length - tail.length)) ++ extra)) = some key) :
    ∃ content, body = content ++ '"' :: tail ∧ Content content key ∧ AreBlank extra := by
  obtain ⟨literal, rfl, hafter⟩ := Json.Literal.exists_of_afterQuote? htail
  have hquote : Text.isBlank '"' = false := by decide
  rw [take_literal, List.cons_append, List.append_assoc, List.singleton_append, ← List.cons_append,
    Text.trimRight_append_cons hquote, List.cons_append] at hkey
  obtain ⟨content, r, heq, hcontent, hspace⟩ := Json.Literal.exists_content_of_literal? hkey
  -- the search for the quote and the reader end at the same place
  have hrest : Text.trimRight extra = r := by
    have h := hafter (Text.trimRight extra)
    rw [heq, Json.Literal.afterQuote?_of_content hcontent] at h
    exact (Option.some.inj h).symm
  rw [hrest] at heq
  obtain rfl := List.append_cancel_right heq
  refine ⟨literal, rfl, hcontent, Text.areBlank_of_areBlank_trimRight fun c hc => ?_⟩
  rw [hrest] at hc
  have hc := hspace c hc
  simp only [Json.isSpace, Bool.or_eq_true, decide_eq_true_eq] at hc
  rcases hc with ((rfl | rfl) | rfl) | rfl <;> decide

theorem exists_segment_of_bracketed {cs rest : List Char} {term : RefTerm}
    (h : bracketed cs = .ok (term, rest)) :
    ∃ inner, cs = inner ++ ']' :: rest ∧ Segment ('[' :: (inner ++ [']'])) term := by
  rw [bracketed] at h
  split at h
  · next body hbody =>
    obtain ⟨l, hl, hcs⟩ := Text.exists_trimLeft cs
    rw [hbody] at hcs
    split at h
    · cases h
    · next tail htail =>
      split at h
      · cases h
      · next extra after hextra =>
        obtain ⟨rfl, -⟩ := Text.splitOnce_eq_some_iff.1 hextra
        simp only at h
        split at h
        · next key hkey =>
          cases h
          obtain ⟨content, rfl, hcontent, hblank⟩ := exists_content_of_afterQuote? htail hkey
          refine ⟨l ++ '"' :: (content ++ '"' :: extra), by simp [hcs], ?_⟩
          have hsegment := Segment.quoted hl hblank hcontent
          simpa using hsegment
        · cases h
  · split at h
    · cases h
    · next inner after hinner =>
      obtain ⟨rfl, -⟩ := Text.splitOnce_eq_some_iff.1 hinner
      split at h
      · next i hi =>
        cases h
        obtain ⟨hdecimal, hlow, hhigh⟩ := Text.int64?_eq_some_iff.1 hi
        obtain ⟨l, r, hl, hr, heq, -⟩ := Text.trim_eq_iff.1 (rfl : Text.trim inner = _)
        refine ⟨inner, rfl, ?_⟩
        have hsegment := Segment.indexed hl hr hdecimal hlow hhigh
        rw [heq]
        simpa using hsegment
      · cases h

/-! ## Segments -/

theorem exists_segment_of_eq_ok {cs rest : List Char} {term : RefTerm}
    (h : segment cs = .ok (term, rest)) : ∃ text, cs = text ++ rest ∧ Segment text term := by
  simp only [segment] at h
  split at h
  · obtain ⟨⟨name, rest'⟩, hname, h⟩ := bind_eq_ok_iff.1 h
    cases h
    obtain ⟨hidentifier, rfl, -⟩ := identifier_eq_ok_iff.1 hname
    exact ⟨'.' :: name, rfl, .dotted hidentifier⟩
  · obtain ⟨inner, rfl, hsegment⟩ := exists_segment_of_bracketed h
    exact ⟨'[' :: (inner ++ [']']), by simp, hsegment⟩
  · cases h
  · cases h

theorem segment_of_segment {text rest : List Char} {term : RefTerm} (h : Segment text term)
    (hrest : EndsIdentifier rest) : segment (text ++ rest) = .ok (term, rest) := by
  cases h with
  | @dotted name identifier =>
    rw [List.cons_append, segment, identifier_eq_ok_iff.2 ⟨identifier, rfl, hrest⟩]
    rfl
  | @quoted l body key r left right content =>
    have hbracketed := bracketed_quoted left right content rest
    simpa [segment] using hbracketed
  | @indexed l number r i left right decimal low high =>
    have hbracketed := bracketed_indexed left right decimal low high rest
    simpa [segment] using hbracketed

theorem Segment.ne_nil {cs : List Char} {term : RefTerm} (h : Segment cs term) : cs ≠ [] := by
  cases h <;> simp

/-- A segment takes at least one character. -/
theorem Segment.length_rest_le {text rest : List Char} {term : RefTerm} (h : Segment text term)
    {fuel : Nat} (hlength : (text ++ rest).length ≤ fuel + 1) : rest.length ≤ fuel := by
  have hpos := List.length_pos_iff.2 h.ne_nil
  rw [List.length_append] at hlength
  omega

/-- A segment begins with a character that ends an identifier. -/
theorem Segments.endsIdentifier {cs : List Char} {terms : List RefTerm} (h : Segments cs terms) :
    EndsIdentifier cs := by
  cases h with
  | nil => simp [EndsIdentifier]
  | cons first _ =>
    have hdot : isMedial '.' = false := by decide
    have hbracket : isMedial '[' = false := by decide
    cases first <;> simp [EndsIdentifier, hdot, hbracket]

theorem segments_nil_iff {terms : List RefTerm} : Segments [] terms ↔ terms = [] := by
  constructor
  · intro h
    generalize hcs : ([] : List Char) = cs at h
    cases h with
    | nil => rfl
    | cons first _ => exact absurd (List.append_eq_nil_iff.1 hcs.symm).1 first.ne_nil
  · rintro rfl
    exact .nil

/-- As much fuel as there are characters is enough, since every segment takes one. -/
theorem segments_eq_ok_iff {fuel : Nat} {cs : List Char} (h : cs.length ≤ fuel)
    {terms : List RefTerm} : segments fuel cs = .ok terms ↔ Segments cs terms := by
  induction fuel generalizing cs terms with
  | zero =>
    obtain rfl := List.eq_nil_of_length_eq_zero (Nat.le_zero.1 h)
    simp [segments, segments_nil_iff, eq_comm]
  | succ fuel ih =>
    cases cs with
    | nil => simp [segments, segments_nil_iff, eq_comm]
    | cons c cs =>
      rw [segments]
      · constructor
        · intro hread
          obtain ⟨⟨term, rest⟩, hsegment, hread⟩ := bind_eq_ok_iff.1 hread
          obtain ⟨others, hothers, hread⟩ := bind_eq_ok_iff.1 hread
          obtain rfl := pure_eq_ok_iff.1 hread
          obtain ⟨text, htext, hfirst⟩ := exists_segment_of_eq_ok hsegment
          rw [htext] at h ⊢
          exact .cons hfirst ((ih (hfirst.length_rest_le h)).1 hothers)
        · intro hgrammar
          generalize hcs : c :: cs = text at hgrammar h ⊢
          cases hgrammar with
          | nil => cases hcs
          | @cons first rest term others hfirst hothers =>
            refine bind_eq_ok_iff.2 ⟨_, segment_of_segment hfirst hothers.endsIdentifier, ?_⟩
            exact bind_eq_ok_iff.2 ⟨_, (ih (hfirst.length_rest_le h)).2 hothers, rfl⟩
      · simp

/-! ## Queries -/

theorem ofChars_eq_ok_iff {cs : List Char} {e : EntryPoint} :
    ofChars cs = .ok e ↔ IsQuery cs e := by
  constructor
  · intro h
    obtain ⟨⟨head, rest⟩, hhead, h⟩ := bind_eq_ok_iff.1 h
    simp only at h
    split at h
    · next hroot =>
      obtain ⟨terms, hterms, h⟩ := bind_eq_ok_iff.1 h
      obtain rfl := pure_eq_ok_iff.1 h
      obtain ⟨-, rfl, -⟩ := identifier_eq_ok_iff.1 hhead
      exact ⟨rest, by rw [hroot], (segments_eq_ok_iff (Nat.le_refl _)).1 hterms⟩
    · cases h
  · rintro ⟨rest, rfl, hrest⟩
    have hroot : isIdentifier root.toList = true := by decide
    refine bind_eq_ok_iff.2
      ⟨_, identifier_eq_ok_iff.2 ⟨hroot, rfl, hrest.endsIdentifier⟩, ?_⟩
    simp only [if_true]
    exact bind_eq_ok_iff.2 ⟨_, (segments_eq_ok_iff (Nat.le_refl _)).2 hrest, rfl⟩

theorem not_isBlank_of_isMedial {c : Char} (h : isMedial c = true) : Text.isBlank c = false := by
  have hrange : (97 ≤ c.toNat ∧ c.toNat ≤ 122) ∨ (65 ≤ c.toNat ∧ c.toNat ≤ 90) ∨ c.toNat = 95 ∨
      (48 ≤ c.toNat ∧ c.toNat ≤ 57) := by
    simp only [isMedial, isInitial, Text.isDigit, Bool.or_eq_true, Bool.and_eq_true,
      decide_eq_true_eq, beq_iff_eq, Text.le_iff_toNat_le] at h
    rcases h with ((h | h) | rfl) | h
    · exact .inl h
    · exact .inr (.inl h)
    · exact .inr (.inr (.inl rfl))
    · exact .inr (.inr (.inr h))
  simp only [Text.isBlank, Bool.or_eq_false_iff, Bool.and_eq_false_iff, decide_eq_false_iff_not,
    beq_eq_false_iff_ne]
  omega

theorem Segment.last {cs : List Char} {term : RefTerm} (h : Segment cs term) :
    ∀ c ∈ cs.getLast?, Text.isBlank c = false := by
  intro c hc
  cases h with
  | @dotted name identifier =>
    cases name with
    | nil => cases identifier
    | cons first name =>
      obtain ⟨hfirst, hname⟩ := Bool.and_eq_true_iff.1 identifier
      rw [List.getLast?_cons_cons] at hc
      apply not_isBlank_of_isMedial
      rcases List.mem_cons.1 (List.mem_of_mem_getLast? hc) with rfl | hc
      · simp [isMedial, hfirst]
      · exact List.all_eq_true.1 hname c hc
  | quoted | indexed =>
    obtain rfl : ']' = c := by simpa [List.getLast?_cons, List.getLast?_append] using hc
    exact not_isBlank_bracket

theorem Segments.last {cs : List Char} {terms : List RefTerm} (h : Segments cs terms) :
    ∀ c ∈ cs.getLast?, Text.isBlank c = false := by
  induction h with
  | nil => simp
  | @cons first rest term terms hfirst _ ih =>
    intro c hc
    rw [List.getLast?_append] at hc
    cases hrest : rest.getLast? with
    | none =>
      rw [hrest, Option.none_or] at hc
      exact hfirst.last c hc
    | some d =>
      rw [hrest, Option.some_or] at hc
      exact ih c (hrest ▸ hc)

/-- A query has no blanks around it. -/
theorem IsQuery.trimmed {cs : List Char} {e : EntryPoint} (h : IsQuery cs e) :
    Text.Trimmed cs := by
  obtain ⟨rest, rfl, hrest⟩ := h
  constructor
  · intro c hc
    obtain rfl : 'd' = c := by simpa [root] using hc
    decide
  · intro c hc
    rw [List.getLast?_append] at hc
    cases hlast : rest.getLast? with
    | none =>
      rw [hlast, Option.none_or] at hc
      obtain rfl : 'a' = c := by simpa [root] using hc
      decide
    | some d =>
      rw [hlast, Option.some_or] at hc
      exact hrest.last c (hlast ▸ hc)

/-- A query with blanks around it, and its entry point. -/
def IsPaddedQuery (cs : List Char) (e : EntryPoint) : Prop :=
  ∃ l text r, AreBlank l ∧ AreBlank r ∧ cs = l ++ (text ++ r) ∧ IsQuery text e

theorem isQuery_trim_iff {cs : List Char} {e : EntryPoint} :
    IsQuery (Text.trim cs) e ↔ IsPaddedQuery cs e := by
  constructor
  · intro h
    obtain ⟨l, r, hl, hr, hcs, -⟩ := Text.trim_eq_iff.1 (rfl : Text.trim cs = _)
    exact ⟨l, _, r, hl, hr, hcs, h⟩
  · rintro ⟨l, text, r, hl, hr, rfl, h⟩
    rwa [h.trimmed.trim_eq hl hr]

/-- A text is read as a query exactly if it is one, blanks around it allowed, and its entry point is
    that of the grammar; every other text is a bad configuration. The brackets around a key end
    after the closing quote of its literal, whatever the literal contains and whatever follows. -/
theorem parse_eq_ok_iff_isPaddedQuery (query : String) :
    (∀ e, parse query = .ok e ↔ IsPaddedQuery query.toList e) ∧
    ((∃ f, parse query = .error f ∧ f.kind = .config) ↔ ¬ ∃ e, IsPaddedQuery query.toList e) ∧
    ∀ l body key r rest, AreBlank l → AreBlank r → Content body key →
      segment ('[' :: (l ++ '"' :: (body ++ '"' :: (r ++ ']' :: rest)))) =
        .ok (.key (String.ofList key), rest) := by
  have hok : ∀ e, parse query = .ok e ↔ IsPaddedQuery query.toList e := by
    intro e
    rw [parse, mapError_eq_ok_iff, ofChars_eq_ok_iff, isQuery_trim_iff]
  refine ⟨hok, ?_, fun l body key r rest hl hr h => bracketed_quoted hl hr h rest⟩
  simp only [← hok]
  cases hparse : parse query with
  | ok e => simp
  | error f =>
    obtain ⟨fault, -, rfl⟩ := mapError_eq_error_iff.1 hparse
    simp [QueryError.toFailure]

example : parse " data.foo[\"a]b\"][ \"c\\\"]\" ][-07]" =
    .ok ⟨[.key "foo", .key "a]b", .key "c\"]", .index (-7)]⟩ := by decide +kernel

end AuthGate.EntryPoint
