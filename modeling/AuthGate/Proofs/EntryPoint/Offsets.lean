import AuthGate.Proofs.EntryPoint.Cursor

set_option autoImplicit false

/-! # Queries are read within their text

A reader by offsets never goes astray, since each offset that it adds up is the width of what it has
read (`identifier_eq`, `bracket_eq`, `iterate_cons`); it therefore reads what the reader of the rest
reads (`read_eq`). An iteration of its loop takes at least one byte (`pos_lt_of_iterate`). The main
statement is `ends_within`. -/

namespace AuthGate.EntryPoint.Cursor

open Text.Utf8 (width width_append width_sub length_le_width)

/-! ## The two readers -/

variable {α : Type}

/-- A fault that a reader finds in what is left, with the offset at which that begins. -/
def refusal (source : List Char) (e : QueryError) : Stop :=
  .refused e.fault (QueryError.offset source e)

/-- What a reader gives that takes what is left, as one by offsets gives it. -/
def locate (source : List Char) : Except QueryError (α × List Char) → Except Stop (α × Nat)
  | .ok (a, rest) => .ok (a, width source - width rest)
  | .error e => .error (refusal source e)

theorem locate_ok (before after : List Char) (a : α) :
    locate (before ++ after) (.ok (a, after)) = .ok (a, width before) := by
  rw [locate, width_sub]

theorem locate_error (before after : List Char) (fault : QueryFault) :
    locate (before ++ after) (.error ⟨fault, after⟩ : Except QueryError (α × List Char)) =
      .error (.refused fault (width before)) := by
  rw [locate, refusal, QueryError.offset, width_sub]

theorem toNat_lt_of_isMedial {c : Char} (h : isMedial c = true) : c.toNat < 0x80 := by
  simp only [isMedial, isInitial, Text.isDigit, Bool.or_eq_true, Bool.and_eq_true,
    decide_eq_true_eq, beq_iff_eq, Text.le_iff_toNat_le] at h
  rcases h with ((h | h) | rfl) | h
  · exact Nat.lt_of_le_of_lt h.2 (by decide)
  · exact Nat.lt_of_le_of_lt h.2 (by decide)
  · decide
  · exact Nat.lt_of_le_of_lt h.2 (by decide)

/-- An identifier has as many bytes as characters. -/
theorem width_identifier {c : Char} (hc : isInitial c = true) (rest : List Char) :
    width (c :: rest.takeWhile isMedial) = (rest.takeWhile isMedial).length + 1 := by
  refine Text.Utf8.width_of_ascii fun d hd => toNat_lt_of_isMedial ?_
  rcases List.mem_cons.1 hd with rfl | hd
  · rw [isMedial, hc, Bool.true_or]
  · exact List.mem_takeWhile_imp hd

theorem identifier_eq (before cs : List Char) :
    identifier (before ++ cs) (width before) = locate (before ++ cs) (EntryPoint.identifier cs) := by
  simp only [identifier, tailFrom_width, bind, Except.bind]
  cases cs with
  | nil => exact (locate_error before [] .noIdentifier).symm
  | cons c rest =>
    have hfirst : belongs (0, c) = isInitial c := by simp [belongs]
    rw [indexed, List.takeWhile_cons, hfirst, EntryPoint.identifier]
    cases hc : isInitial c with
    | false =>
      simp only [Bool.false_eq_true, if_false]
      exact (locate_error before (c :: rest) .noIdentifier).symm
    | true =>
      have hpos : 0 < 0 + c.utf8Size := Nat.add_pos_right _ c.utf8Size_pos
      have hsplit : c :: rest = (c :: rest.takeWhile isMedial) ++ rest.dropWhile isMedial := by
        rw [List.cons_append, List.takeWhile_append_dropWhile]
      have hname : headUpTo (c :: rest) ((rest.takeWhile isMedial).length + 1) =
          .ok (c :: rest.takeWhile isMedial) := by
        rw [hsplit, ← width_identifier hc]
        exact headUpTo_width _ _
      have hlocate : locate (before ++ c :: rest)
          (.ok (c :: rest.takeWhile isMedial, rest.dropWhile isMedial)) =
            .ok (c :: rest.takeWhile isMedial,
              width before + ((rest.takeWhile isMedial).length + 1)) := by
        rw [hsplit, ← List.append_assoc, locate_ok, width_append, width_identifier hc]
      simp only [if_true, List.length_cons, length_takeWhile_belongs hpos, hname, hlocate]
      rfl

/-- The brackets closed behind what stands in front, by a reader that takes what is left. -/
def closed (quoted : Bool) (front back : List Char) : Except QueryError (RefTerm × List Char) :=
  match upToBracket back with
  | none => .error ⟨.openBracket, front ++ back⟩
  | some (inner, after) =>
    match element quoted (Text.trim (front ++ inner)) with
    | .ok term => .ok (term, after)
    | .error fault => .error ⟨fault, after⟩

theorem close_eq (before front back : List Char) (quoted : Bool) :
    close (width before) (front ++ back) quoted (width front) =
      locate (before ++ (front ++ back)) (closed quoted front back) := by
  simp only [close, tailFrom_width, bind, Except.bind, find?_eq, closed, upToBracket]
  cases hsplit : Text.splitOnce ']' back with
  | none => exact (locate_error before (front ++ back) .openBracket).symm
  | some parts =>
    obtain ⟨inner, after⟩ := parts
    obtain ⟨rfl, -⟩ := Text.splitOnce_eq_some_iff.1 hsplit
    have hbracket : ']'.utf8Size = 1 := rfl
    have hinner : headUpTo (front ++ (inner ++ ']' :: after)) (width front + width inner) =
        .ok (front ++ inner) := by
      rw [← List.append_assoc, ← width_append]
      exact headUpTo_width _ _
    have hsource : before ++ (front ++ (inner ++ ']' :: after)) =
        (before ++ (front ++ inner ++ [']'])) ++ after := by simp
    have hpos : width before + (width front + width inner + 1) =
        width (before ++ (front ++ inner ++ [']'])) := by
      simp only [width_append, width, hbracket]
    simp only [Option.map_some, hinner, hpos, hsource]
    cases element quoted (Text.trim (front ++ inner)) with
    | ok term => exact (locate_ok _ after term).symm
    | error fault => exact (locate_error _ after fault).symm

theorem bracketed_of_ne_quote {cs : List Char} (h : (Text.trimLeft cs).head? ≠ some '"') :
    bracketed cs = closed false [] cs := by
  rw [bracketed, closed]
  split
  · next body hbody => exact absurd (by rw [hbody]; rfl) h
  · cases upToBracket cs with
    | none => rfl
    | some parts =>
      obtain ⟨inner, after⟩ := parts
      simp only [List.nil_append, element, Bool.false_eq_true, if_false]
      cases Text.int64? (Text.trim inner) <;> rfl

theorem bracketed_of_quote {l content tail : List Char} (hl : Text.AreBlank l)
    (htail : Json.Literal.afterQuote? (content ++ '"' :: tail) = some tail) :
    bracketed (l ++ '"' :: (content ++ '"' :: tail)) =
      closed true (l ++ '"' :: (content ++ ['"'])) tail := by
  have hquote : Text.isBlank '"' = false := by decide
  have hcs : l ++ '"' :: (content ++ '"' :: tail) = (l ++ '"' :: (content ++ ['"'])) ++ tail := by
    simp
  rw [bracketed, closed, Text.trimLeft_append hl, Text.trimLeft_cons hquote]
  simp only [htail, hcs, take_literal]
  cases upToBracket tail with
  | none => rfl
  | some parts =>
    obtain ⟨extra, after⟩ := parts
    have htrim : Text.trim ((l ++ '"' :: (content ++ ['"'])) ++ extra) =
        Text.trimRight ('"' :: (content ++ ['"']) ++ extra) := by
      rw [Text.trim, List.append_assoc, Text.trimLeft_append hl, List.cons_append,
        Text.trimLeft_cons hquote]
    simp only [htrim, element, if_true]
    cases Json.literal? (Text.trimRight ('"' :: (content ++ ['"']) ++ extra)) <;> rfl

theorem less_width (before after : List Char) :
    less (width (before ++ after)) (width after) = .ok (width before) := by
  rw [less, width_append, if_pos (Nat.le_add_left ..), Nat.add_sub_cancel]

theorem closingQuote?_of_afterQuote? {content tail : List Char}
    (htail : Json.Literal.afterQuote? (content ++ '"' :: tail) = some tail) :
    closingQuote? ('"' :: (content ++ '"' :: tail)) = some (width ('"' :: (content ++ ['"']))) := by
  have hquote : '"'.utf8Size = 1 := rfl
  rw [closingQuote?_eq, htail, Option.map_some]
  refine congrArg some ?_
  simp only [width_append, width, hquote]
  omega

theorem bracket_eq (before cs : List Char) :
    bracket (before ++ cs) (width before) = locate (before ++ cs) (bracketed cs) := by
  obtain ⟨l, hl, hcs⟩ := Text.exists_trimLeft cs
  have hstart := less_width l (Text.trimLeft cs)
  have hinside := tailFrom_width l (Text.trimLeft cs)
  rw [← hcs] at hstart hinside
  simp only [bracket, tailFrom_width, bind, Except.bind, hstart, hinside]
  by_cases hquoted : (Text.trimLeft cs).head? = some '"'
  · obtain ⟨body, hbody⟩ := List.head?_eq_some_iff.1 hquoted
    simp only [searchFrom, hquoted, if_true, decide_true]
    rw [hbody] at hcs ⊢
    cases htail : Json.Literal.afterQuote? body with
    | none =>
      have hopen : bracketed cs = .error ⟨.openKey, cs⟩ := by
        rw [bracketed, hbody]
        simp only [htail]
      rw [closingQuote?_eq, htail, hopen, locate_error]
      rfl
    | some tail =>
      obtain ⟨content, rfl, -⟩ := Json.Literal.exists_of_afterQuote? htail
      have hfront : cs = (l ++ '"' :: (content ++ ['"'])) ++ tail := by simp [hcs]
      have hread := bracketed_of_quote hl htail
      rw [← hcs] at hread
      simp only [closingQuote?_of_afterQuote? htail, ← width_append]
      rw [hread, hfront, close_eq]
  · simp only [searchFrom, if_neg hquoted, decide_eq_false hquoted]
    rw [bracketed_of_ne_quote hquoted]
    exact close_eq before [] cs false

/-! ## The loop -/

theorem iterate_nil (source : List Char) (terms : List RefTerm) :
    iterate source ⟨width source, terms⟩ = .ok none := by
  simp only [iterate, tailFrom_end, bind, Except.bind]
  rfl

theorem iterate_dot (before rest : List Char) (terms : List RefTerm) :
    iterate (before ++ '.' :: rest) ⟨width before, terms⟩ =
      (locate (before ++ '.' :: rest) (segment ('.' :: rest))).map
        fun r => some ⟨r.2, terms ++ [r.1]⟩ := by
  have hsource : before ++ '.' :: rest = (before ++ ['.']) ++ rest := by simp
  have hpos : width before + 1 = width (before ++ ['.']) := by rw [width_append]; rfl
  simp only [iterate, tailFrom_width, bind, Except.bind, hpos, segment]
  rw [hsource, identifier_eq]
  cases EntryPoint.identifier rest <;> rfl

theorem iterate_bracket (before rest : List Char) (terms : List RefTerm) :
    iterate (before ++ '[' :: rest) ⟨width before, terms⟩ =
      (locate (before ++ '[' :: rest) (segment ('[' :: rest))).map
        fun r => some ⟨r.2, terms ++ [r.1]⟩ := by
  have hsource : before ++ '[' :: rest = (before ++ ['[']) ++ rest := by simp
  have hpos : width before + 1 = width (before ++ ['[']) := by rw [width_append]; rfl
  simp only [iterate, tailFrom_width, bind, Except.bind, hpos, segment]
  rw [hsource, bracket_eq]
  cases bracketed rest <;> rfl

/-- One iteration of the loop reads one segment of what is left. -/
theorem iterate_cons (before : List Char) (c : Char) (rest : List Char) (terms : List RefTerm) :
    iterate (before ++ c :: rest) ⟨width before, terms⟩ =
      (locate (before ++ c :: rest) (segment (c :: rest))).map
        fun r => some ⟨r.2, terms ++ [r.1]⟩ := by
  by_cases hdot : c = '.'
  · subst hdot
    exact iterate_dot before rest terms
  by_cases hbracket : c = '['
  · subst hbracket
    exact iterate_bracket before rest terms
  · have hsegment : segment (c :: rest) = .error ⟨.unexpected c, c :: rest⟩ :=
      segment.eq_3 c rest hdot hbracket
    rw [hsegment, locate_error]
    simp only [iterate, tailFrom_width, bind, Except.bind]
    rfl

theorem segments_nil (fuel : Nat) : segments fuel [] = .ok [] := by
  cases fuel <;> rw [segments]

theorem segments_cons (fuel : Nat) (c : Char) (rest : List Char) :
    segments (fuel + 1) (c :: rest) = (do
      let (term, after) ← segment (c :: rest)
      let terms ← segments fuel after
      return term :: terms) := by
  rw [segments]
  simp

/-- The loop reads the segments of what is left, one in each iteration. -/
theorem loop_eq {cs : List Char} {iterations fuel : Nat} (hiterations : cs.length ≤ iterations)
    (hfuel : cs.length ≤ fuel) (before : List Char) (terms : List RefTerm) :
    loop (before ++ cs) iterations ⟨width before, terms⟩ =
      ((segments fuel cs).map (terms ++ ·)).mapError (refusal (before ++ cs)) := by
  induction iterations generalizing fuel cs before terms with
  | zero =>
    obtain rfl := List.eq_nil_of_length_eq_zero (Nat.le_zero.1 hiterations)
    rw [List.append_nil, loop, segments_nil]
    simp only [tailFrom_end, bind, Except.bind, Except.map, List.append_nil]
    rfl
  | succ n ih =>
    cases cs with
    | nil =>
      rw [List.append_nil, loop, iterate_nil, segments_nil]
      simp only [bind, Except.bind, Except.map, List.append_nil]
      rfl
    | cons c rest =>
      obtain ⟨fuel, rfl⟩ : ∃ k, fuel = k + 1 := Nat.exists_eq_add_one.2 (Nat.zero_lt_of_lt hfuel)
      rw [loop, iterate_cons, segments_cons]
      cases hsegment : segment (c :: rest) with
      | error e => rfl
      | ok r =>
        obtain ⟨term, after⟩ := r
        obtain ⟨text, htext, hread⟩ := exists_segment_of_eq_ok hsegment
        rw [htext] at hiterations hfuel ⊢
        have hnext := ih (hread.length_rest_le hiterations) (hread.length_rest_le hfuel)
          (before ++ text) (terms ++ [term])
        rw [List.append_assoc] at hnext
        have hlocate := locate_ok (before ++ text) after term
        rw [List.append_assoc] at hlocate
        rw [hlocate]
        simp only [bind, Except.bind, Except.map, hnext]
        cases segments fuel after with
        | error e => rfl
        | ok more => simp [Except.mapError, pure, Except.pure]

/-- An iteration that goes on moves the offset forward, to another boundary of the text. -/
theorem pos_lt_of_iterate {source : List Char} {s s' : State}
    (h : iterate source s = .ok (some s')) : s.pos < s'.pos ∧ IsBoundary source s'.pos := by
  obtain ⟨rest, hrest, -⟩ := bind_eq_ok_iff.1 h
  obtain ⟨⟨before, after⟩, hcut, -⟩ := map_eq_ok_iff.1 hrest
  obtain ⟨rfl, hpos⟩ := cut_eq_ok_iff.1 hcut
  obtain ⟨pos, terms⟩ := s
  subst hpos
  cases after with
  | nil =>
    rw [List.append_nil, iterate_nil] at h
    cases h
  | cons c after =>
    rw [iterate_cons] at h
    obtain ⟨r, hlocate, hnext⟩ := map_eq_ok_iff.1 h
    cases hsegment : segment (c :: after) with
    | error e =>
      rw [hsegment] at hlocate
      cases hlocate
    | ok found =>
      obtain ⟨term, left⟩ := found
      obtain ⟨text, htext, hread⟩ := exists_segment_of_eq_ok hsegment
      rw [hsegment, htext, ← List.append_assoc, locate_ok] at hlocate
      cases hlocate
      cases hnext
      have htaken := Nat.lt_of_lt_of_le (List.length_pos_iff.2 hread.ne_nil) (length_le_width text)
      refine ⟨?_, before ++ text, left, by rw [htext, List.append_assoc], rfl⟩
      simp only [width_append]
      omega

/-- With as many iterations as the text has characters the reader by offsets comes to the end, and
    it reads what the other one reads. -/
theorem read_eq {source : List Char} {iterations : Nat} (h : width source ≤ iterations) :
    read source iterations = (ofChars source).mapError (refusal source) := by
  have hhead : identifier source 0 = locate source (EntryPoint.identifier source) :=
    identifier_eq [] source
  rw [read, hhead, ofChars]
  cases hname : EntryPoint.identifier source with
  | error e => rfl
  | ok found =>
    obtain ⟨head, rest⟩ := found
    obtain ⟨-, rfl, -⟩ := identifier_eq_ok_iff.1 hname
    rw [locate_ok]
    simp only [bind, Except.bind]
    split
    · have hrest : rest.length ≤ iterations := by
        refine Nat.le_trans (Nat.le_trans (length_le_width rest) ?_) h
        rw [width_append]
        exact Nat.le_add_left ..
      rw [loop_eq hrest (Nat.le_refl _)]
      cases segments rest.length rest <;> rfl
    · exact congrArg Except.error
        (by rw [refusal, QueryError.offset, width_sub])

/-! ## Queries -/

/-- The failure of a text that was found to be no query at an offset. -/
def failure (source : List Char) (fault : QueryFault) (pos : Nat) : Failure :=
  ⟨.config, s!"failed to parse query {Text.quoted (String.ofList source)} at offset " ++
    s!"{pos}: {fault.message}"⟩

/-- The text of a query without the blanks around it. -/
def source (query : String) : List Char := Text.trim query.toList

/-- How a reader by offsets ends that never goes astray: with the entry point of the query, or with
    its failure, found at an offset of the text. -/
inductive Ends (query : String) : Except Stop EntryPoint → Prop
  | read {e : EntryPoint} (parsed : parse query = .ok e) : Ends query (.ok e)
  | refused {fault : QueryFault} {pos : Nat} (within : pos ≤ width (source query))
    (failed : parse query = .error (failure (source query) fault pos)) :
    Ends query (.error (.refused fault pos))

theorem ends_read (query : String) {iterations : Nat} (h : width (source query) ≤ iterations) :
    Ends query (read (source query) iterations) := by
  have hparse : parse query =
      (ofChars (source query)).mapError (QueryError.toFailure (source query)) := rfl
  rw [read_eq h]
  cases hread : ofChars (source query) with
  | ok e => exact .read (by rw [hparse, hread]; rfl)
  | error e => exact .refused (Nat.sub_le _ _) (by rw [hparse, hread]; rfl)

/-- Every query is read by offsets without going astray: whatever its characters are, the text is
    cut only at its boundaries, no offset gets below zero, the loop ends after at most as many
    iterations as the text has bytes, and a failure names an offset of the text. An iteration that
    goes on moves the offset forward. -/
theorem ends_within (query : String) :
    (∀ iterations, width (source query) ≤ iterations →
      Ends query (read (source query) iterations)) ∧
    (∀ s s', iterate (source query) s = .ok (some s') →
      s.pos < s'.pos ∧ IsBoundary (source query) s'.pos) ∧
    ∀ text pos, ((∃ parts, cut text pos = .ok parts) ↔ IsBoundary text pos) ∧
      (IsBoundary text pos → pos ≤ width text) :=
  ⟨fun _ => ends_read query, fun _ _ => pos_lt_of_iterate,
    fun _ _ => ⟨exists_cut_eq_ok_iff, IsBoundary.le_width⟩⟩

/-- A key with a bracket in it, and a letter where only ASCII may stand. -/
def oddQuery : String := "\u3000data[\u00A0\"ü]\"].é "

theorem ends_within_oddQuery :
    width (source oddQuery) = 16 ∧
      read (source oddQuery) 16 = .error (.refused .noIdentifier 14) ∧
      parse oddQuery = .error (failure (source oddQuery) .noIdentifier 14) ∧
      iterate (source oddQuery) ⟨4, []⟩ = .ok (some ⟨13, [.key "ü]"]⟩) ∧
      IsBoundary (source oddQuery) 13 := by
  obtain ⟨hends, hstep, -⟩ := ends_within oddQuery
  have hwidth : width (source oddQuery) = 16 := by decide +kernel
  have hread : read (source oddQuery) 16 = .error (.refused .noIdentifier 14) := by decide +kernel
  have hnext : iterate (source oddQuery) ⟨4, []⟩ = .ok (some ⟨13, [.key "ü]"]⟩) := by
    decide +kernel
  have hfailed : parse oddQuery = .error (failure (source oddQuery) .noIdentifier 14) := by
    have hend := hends 16 (Nat.le_of_eq hwidth)
    rw [hread] at hend
    cases hend with
    | refused within failed => exact failed
  exact ⟨hwidth, hread, hfailed, hnext, (hstep _ _ hnext).2⟩

end AuthGate.EntryPoint.Cursor
