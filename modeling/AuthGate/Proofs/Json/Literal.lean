import AuthGate.Json.Parser
import AuthGate.Proofs.Text.Blank
import AuthGate.Proofs.Text.Digits

set_option autoImplicit false

/-! # The grammar of string literals

What may stand between the quotes of a literal, and the text it stands for. The reader takes exactly
that (`body?_eq_some_iff`), and the search for the closing quote, which looks at backslashes and
quotes only, ends where the reader does (`afterQuote?_of_content`). The writer puts the text that it
is given between the quotes (`content_flatMap_encodeChar`). -/

namespace AuthGate.Json.Literal

/-- What stands between the quotes of a literal, and its text. -/
inductive Content : List Char → List Char → Prop
  | nil : Content [] []
  /-- A character that stands for itself. -/
  | plain {c : Char} {cs text : List Char} (quote : c ≠ '"') (backslash : c ≠ '\\')
      (control : 32 ≤ c.toNat) (rest : Content cs text) : Content (c :: cs) (c :: text)
  /-- A backslash and a letter for a character. -/
  | escape {c d : Char} {cs text : List Char} (letter : escaped? c = some d)
      (rest : Content cs text) : Content ('\\' :: c :: cs) (d :: text)
  /-- Four hexadecimal digits of a code point that is no surrogate. -/
  | unicode {a b c d : Char} {n : Nat} {cs text : List Char} (digits : hex4? a b c d = some n)
      (noHigh : isHighSurrogate n = false) (noLow : isLowSurrogate n = false)
      (rest : Content cs text) :
    Content ('\\' :: 'u' :: a :: b :: c :: d :: cs) (Char.ofNat n :: text)
  /-- Two surrogates, a high one and a low one, for one character. -/
  | pair {a b c d a' b' c' d' : Char} {high low : Nat} {cs text : List Char}
      (first : hex4? a b c d = some high) (isHigh : isHighSurrogate high = true)
      (second : hex4? a' b' c' d' = some low) (isLow : isLowSurrogate low = true)
      (rest : Content cs text) :
    Content ('\\' :: 'u' :: a :: b :: c :: d :: '\\' :: 'u' :: a' :: b' :: c' :: d' :: cs)
      (Literal.pair high low :: text)

/-! ## Reading -/

theorem bind_cons_eq_some_iff {x : Option (List Char × List Char)} {c : Char}
    {text rest : List Char} :
    (x >>= fun r => match r with | (t, r) => pure (c :: t, r)) = some (text, rest) ↔
      ∃ t, x = some (t, rest) ∧ c :: t = text := by
  rcases x with _ | ⟨t, r⟩
  · simp
  · simp only [Option.bind_eq_bind, Option.bind_some, Option.pure_def, Option.some.injEq,
      Prod.mk.injEq]
    constructor
    · rintro ⟨rfl, rfl⟩
      exact ⟨t, ⟨rfl, rfl⟩, rfl⟩
    · rintro ⟨t', ⟨rfl, rfl⟩, rfl⟩
      exact ⟨rfl, rfl⟩

theorem exists_content_of_body? {cs text rest : List Char} (h : body? cs = some (text, rest)) :
    ∃ body, cs = body ++ '"' :: rest ∧ Content body text := by
  fun_induction body? cs generalizing text rest with
  | case1 => cases h
  | case2 =>
    cases h
    exact ⟨[], rfl, .nil⟩
  | case3 a b c d after ihPair ih =>
    obtain ⟨n, hn, h⟩ := Option.bind_eq_some_iff.1 h
    cases hhigh : isHighSurrogate n with
    | true =>
      rw [hhigh, if_pos rfl] at h
      split at h
      · obtain ⟨m, hm, h⟩ := Option.bind_eq_some_iff.1 h
        cases hlow : isLowSurrogate m with
        | true =>
          rw [hlow, if_pos rfl] at h
          obtain ⟨t, ht, rfl⟩ := bind_cons_eq_some_iff.1 h
          obtain ⟨body, rfl, hbody⟩ := ihPair ht
          exact ⟨_, rfl, .pair hn hhigh hm hlow hbody⟩
        | false =>
          rw [hlow, if_neg Bool.false_ne_true] at h
          cases h
      · cases h
    | false =>
      rw [hhigh, if_neg Bool.false_ne_true] at h
      cases hlow : isLowSurrogate n with
      | true =>
        rw [hlow, if_pos rfl] at h
        cases h
      | false =>
        rw [hlow, if_neg Bool.false_ne_true] at h
        obtain ⟨t, ht, rfl⟩ := bind_cons_eq_some_iff.1 h
        obtain ⟨body, rfl, hbody⟩ := ih ht
        exact ⟨_, rfl, .unicode hn hhigh hlow hbody⟩
  | case4 c after _ ih =>
    obtain ⟨d, hd, h⟩ := Option.bind_eq_some_iff.1 h
    obtain ⟨t, ht, rfl⟩ := bind_cons_eq_some_iff.1 h
    obtain ⟨body, rfl, hbody⟩ := ih ht
    exact ⟨_, rfl, .escape hd hbody⟩
  | case5 => cases h
  | case6 c after hquote _ _ hplain ih =>
    obtain ⟨t, ht, rfl⟩ := bind_cons_eq_some_iff.1 h
    obtain ⟨body, rfl, hbody⟩ := ih ht
    simp only [Bool.or_eq_true, decide_eq_true_eq, not_or, Nat.not_lt] at hplain
    exact ⟨_, rfl, .plain hquote hplain.1 hplain.2 hbody⟩

theorem body?_of_content {body text : List Char} (h : Content body text) (rest : List Char) :
    body? (body ++ '"' :: rest) = some (text, rest) := by
  induction h with
  | nil => rw [List.nil_append, body?]
  | @plain c cs text quote backslash control _ ih =>
    have hplain : ¬ (decide (c = '\\') || decide (c.toNat < 32)) = true := by
      simp only [Bool.or_eq_true, decide_eq_true_eq, not_or, Nat.not_lt]
      exact ⟨backslash, control⟩
    rw [List.cons_append, body?.eq_5 _ _ quote (fun _ _ _ _ _ h => absurd h backslash)
      (fun _ _ h => absurd h backslash), if_neg hplain, ih]
    rfl
  | @escape c d cs text letter _ ih =>
    have hletter : c ≠ 'u' := by
      rintro rfl
      cases letter
    rw [List.cons_append, List.cons_append, body?.eq_4 _ _ fun _ _ _ _ _ h => absurd h hletter,
      letter, ih]
    rfl
  | unicode digits noHigh noLow _ ih =>
    simp only [List.cons_append]
    rw [body?.eq_3, digits]
    simp only [Option.bind_eq_bind, Option.bind_some, noHigh, noLow, ih]
    rfl
  | pair first isHigh second isLow _ ih =>
    simp only [List.cons_append]
    rw [body?.eq_3, first]
    simp only [Option.bind_eq_bind, Option.bind_some, isHigh, if_true, second, isLow, ih]
    rfl

/-- The text up to the closing quote can be read exactly if it is the content of a literal. -/
theorem body?_eq_some_iff {cs text rest : List Char} :
    body? cs = some (text, rest) ↔ ∃ body, cs = body ++ '"' :: rest ∧ Content body text := by
  constructor
  · exact exists_content_of_body?
  · rintro ⟨body, rfl, h⟩
    exact body?_of_content h rest

/-! ## The closing quote -/

/-- A hexadecimal digit is neither a quote nor a backslash. -/
theorem plain_of_digitValue? {c : Char} {d : Nat} (h : Text.digitValue? c = some d) :
    c ≠ '"' ∧ c ≠ '\\' := by
  constructor <;> (rintro rfl; cases h)

theorem digits_of_hex4? {a b c d : Char} {n : Nat} (h : hex4? a b c d = some n) :
    ∀ x ∈ [a, b, c, d], x ≠ '"' ∧ x ≠ '\\' := by
  obtain ⟨_, ha, h⟩ := Option.bind_eq_some_iff.1 h
  obtain ⟨_, hb, h⟩ := Option.bind_eq_some_iff.1 h
  obtain ⟨_, hc, h⟩ := Option.bind_eq_some_iff.1 h
  obtain ⟨_, hd, -⟩ := Option.bind_eq_some_iff.1 h
  simp only [List.forall_mem_cons, List.not_mem_nil, false_imp_iff, implies_true, and_true]
  exact ⟨plain_of_digitValue? ha, plain_of_digitValue? hb, plain_of_digitValue? hc,
    plain_of_digitValue? hd⟩

theorem afterQuote?_escape (c : Char) (cs : List Char) :
    afterQuote? ('\\' :: c :: cs) = afterQuote? cs := by
  rw [afterQuote?]

theorem afterQuote?_cons {c : Char} (hquote : c ≠ '"') (hbackslash : c ≠ '\\')
    (cs : List Char) : afterQuote? (c :: cs) = afterQuote? cs :=
  afterQuote?.eq_4 _ _ (fun _ _ h => absurd h hbackslash) hquote

theorem afterQuote?_plain {plain : List Char} (h : ∀ c ∈ plain, c ≠ '"' ∧ c ≠ '\\')
    (cs : List Char) : afterQuote? (plain ++ cs) = afterQuote? cs := by
  induction plain with
  | nil => rfl
  | cons c rest ih =>
    obtain ⟨⟨hquote, hbackslash⟩, hrest⟩ := List.forall_mem_cons.1 h
    rw [List.cons_append, afterQuote?_cons hquote hbackslash, ih hrest]

/-- The search for the closing quote ends where the literal does: neither a bracket nor an escaped
    quote or backslash ends it early. -/
theorem afterQuote?_of_content {body text : List Char} (h : Content body text)
    (rest : List Char) : afterQuote? (body ++ '"' :: rest) = some rest := by
  induction h with
  | nil => rw [List.nil_append, afterQuote?]
  | plain quote backslash _ _ ih => exact (afterQuote?_cons quote backslash _).trans ih
  | escape _ _ ih => exact (afterQuote?_escape _ _).trans ih
  | unicode digits _ _ _ ih =>
    have hplain := afterQuote?_plain (digits_of_hex4? digits)
    exact (afterQuote?_escape _ _).trans ((hplain _).trans ih)
  | pair first _ second _ _ ih =>
    have hfirst := afterQuote?_plain (digits_of_hex4? first)
    have hsecond := afterQuote?_plain (digits_of_hex4? second)
    exact (afterQuote?_escape _ _).trans ((hfirst _).trans
      ((afterQuote?_escape _ _).trans ((hsecond _).trans ih)))

/-- The search for the closing quote stops at a quote, whatever follows it. -/
theorem exists_of_afterQuote? {cs rest : List Char} (h : afterQuote? cs = some rest) :
    ∃ body, cs = body ++ '"' :: rest ∧
      ∀ other, afterQuote? (body ++ '"' :: other) = some other := by
  fun_induction afterQuote? cs with
  | case1 => cases h
  | case2 c after ih =>
    obtain ⟨body, rfl, hbody⟩ := ih h
    exact ⟨'\\' :: c :: body, rfl, fun other => (afterQuote?_escape _ _).trans (hbody other)⟩
  | case3 =>
    cases h
    exact ⟨[], rfl, fun other => by rw [List.nil_append, afterQuote?]⟩
  | case4 c after hlone hquote ih =>
    obtain ⟨body, rfl, hbody⟩ := ih h
    refine ⟨c :: body, rfl, fun other => ?_⟩
    have hbackslash : c ≠ '\\' := by
      rintro rfl
      cases body with
      | nil => exact hlone _ _ rfl rfl
      | cons b body => exact hlone _ _ rfl rfl
    exact (afterQuote?_cons hquote hbackslash _).trans (hbody other)

/-! ## Whole literals -/

theorem literal?_of_content {body text : List Char} (h : Content body text) :
    literal? ('"' :: (body ++ ['"'])) = some text := by
  have hdecode : decode? (skipSpace ('"' :: (body ++ ['"']))) = some (text, []) :=
    body?_of_content h []
  rw [literal?, hdecode]
  rfl

theorem exists_content_of_literal? {cs text : List Char} (h : literal? ('"' :: cs) = some text) :
    ∃ body r, cs = body ++ '"' :: r ∧ Content body text ∧ ∀ c ∈ r, isSpace c = true := by
  obtain ⟨⟨text', r⟩, hdecode, h⟩ := Option.bind_eq_some_iff.1 h
  obtain ⟨body, hcs, hbody⟩ := exists_content_of_body? hdecode
  simp only at h
  split at h
  · next hspace =>
    cases h
    refine ⟨body, r, hcs, hbody, ?_⟩
    exact List.dropWhile_eq_nil_iff.1 (List.isEmpty_iff.1 hspace)
  · cases h

/-! ## Writing -/

/-- A control character is written with the digits of its code point. -/
theorem hex4?_of_control {n : Nat} (h : n < 32) :
    hex4? '0' '0' (Text.hexDigit (n / 16)) (Text.hexDigit (n % 16)) = some n := by
  have hhigh := Text.digitValue?_hexDigit (d := n / 16) (by omega)
  have hlow := Text.digitValue?_hexDigit (d := n % 16) (by omega)
  have hzero : Text.digitValue? '0' = some 0 := rfl
  have hvalue : ((0 * 16 + 0) * 16 + n / 16) * 16 + n % 16 = n := by omega
  simp only [hex4?, hzero, hhigh, hlow, Option.bind_eq_bind, Option.bind_some, hvalue,
    Option.pure_def]

/-- What is written for a character reads as that character. -/
theorem Content.encodeChar {cs text : List Char} (h : Content cs text) (c : Char) :
    Content (encodeChar c ++ cs) (c :: text) := by
  have hc : Char.ofNat c.toNat = c := Char.ofNat_toNat c
  simp only [Literal.encodeChar]
  split
  · next hquote =>
    subst hquote
    exact .escape rfl h
  split
  · next hbackslash =>
    subst hbackslash
    exact .escape rfl h
  split
  · next hbackspace =>
    rw [hbackspace] at hc
    exact hc ▸ .escape rfl h
  split
  · next hfeed =>
    rw [hfeed] at hc
    exact hc ▸ .escape rfl h
  split
  · next hnewline =>
    subst hnewline
    exact .escape rfl h
  split
  · next hreturn =>
    subst hreturn
    exact .escape rfl h
  split
  · next htab =>
    subst htab
    exact .escape rfl h
  split
  · next hcontrol =>
    have hhigh : isHighSurrogate c.toNat = false := by
      simp only [isHighSurrogate, Bool.and_eq_false_iff, decide_eq_false_iff_not]
      omega
    have hlow : isLowSurrogate c.toNat = false := by
      simp only [isLowSurrogate, Bool.and_eq_false_iff, decide_eq_false_iff_not]
      omega
    have hcontent := Content.unicode (hex4?_of_control hcontrol) hhigh hlow h
    rwa [hc] at hcontent
  · next hquote hbackslash _ _ _ _ _ hplain =>
    exact .plain hquote hbackslash (Nat.not_lt.1 hplain) h

/-- What is written between the quotes of a literal reads as the text. -/
theorem content_flatMap_encodeChar (text : List Char) :
    Content (text.flatMap Literal.encodeChar) text := by
  induction text with
  | nil => exact .nil
  | cons c rest ih => exact ih.encodeChar c

end AuthGate.Json.Literal
