import AuthGate.Proofs.Text.Blank
import AuthGate.Server.Address

set_option autoImplicit false

/-! # Listener addresses as they are written

Which texts name an address, and which one: `Denotes` says so without the reader, and the reader
agrees with it. What is written for an address that was read names that address again, so a missing
host is filled in once. The main statement is `parse_denotes`. -/

namespace AuthGate.ListenAddress

/-! ## The grammar -/

/-- Host and port; no host is every interface. -/
def onAnyHost (hostPort : String) : String :=
  if hostPort.toList.head? = some ':' then "0.0.0.0" ++ hostPort else hostPort

/-- What names a socket after the scheme: a name after a mark, or else a path. -/
inductive DenotesSocket : String → ListenAddress → Prop
  | abstractSocket {name : String} (named : name ≠ "") :
    DenotesSocket ("@" ++ name) (.abstractSocket name)
  | unix {path : String} (given : path ≠ "") (noMark : path.toList.head? ≠ some '@') :
    DenotesSocket path (.unix path)

/-- The texts that name an address. -/
inductive Denotes : String → ListenAddress → Prop
  /-- Host and port without a scheme. -/
  | bare {hostPort : String} (noScheme : ¬ "://".toList <:+: hostPort.toList)
      (port : ':' ∈ hostPort.toList) : Denotes hostPort (.tcp (onAnyHost hostPort))
  | tcp {hostPort : String} (port : ':' ∈ hostPort.toList) :
    Denotes ("grpc://" ++ hostPort) (.tcp (onAnyHost hostPort))
  | socket {rest : String} {a : ListenAddress} (denotes : DenotesSocket rest a) :
    Denotes ("unix://" ++ rest) a

theorem toList_mark (name : String) : ("@" ++ name).toList = '@' :: name.toList := by
  rw [String.toList_append]
  rfl

/-- Neither nothing nor a mark alone names a socket; everything else does. -/
theorem exists_denotesSocket_iff {rest : String} :
    (∃ a, DenotesSocket rest a) ↔ rest ≠ "" ∧ rest ≠ "@" := by
  constructor
  · rintro ⟨_, h⟩
    cases h with
    | @abstractSocket name named =>
      constructor <;> intro heq <;> have hlist := congrArg String.toList heq <;>
        rw [toList_mark] at hlist
      · cases hlist
      · exact named (String.toList_eq_nil_iff.1 (List.cons.inj hlist).2)
    | unix given noMark =>
      refine ⟨given, ?_⟩
      rintro rfl
      exact noMark rfl
  · rintro ⟨hempty, hmark⟩
    by_cases hhead : rest.toList.head? = some '@'
    · obtain ⟨name, hname⟩ := List.head?_eq_some_iff.1 hhead
      have hrest : rest = "@" ++ String.ofList name := by
        rw [← String.toList_inj, toList_mark, @String.toList_ofList name, hname]
      have named : String.ofList name ≠ "" := fun hnone =>
        hmark (by rw [hrest, hnone, String.append_empty])
      exact ⟨_, hrest ▸ DenotesSocket.abstractSocket named⟩
    · exact ⟨_, .unix hempty hhead⟩

/-! ## After the scheme -/

theorem ofHostPort_eq_ok_iff {hostPort : String} {a : ListenAddress} :
    ofHostPort hostPort.toList = .ok a ↔ ':' ∈ hostPort.toList ∧ a = .tcp (onAnyHost hostPort) := by
  have hfilled : String.ofList (if hostPort.toList.head? = some ':' then
      "0.0.0.0".toList ++ hostPort.toList else hostPort.toList) = onAnyHost hostPort := by
    rw [onAnyHost, ← String.toList_inj, String.toList_ofList]
    split
    · rw [String.toList_append]
    · rfl
  rw [ofHostPort, hfilled]
  split
  · next h => simp [List.contains_iff_mem.1 h, eq_comm]
  · next h => simpa using fun hmem => absurd (List.contains_iff_mem.2 hmem) h

theorem ofSocket_eq_ok_iff {rest : String} {a : ListenAddress} :
    ofSocket rest.toList = .ok a ↔ DenotesSocket rest a := by
  constructor
  · intro h
    generalize hcs : rest.toList = cs at h
    obtain rfl : rest = String.ofList cs := by rw [← hcs, String.ofList_toList]
    simp only [ofSocket] at h
    split at h
    · cases h
    · cases h
    · next name hname =>
      cases h
      have hmark : String.ofList ('@' :: name) = "@" ++ String.ofList name := by
        rw [← String.toList_inj, toList_mark, String.toList_ofList, String.toList_ofList]
      rw [hmark]
      exact .abstractSocket fun hempty => hname (by rw [String.ofList_eq_empty_iff.1 hempty])
    · next hnil _ hmark =>
      cases h
      refine .unix (fun hempty => hnil (String.ofList_eq_empty_iff.1 hempty)) fun hhead => ?_
      rw [String.toList_ofList] at hhead
      obtain ⟨name, rfl⟩ := List.head?_eq_some_iff.1 hhead
      exact hmark name rfl
  · intro h
    cases h with
    | @abstractSocket name named =>
      have hne : name.toList ≠ [] := mt String.toList_eq_nil_iff.1 named
      rw [toList_mark, ofSocket, String.ofList_toList]
      simpa using hne
    | unix given noMark =>
      have hmark (name : List Char) : rest.toList ≠ '@' :: name := fun hname => by
        rw [hname] at noMark
        exact noMark rfl
      rw [ofSocket, String.ofList_toList]
      · exact mt String.toList_eq_nil_iff.1 given
      · exact hmark []
      · exact hmark

/-! ## Schemes -/

theorem occursIn_schemeMark_iff {cs : List Char} :
    Text.occursIn schemeMark cs = true ↔ "://".toList <:+: cs :=
  Text.occursIn_iff_infix

theorem parse_bare {text : String} (h : ¬ "://".toList <:+: text.toList) :
    parse text = ofHostPort text.toList := by
  have hmark : Text.occursIn schemeMark text.toList = false :=
    Bool.eq_false_iff.2 fun hoccurs => h (occursIn_schemeMark_iff.1 hoccurs)
  have hscheme : Text.dropStart? tcpScheme (tcpScheme ++ text.toList) = some text.toList :=
    Text.dropStart?_eq_some_iff.2 rfl
  simp only [parse, hmark, Bool.false_eq_true, if_false, hscheme]

theorem parse_tcp (hostPort : String) :
    parse ("grpc://" ++ hostPort) = ofHostPort hostPort.toList := by
  have htext : ("grpc://" ++ hostPort).toList = tcpScheme ++ hostPort.toList :=
    String.toList_append
  have hmark : Text.occursIn schemeMark (tcpScheme ++ hostPort.toList) = true :=
    occursIn_schemeMark_iff.2 ⟨"grpc".toList, hostPort.toList, rfl⟩
  have hscheme : Text.dropStart? tcpScheme (tcpScheme ++ hostPort.toList) = some hostPort.toList :=
    Text.dropStart?_eq_some_iff.2 rfl
  simp only [parse, htext, hmark, if_true, hscheme]

theorem parse_unix (rest : String) : parse ("unix://" ++ rest) = ofSocket rest.toList := by
  have htext : ("unix://" ++ rest).toList = unixScheme ++ rest.toList := String.toList_append
  have hmark : Text.occursIn schemeMark (unixScheme ++ rest.toList) = true :=
    occursIn_schemeMark_iff.2 ⟨"unix".toList, rest.toList, rfl⟩
  have hother : Text.dropStart? tcpScheme (unixScheme ++ rest.toList) = none := by
    refine Option.eq_none_iff_forall_ne_some.2 fun hostPort h => ?_
    have hhead : some 'u' = some 'g' := congrArg List.head? (Text.dropStart?_eq_some_iff.1 h)
    exact absurd hhead (by decide)
  have hscheme : Text.dropStart? unixScheme (unixScheme ++ rest.toList) = some rest.toList :=
    Text.dropStart?_eq_some_iff.2 rfl
  simp only [parse, htext, hmark, if_true, hother, hscheme]

theorem eq_append_of_dropStart? {start text : String} {rest : List Char}
    (h : Text.dropStart? start.toList text.toList = some rest) :
    text = start ++ String.ofList rest := by
  rw [← String.toList_inj, Text.dropStart?_eq_some_iff.1 h, String.toList_append,
    @String.toList_ofList rest]

/-- A text has no scheme, or one of the two, or it names no address. -/
theorem scheme_cases (text : String) :
    ¬ "://".toList <:+: text.toList ∨ (∃ hostPort, text = "grpc://" ++ hostPort) ∨
      (∃ rest, text = "unix://" ++ rest) ∨
      parse text = .error ⟨.listener, s!"invalid url scheme in address {Text.quoted text}"⟩ := by
  by_cases hmark : "://".toList <:+: text.toList
  · right
    have hoccurs : Text.occursIn schemeMark text.toList = true := occursIn_schemeMark_iff.2 hmark
    cases htcp : Text.dropStart? tcpScheme text.toList with
    | some hostPort => exact .inl ⟨_, eq_append_of_dropStart? htcp⟩
    | none =>
      right
      cases hunix : Text.dropStart? unixScheme text.toList with
      | some rest => exact .inl ⟨_, eq_append_of_dropStart? hunix⟩
      | none =>
        right
        simp only [parse, hoccurs, if_true, htcp, hunix, String.ofList_toList]
  · exact .inl hmark

/-! ## Reading -/

theorem parse_eq_ok_iff_denotes {text : String} {a : ListenAddress} :
    parse text = .ok a ↔ Denotes text a := by
  constructor
  · intro h
    rcases scheme_cases text with hbare | ⟨hostPort, rfl⟩ | ⟨rest, rfl⟩ | herror
    · rw [parse_bare hbare] at h
      obtain ⟨hport, rfl⟩ := ofHostPort_eq_ok_iff.1 h
      exact .bare hbare hport
    · rw [parse_tcp] at h
      obtain ⟨hport, rfl⟩ := ofHostPort_eq_ok_iff.1 h
      exact .tcp hport
    · rw [parse_unix] at h
      exact .socket (ofSocket_eq_ok_iff.1 h)
    · rw [herror] at h
      cases h
  · intro h
    cases h with
    | bare noScheme port =>
      rw [parse_bare noScheme]
      exact ofHostPort_eq_ok_iff.2 ⟨port, rfl⟩
    | tcp port =>
      rw [parse_tcp]
      exact ofHostPort_eq_ok_iff.2 ⟨port, rfl⟩
    | socket denotes =>
      rw [parse_unix]
      exact ofSocket_eq_ok_iff.2 denotes

theorem exists_denotes_iff {text : String} : (∃ a, Denotes text a) ↔
    ¬ "://".toList <:+: text.toList ∧ ':' ∈ text.toList ∨
      (∃ hostPort, text = "grpc://" ++ hostPort ∧ ':' ∈ hostPort.toList) ∨
      ∃ rest, text = "unix://" ++ rest ∧ rest ≠ "" ∧ rest ≠ "@" := by
  constructor
  · rintro ⟨_, h⟩
    cases h with
    | bare noScheme port => exact .inl ⟨noScheme, port⟩
    | tcp port => exact .inr (.inl ⟨_, rfl, port⟩)
    | socket denotes => exact .inr (.inr ⟨_, rfl, exists_denotesSocket_iff.1 ⟨_, denotes⟩⟩)
  · rintro (⟨noScheme, port⟩ | ⟨hostPort, rfl, port⟩ | ⟨rest, rfl, h⟩)
    · exact ⟨_, .bare noScheme port⟩
    · exact ⟨_, .tcp port⟩
    · obtain ⟨a, denotes⟩ := exists_denotesSocket_iff.2 h
      exact ⟨a, .socket denotes⟩

theorem kind_of_parse_error {text : String} {f : Failure} (h : parse text = .error f) :
    f.kind = .listener := by
  have hhostPort : ∀ cs, ofHostPort cs = .error f → f.kind = .listener := by
    intro cs hcs
    rw [ofHostPort] at hcs
    split at hcs
    · cases hcs
    · cases hcs
      rfl
  rcases scheme_cases text with hbare | ⟨hostPort, rfl⟩ | ⟨rest, rfl⟩ | herror
  · exact hhostPort _ (parse_bare hbare ▸ h)
  · exact hhostPort _ (parse_tcp hostPort ▸ h)
  · rw [parse_unix] at h
    simp only [ofSocket] at h
    split at h <;> cases h <;> rfl
  · obtain rfl := Except.error.inj (herror.symm.trans h)
    rfl

/-! ## Writing -/

theorem render_tcp (hostPort : String) : (tcp hostPort).render = "grpc://" ++ hostPort := by
  rw [← String.toList_inj, String.toList_append]
  exact String.toList_ofList

theorem render_unix (path : String) : (unix path).render = "unix://" ++ path := by
  rw [← String.toList_inj, String.toList_append]
  exact String.toList_ofList

theorem render_abstractSocket (name : String) :
    (abstractSocket name).render = "unix://" ++ ("@" ++ name) := by
  rw [← String.toList_inj, String.toList_append, toList_mark]
  exact String.toList_ofList

theorem onAnyHost_onAnyHost (hostPort : String) :
    onAnyHost (onAnyHost hostPort) = onAnyHost hostPort := by
  by_cases h : hostPort.toList.head? = some ':'
  · have hfilled : onAnyHost hostPort = "0.0.0.0" ++ hostPort := if_pos h
    rw [hfilled, onAnyHost, if_neg]
    simp [String.toList_append]
  · have hkept : onAnyHost hostPort = hostPort := if_neg h
    rw [hkept, hkept]

theorem mem_onAnyHost {hostPort : String} (h : ':' ∈ hostPort.toList) :
    ':' ∈ (onAnyHost hostPort).toList := by
  rw [onAnyHost]
  split
  · rw [String.toList_append]
    exact List.mem_append_right _ h
  · exact h

/-- What is written for host and port names them, with the host filled in before. -/
theorem denotes_render_onAnyHost {hostPort : String} (h : ':' ∈ hostPort.toList) :
    Denotes (tcp (onAnyHost hostPort)).render (.tcp (onAnyHost hostPort)) := by
  have hdenotes := Denotes.tcp (mem_onAnyHost h)
  rwa [onAnyHost_onAnyHost, ← render_tcp] at hdenotes

/-- What is written for an address that is named by a text names it too. -/
theorem Denotes.render {text : String} {a : ListenAddress} (h : Denotes text a) :
    Denotes a.render a := by
  cases h with
  | bare _ port => exact denotes_render_onAnyHost port
  | tcp port => exact denotes_render_onAnyHost port
  | socket denotes =>
    cases denotes with
    | abstractSocket named => exact render_abstractSocket _ ▸ .socket (.abstractSocket named)
    | unix given noMark => exact render_unix _ ▸ .socket (.unix given noMark)

/-- Which texts are read as an address: host and port, with or without their scheme, and after the
    scheme of sockets a path, or a mark and a name. Every other text is a failure of the listener.
    Reading what is written for an address that was read gives that address again, and writing that
    gives the same text. -/
theorem parse_denotes :
    (∀ text a, parse text = .ok a ↔ Denotes text a) ∧
    (∀ text, (∃ a, parse text = .ok a) ↔
      ¬ "://".toList <:+: text.toList ∧ ':' ∈ text.toList ∨
        (∃ hostPort, text = "grpc://" ++ hostPort ∧ ':' ∈ hostPort.toList) ∨
        ∃ rest, text = "unix://" ++ rest ∧ rest ≠ "" ∧ rest ≠ "@") ∧
    (∀ text f, parse text = .error f → f.kind = .listener) ∧
    ∀ text a, parse text = .ok a →
      parse a.render = .ok a ∧ ∀ a', parse a.render = .ok a' → a'.render = a.render := by
  refine ⟨fun _ _ => parse_eq_ok_iff_denotes, fun text => ?_, fun _ _ => kind_of_parse_error,
    fun text a h => ?_⟩
  · simp only [parse_eq_ok_iff_denotes, exists_denotes_iff]
  · have hagain : parse a.render = .ok a :=
      parse_eq_ok_iff_denotes.2 (parse_eq_ok_iff_denotes.1 h).render
    refine ⟨hagain, fun a' h' => ?_⟩
    rw [Except.ok.inj (hagain.symm.trans h')]

/-- A port without a host, and behind it what looks like a socket but for a slash. -/
def oddAddress : ListenAddress := .tcp "0.0.0.0:9191:unix:/@a"

theorem parse_denotes_odd :
    parse ":9191:unix:/@a" = .ok oddAddress ∧ parse oddAddress.render = .ok oddAddress ∧
      ∀ a, parse oddAddress.render = .ok a → a.render = "grpc://0.0.0.0:9191:unix:/@a" := by
  obtain ⟨hreads, -, -, hagain⟩ := parse_denotes
  have hdenotes : Denotes ":9191:unix:/@a" oddAddress :=
    .bare (by decide +kernel) (by decide +kernel)
  have hread := (hreads _ _).2 hdenotes
  obtain ⟨hparse, hrender⟩ := hagain _ _ hread
  exact ⟨hread, hparse, hrender⟩

end AuthGate.ListenAddress
