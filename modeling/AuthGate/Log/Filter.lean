import AuthGate.Log.Event
import AuthGate.Text.Blank
import AuthGate.Text.Digits

set_option autoImplicit false

/-! # Log filters

Which events are logged is said by directives between commas: a level for all targets, or a level
for the targets that begin with a text. The directive with the longest such text decides about an
event, and of two with the same text the later. An event that no directive is about is not
logged. -/

namespace AuthGate

/-- What a filter says about the targets that begin with a text. -/
structure LogDirective where
  target : List Char
  /-- The rank of the least grave level that is logged; with 0 nothing is. -/
  rank : Nat
  deriving DecidableEq, Repr

/-- A filter. -/
structure LogFilter where
  directives : List LogDirective
  deriving DecidableEq, Repr

namespace LogFilter

/-- The names of the ranks. -/
def rankNames : List (String × Nat) :=
  [("off", 0), ("error", 1), ("warn", 2), ("info", 3), ("debug", 4), ("trace", 5)]

/-- The rank of a level's name or number. -/
def rank? (cs : List Char) : Option Nat :=
  match Text.unsignedInBase? 10 cs with
  | some n => if n ≤ 5 then some n else none
  | none => (rankNames.find? fun (name, _) => Text.sameIgnoringCase name.toList cs).map (·.2)

/-- The rank of what stands for a level; nothing stands for all levels. -/
def rankOrAll? (cs : List Char) : Option Nat := if cs.isEmpty then some 5 else rank? cs

/-- Whether a directive may begin with a character. -/
def isStart (c : Char) : Bool := c.isAlphanum || c == '-' || c == ':' || c == '_'

/-- A directive about spans: a target, a span in brackets and a level. It says nothing about events,
    so only its form counts. -/
def isSpanDirective (cs : List Char) : Bool :=
  match Text.splitOnce ']' (cs.dropWhile (· != '[')) with
  | some (_, []) => true
  | some (_, '=' :: level) => (rankOrAll? level).isSome
  | _ => false

/-- The directive of a text, if it says something about events; no such text is `none`. Blanks
    around a directive belong to it. -/
def directive? (cs : List Char) : Option (Option LogDirective) :=
  match Text.trimLeft cs with
  | [] => none
  | c :: _ =>
    if !isStart c && c != '[' then none
    else
      match Text.splitOnce '=' cs with
      | none =>
        if cs.contains '[' then if isSpanDirective cs then some none else none
        else
          match rank? cs with
          | some rank => some (some ⟨[], rank⟩)
          | none => some (some ⟨cs, 5⟩)
      | some (target, level) =>
        if target.contains '[' then if isSpanDirective cs then some none else none
        else if (cs.head?.map Text.isBlank).getD false then none
        else (rankOrAll? level).map fun rank => some ⟨target, rank⟩

/-- The filter of a text. -/
def ofText? (text : String) : Option LogFilter := do
  let pieces := (Text.splitAll ',' text.toList).filter (!·.isEmpty)
  let directives ← pieces.mapM directive?
  return ⟨directives.filterMap id⟩

/-- The text of the filter that is used when there is none. -/
def defaultText : String :=
  "info,extauthz=info,decision_log=info,h2=warn,tower=warn,hyper=warn"

/-- The filter of a setting; one that cannot be used is as none. -/
def ofSetting (setting : Option String) : LogFilter :=
  ((setting.bind ofText?).or (ofText? defaultText)).getD ⟨[]⟩

/-- Of two directives about a target, the one that decides. -/
def decisive (target : List Char) (best : Option LogDirective) (d : LogDirective) :
    Option LogDirective :=
  if d.target.isPrefixOf target then
    match best with
    | some b => if b.target.length ≤ d.target.length then some d else best
    | none => some d
  else best

/-- Whether an event is logged. -/
def admits (f : LogFilter) (e : LogEvent) : Bool :=
  match f.directives.foldl (decisive e.target.toList) none with
  | some d => e.level.rank ≤ d.rank
  | none => false

end LogFilter

/-- A log that has been set up. It is set up once. -/
structure LogSetup where
  filter : Option LogFilter := none

/-- The log set up with a filter, unless it is already. -/
def LogSetup.install (s : LogSetup) (f : LogFilter) : Except String LogSetup :=
  match s.filter with
  | none => .ok ⟨some f⟩
  | some _ => .error ("failed to initialize tracing subscriber: " ++
      "a global default trace dispatcher has already been set")

end AuthGate
