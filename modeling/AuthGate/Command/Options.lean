import AuthGate.Fields
import AuthGate.Server.HostPort

set_option autoImplicit false

/-! # Options of the command line

Each option is given at most once, as `--name value` or as `--name=value`; one that is not given may
be set by a variable of the environment. -/

namespace AuthGate

/-- What the command line says. -/
structure Options where
  config : Option String
  policy : String
  data : Option String
  diagnosticAddress : HostPort
  watch : Bool
  deriving DecidableEq, Repr

/-- What the command line asks for. -/
inductive Command where
  | run (o : Options)
  | version
  | help
  deriving DecidableEq, Repr

/-- What is wrong with a command line. -/
inductive UsageFault where
  | unknown (argument : String)
  | missingValue (option : String)
  | unexpectedValue (option : String)
  | repeated (option : String)
  | invalidValue (option : String)
  | missing (option : String)
  deriving DecidableEq, Repr

/-- The wording of a fault. -/
def UsageFault.message : UsageFault → String
  | .unknown argument => s!"error: unexpected argument '{argument}' found"
  | .missingValue option => s!"error: a value is required for '--{option}' but none was supplied"
  | .unexpectedValue option => s!"error: unexpected value for '--{option}' found"
  | .repeated option => s!"error: the argument '--{option}' cannot be used multiple times"
  | .invalidValue option => s!"error: invalid value for '--{option}'"
  | .missing option => s!"error: the argument '--{option}' was not provided"

namespace Options

/-- The options that have a value, with the variables that may set them. -/
def valued : List (String × Option String) :=
  [("config", some "EXTAUTHZ_CONFIG"), ("policy", some "EXTAUTHZ_POLICY_DIR"),
    ("data", some "EXTAUTHZ_DATA"), ("diagnostic-addr", none)]

/-- The name of the option that has no value. -/
def watchName : String := "watch"

/-- The address of the diagnostics when none is given. -/
def defaultDiagnosticAddress : HostPort := ⟨"0.0.0.0", 8282⟩

/-- What has been given so far, by the names of options. -/
abbrev Given := List (String × String)

/-- Whether an option takes a value. -/
def isValid (name value : String) : Bool :=
  if name == "diagnostic-addr" then (HostPort.ofText? value).isSome else !value.isEmpty

/-- One option more. -/
def give (name value : String) (g : Given) : Except UsageFault Given :=
  if Fields.contains name g then .error (.repeated name)
  else if isValid name value then .ok (Fields.put name value g)
  else .error (.invalidValue name)

/-- Whether an argument is an option rather than a value. -/
def isOption (argument : String) : Bool := argument.startsWith "-" && argument != "-"

/-- Name and value of a long option. -/
def splitLong (argument : String) : String × Option String :=
  let cs := argument.toList.drop 2
  match Text.splitOnce '=' cs with
  | some (name, value) => (String.ofList name, some (String.ofList value))
  | none => (String.ofList cs, none)

/-- How reading goes on after arguments. -/
inductive Reading where
  | given (g : Given)
  | asked (c : Command)

/-- The arguments read one after another. Asking for the version or for help ends the reading. -/
def read (g : Given) : List String → Except UsageFault Reading
  | [] => .ok (.given g)
  | "--" :: [] => .ok (.given g)
  | "--" :: argument :: _ => .error (.unknown argument)
  | argument :: rest =>
    if argument.startsWith "--" then
      let (name, value) := splitLong argument
      match name, value with
      | "version", none => .ok (.asked .version)
      | "help", none => .ok (.asked .help)
      | "version", some _ => .error (.unexpectedValue name)
      | "help", some _ => .error (.unexpectedValue name)
      | "watch", some _ => .error (.unexpectedValue name)
      | "watch", none =>
        if Fields.contains watchName g then .error (.repeated name)
        else read (Fields.put watchName "" g) rest
      | name, some value =>
        if Fields.contains name valued then
          match give name value g with
          | .ok g => read g rest
          | .error f => .error f
        else .error (.unknown argument)
      | name, none =>
        if Fields.contains name valued then
          match rest with
          | value :: rest =>
            if isOption value then .error (.missingValue name)
            else
              match give name value g with
              | .ok g => read g rest
              | .error f => .error f
          | [] => .error (.missingValue name)
        else .error (.unknown argument)
    else if argument.startsWith "-V" then .ok (.asked .version)
    else if argument.startsWith "-h" then .ok (.asked .help)
    else .error (.unknown argument)

/-- What is given, with what the environment sets besides. -/
def withEnvironment (env : String → Option String) (g : Given) : Except UsageFault Given :=
  valued.foldlM (fun g (name, setBy) =>
    if Fields.contains name g then .ok g
    else
      match setBy.bind env with
      | some value => give name value g
      | none => .ok g) g

/-- The options that are given. -/
def ofGiven (g : Given) : Except UsageFault Options :=
  match Fields.get? "policy" g with
  | none => .error (.missing "policy")
  | some policy =>
    .ok {
      config := Fields.get? "config" g
      policy
      data := Fields.get? "data" g
      diagnosticAddress :=
        ((Fields.get? "diagnostic-addr" g).bind HostPort.ofText?).getD
          defaultDiagnosticAddress
      watch := Fields.contains watchName g }

end Options

/-- The command of arguments in an environment. -/
def Command.ofArguments (env : String → Option String) (arguments : List String) :
    Except UsageFault Command := do
  match ← Options.read [] arguments with
  | .asked c => return c
  | .given g => return .run (← Options.ofGiven (← Options.withEnvironment env g))

end AuthGate
