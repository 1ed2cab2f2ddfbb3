import AuthGate.Command.Program
import AuthGate.Json.Parser

set_option autoImplicit false

/-! # The command line

The program over files that are given on standard input: its first line is a JSON object from paths
to texts. The log and all else that the program writes go to the standard streams. A program that
serves is interrupted by the end of the input. -/

namespace AuthGate.Main

/-- The files of a line. -/
def filesOf (line : String) : FileTree :=
  match Json.ofChars? line.toList with
  | some (.object fields) =>
    .ofFiles (fields.map fun (path, v) =>
      (path, Text.Utf8.encode (v.asString?.getD "").toList))
  | _ => .ofFiles []

/-- The variables that the program looks at. -/
def settingNames : List String :=
  Program.filterVariable :: Options.valued.filterMap (·.2)

/-- The variables that are set, with their values. -/
def environment : IO (List (String × String)) :=
  settingNames.filterMapM fun name => do return (← IO.getEnv name).map (name, ·)

/-- Prints events, one a line. -/
def printEvents (events : List LogEvent) : IO Unit :=
  events.forM fun e => IO.println e.toJson.render

/-- Reads up to the end of a stream. -/
partial def drain (input : IO.FS.Stream) : IO Unit := do
  unless (← input.getLine).isEmpty do drain input

/-- Runs the program and gives its exit code. -/
def run (arguments : List String) : IO UInt32 := do
  let input ← IO.getStdin
  let environment ← environment
  let report := Program.execute ⟨arguments, environment, ⟨filesOf (← input.getLine), []⟩⟩
  printEvents report.events
  report.out.forM IO.println
  report.err.forM fun line => IO.eprintln line
  match report.serving with
  | none => return report.exit.toUInt32
  | some serving =>
    drain input
    printEvents ((Program.interrupt serving).filter (Program.filterOf environment).admits)
    return 0

end AuthGate.Main

/-- Runs the program with the arguments of the command line. -/
def main (arguments : List String) : IO UInt32 := AuthGate.Main.run arguments
