import Excision.CommandLine.Arguments
import Excision.CommandLine.Run
import Excision.Journal.Filter
import Excision.Session

/-!
# What the program prints

The two outputs of the program and its status. The report goes to the first output. The shown
part of the journal and the fault of a failed run go to the second one, and so does what is
said about arguments from which no command comes.

`Session.execute` is the whole program on a session.
-/

set_option autoImplicit false

namespace Excision

/-- What surrounds a run: whether colours are shown, and the filter of the journal, if one is
set. -/
structure Setup where
  colored : Bool
  filter : Option String
deriving DecidableEq, Repr

/-- The two outputs and the status. -/
structure Screen where
  output : String
  errors : String
  status : Nat
deriving DecidableEq, Repr

/-- The line about a failed run. -/
def Failure.line (failure : Failure) (colored : Bool) : String :=
  let mark := Style.boldRed.paint colored "error:"
  s!"{mark} {failure.message}\n"

namespace Conclusion

/-- The report as it is printed. -/
def output (conclusion : Conclusion) (rendering : Rendering) (colored : Bool) : String :=
  match conclusion.report with
  | none => ""
  | some report => report.print colored rendering

/-- The line about a failure, if there is one. -/
def complaint (conclusion : Conclusion) (colored : Bool) : String :=
  match conclusion.ending with
  | .failed failure => failure.line colored
  | _ => ""

end Conclusion

/-! ## Without a command -/

/-- How the program is called. -/
def usage : String :=
  textOfLines
    ["Usage: methodprune [OPTIONS] <COMMAND>", "",
      "Commands:",
      "  prune <INPUT>            Remove methods and write the result to a new file",
      "  locate <INPUT> [NAME]..  Print where methods stand without removing anything",
      "  presets [NAME]           List the presets, or show one in detail", "",
      "Options:",
      "  -v, --verbose            Show the whole journal",
      "      --json               Print the report as JSON",
      "      --config <PATH>      Project file (default: the nearest .methodprune.toml)",
      "  -h, --help               Print this page",
      "  -V, --version            Print the version", "",
      "Options of prune and locate:",
      "  -p, --preset <NAME>      Use the methods and the settings of a preset",
      "  -m, --method <NAME>      A method (repeatable)",
      "      --methods-file <PATH>",
      "      --lookback <WORD>    How doc comments are found: bounded, doc-block",
      "      --lookback-depth <N> How many lines above a declaration are inspected",
      "      --modifier <WORD>    An accepted access modifier (repeatable)",
      "      --trim-blank         Also remove one blank line after each method",
      "      --keep-blank         Keep all blank lines after methods",
      "      --allow-missing      End with status 0 also when methods are missed", "",
      "Options of prune:",
      "  -o, --output <PATH>      Output (default: <INPUT>.cleaned)",
      "      --dry-run            Write nothing"]

/-- The line with the version. -/
def versionLine : String := s!"methodprune {version}\n"

namespace Halt

/-- What is wrong with the arguments. -/
def message : Halt → String
  | help => "help requested"
  | version => "version requested"
  | nothingGiven => "no command given"
  | missingCommand => "no command given"
  | unknownCommand => "unknown command"
  | unknownArgument => "unexpected argument"
  | missingArgument => "missing input"
  | conflict => "option repeated or excluded by another one"
  | badValue => "missing value or empty path"
  | badNumber => "not a number"
  | surplusValue => "value for an option that takes none"

/-- What is printed when no command comes out of the arguments. -/
def screen (halt : Halt) : Screen :=
  match halt with
  | help => ⟨usage, "", halt.status⟩
  | version => ⟨versionLine, "", halt.status⟩
  | _ => ⟨"", s!"error: {halt.message}\n\n" ++ usage, halt.status⟩

end Halt

/-! ## On a session -/

/-- What is printed by a run that kept a journal. -/
def Conclusion.screen (conclusion : Conclusion) (setup : Setup) (invocation : Invocation)
    (journal : List Record) : Screen :=
  let (filter, warnings) := Filter.parse (setup.filter.getD (Filter.usual invocation.verbose))
  { output := conclusion.output invocation.rendering setup.colored
    errors := warnings ++ filter.lines journal ++ conclusion.complaint setup.colored
    status := conclusion.ending.status }

/-- Runs the program on a session. The journal afterwards is that of the run. -/
def Session.execute (setup : Setup) (arguments : List String) (session : Session) :
    Screen × Session :=
  match Invocation.ofArguments arguments with
  | .error halt => (halt.screen, session)
  | .ok invocation =>
    let run : StateM Session Conclusion := invocation.command.run invocation.config
    let (conclusion, after) := run.run { session with journal := [] }
    (conclusion.screen setup invocation after.journal, after)

end Excision
