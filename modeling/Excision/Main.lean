import Excision.CommandLine.Screen
import Excision.Terminal

/-!
# The program

Reads the arguments, carries out the command on the real file system, and prints. Colours are
shown on a terminal unless the environment says otherwise.
-/

set_option autoImplicit false

namespace Excision

/-- Whether a variable of the environment is set to something else than `0`. -/
def isSwitchedOn (value : Option String) : Bool := value.any (· ≠ "0")

/-- Whether colours are shown: what is forced counts first, then what is forbidden, then
whether the report goes to a terminal. -/
def showsColors : IO Bool := do
  if isSwitchedOn (← IO.getEnv "CLICOLOR_FORCE") then return true
  if (← IO.getEnv "NO_COLOR").isSome then return false
  if (← IO.getEnv "CLICOLOR") == some "0" then return false
  (← IO.getStdout).isTty

/-- Prints the two outputs, and gives the status. -/
def Screen.print (screen : Screen) : IO UInt32 := do
  IO.print screen.output
  (← IO.getStdout).flush
  IO.eprint screen.errors
  return screen.status.toUInt32

/-- Carries out what the arguments ask for, and gives the status. -/
def Invocation.carryOut (invocation : Invocation) : IO UInt32 := do
  let colored ← showsColors
  let directives := (← IO.getEnv "RUST_LOG").getD (Filter.usual invocation.verbose)
  let (filter, warnings) := Filter.parse directives
  IO.eprint warnings
  let run : Terminal Conclusion := invocation.command.run invocation.config
  let conclusion ← run filter
  Screen.print
    { output := conclusion.output invocation.rendering colored
      errors := conclusion.complaint colored
      status := conclusion.ending.status }

end Excision

/-- The program. -/
def main (arguments : List String) : IO UInt32 :=
  match Excision.Invocation.ofArguments arguments with
  | .error halt => halt.screen.print
  | .ok invocation => invocation.carryOut
