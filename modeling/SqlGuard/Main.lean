import SqlGuard.Arguments
import SqlGuard.Toml.Decoder

/-!
# The program

Reads the files and streams that a run needs, and writes the response.
-/

namespace SqlGuard

/-- The text of a file, if it can be read. -/
def readText? (path : String) : IO (Option String) := do
  try
    return some (← IO.FS.readFile path)
  catch _ =>
    return none

/-- The text of standard input, where the statements of a run are its lines. -/
def Options.readInput (options : Options) : IO String := do
  if options.statements.isEmpty then (← IO.getStdin).readToEnd else return ""

/-- The response to a run. -/
def Options.run (options : Options) : IO Response := do
  match ← readText? options.configPath with
  | none => return options.respond Toml.decoder none ""
  | some text => return options.respond Toml.decoder (some text) (← options.readInput)

/-- Answers the arguments and returns the exit code. -/
def runProgram (arguments : List String) : IO UInt32 := do
  let response ← match Arguments.read arguments with
    | .error response => pure response
    | .ok options => options.run
  response.output.forM IO.println
  response.errors.forM IO.eprintln
  return response.exitCode.toUInt32

end SqlGuard

def main (arguments : List String) : IO UInt32 := SqlGuard.runProgram arguments
