import SqlGuard.Batch
import SqlGuard.Config

/-!
# The command line

How the program answers. The arguments name a configuration; statements are given among them, or
else as the lines of standard input. How arguments are read and how files are decoded is left open.
-/

namespace SqlGuard

/-- The options of a run. -/
structure Options where
  configPath : String
  database? : Option String := none
  showTree : Bool := false
  statements : List String := []
  deriving DecidableEq, Repr

/-- What the program leaves: its exit code, and its lines on standard output and standard error. -/
structure Response where
  exitCode : Nat := 0
  output : List String := []
  errors : List String := []
  deriving DecidableEq, Repr

namespace Response

/-- The response to an error that ends the program. -/
def failed (output : List String) (message : String) : Response where
  exitCode := 1
  output := output
  errors := ["Error: " ++ message]

/-- The response that an answer to statements is. The program fails if the count of the statements
    that were refused is positive. -/
def ofAnswer (answer : Answer) : Response :=
  if 0 < answer.failures then
    failed answer.lines (toString answer.failures ++ " statement(s) failed")
  else { output := answer.lines }

end Response

namespace Options

/-- The statements of a run: those among its arguments, or else the lines of standard input. -/
def texts (options : Options) (input : String) : List String :=
  if options.statements.isEmpty then (linesOf input.toList).map String.ofList
  else options.statements

/-- The batch that the statements of a run are answered as. The database of the options comes before
    that of the configuration. -/
def batch (options : Options) (config : Config) : Batch where
  schema := config.catalog.schema (options.database?.getD config.database)
  showTree := options.showTree

/-- The response to a run, given the text of the configuration file if it can be read, and the text
    of standard input. -/
def respond (decoder : Decoder) (options : Options) (text? : Option String) (input : String) :
    Response :=
  match loadText decoder.config? options.configPath text? with
  | .error e => .failed [] (e.message .config)
  | .ok config => .ofAnswer ((options.batch config).answer (options.texts input))

end Options

/-- A reader of arguments: it answers the options of a run, or else the response that ends the
    program. -/
abbrev ArgumentReader := List String → Except Response Options

/-- The response to arguments, given the texts of the files that can be read and that of standard
    input. -/
def ArgumentReader.respond (read : ArgumentReader) (decoder : Decoder)
    (text? : String → Option String) (arguments : List String) (input : String) : Response :=
  match read arguments with
  | .error response => response
  | .ok options => options.respond decoder (text? options.configPath) input

end SqlGuard
