import SqlGuard.CommandLine

/-!
# Arguments

A reader of arguments, by the usual rules of options with one and with two dashes. Main definition:
`Arguments.read`.
-/

namespace SqlGuard

/-- What the arguments up to some point have given. -/
structure Given where
  configPath? : Option String := none
  database? : Option String := none
  showTree : Bool := false
  statements : List String := []
  deriving DecidableEq, Repr

/-- The response to arguments that cannot be used. -/
def Response.misused : Response where
  exitCode := 2
  errors := ["error: the arguments cannot be used", "", "For more information, try '--help'."]

/-- The response that tells the name of the program with its version. -/
def Response.version : Response where
  output := ["sdb-query 0.1.0"]

/-- The response that tells how the program is used. -/
def Response.help : Response where
  output := [
    "Analyzes SQL statements against the configured catalog and reports whether each one " ++
      "touches a protected column",
    "",
    "Usage: sdb-query [OPTIONS] --config <CONFIG> [SQL]...",
    "",
    "Arguments:",
    "  [SQL]...  Statements to analyze. Read from stdin, one per line, when omitted",
    "",
    "Options:",
    "  -c, --config <CONFIG>      Proxy configuration (TOML) describing the catalog",
    "  -d, --database <DATABASE>  Database for unqualified table names; overrides the config file",
    "      --tree                 Also print the parse tree of each statement",
    "  -h, --help                 Print help",
    "  -V, --version              Print version"]

namespace Given

/-- With the path of the configuration, which is given once and is not empty. -/
def setConfig? (given : Given) (path : String) : Option Given :=
  if given.configPath?.isSome || path.isEmpty then none
  else some { given with configPath? := some path }

/-- With the name of the database, which is given once. -/
def setDatabase? (given : Given) (name : String) : Option Given :=
  if given.database?.isSome then none else some { given with database? := some name }

/-- With trees shown, which is asked for once. -/
def setTree? (given : Given) : Option Given :=
  if given.showTree then none else some { given with showTree := true }

/-- With one more statement. -/
def addStatement (given : Given) (sql : String) : Given :=
  { given with statements := given.statements ++ [sql] }

/-- The options that complete arguments have given. The configuration has to be named. -/
def options (given : Given) : Except Response Options :=
  match given.configPath? with
  | some path => .ok ⟨path, given.database?, given.showTree, given.statements⟩
  | none => .error .misused

end Given

/-- The options that take a value. -/
inductive ValueOption where
  | config | database
  deriving DecidableEq, Repr

/-- With a value for one of the options. -/
def ValueOption.set? (option : ValueOption) (given : Given) (value : String) : Option Given :=
  match option with
  | config => given.setConfig? value
  | database => given.setDatabase? value

/-- What an argument is. -/
inductive Argument where
  /-- Everything behind it is a statement. -/
  | separator
  | withValue (option : ValueOption) (value : String)
  /-- The value is the next argument. -/
  | awaiting (option : ValueOption)
  | tree
  | help
  | version
  | statement (sql : String)
  | unknown
  deriving DecidableEq, Repr

namespace Argument

/-- An option that takes a value, with the value that is attached to it. -/
def ofValueOption (option : ValueOption) : Option (List Char) → Argument
  | some value => withValue option (String.ofList value)
  | none => awaiting option

/-- The argument of a long option, by its name and the value behind an equals sign. -/
def ofLong (name : List Char) (value? : Option (List Char)) : Argument :=
  if name = "config".toList then ofValueOption .config value?
  else if name = "database".toList then ofValueOption .database value?
  else if value?.isSome then unknown
  else if name = "tree".toList then tree
  else if name = "help".toList then help
  else if name = "version".toList then version
  else unknown

/-- The value attached to a short option, which may have an equals sign before it. -/
def attached? : List Char → Option (List Char)
  | [] => none
  | '=' :: value => some value
  | value => some value

/-- The argument of a short option, by its letter and what is attached to it. -/
def ofShort (letter : Char) (rest : List Char) : Argument :=
  if letter = 'c' then ofValueOption .config (attached? rest)
  else if letter = 'd' then ofValueOption .database (attached? rest)
  else if letter = 'h' then help
  else if letter = 'V' then version
  else unknown

/-- What an argument is, by its characters. A single dash is a statement. -/
def ofList : List Char → Argument
  | ['-', '-'] => separator
  | '-' :: '-' :: rest =>
    match rest.dropWhile (· != '=') with
    | [] => ofLong rest none
    | _ :: value => ofLong (rest.takeWhile (· != '=')) (some value)
  | '-' :: letter :: rest => ofShort letter rest
  | cs => statement (String.ofList cs)

end Argument

namespace Arguments

/-- Reads arguments behind those that have given something already. Help and version are answered
    as soon as they are read; what is behind them does not count. -/
def readRest (given : Given) : List String → Except Response Options
  | [] => given.options
  | argument :: rest =>
    match Argument.ofList argument.toList with
    | .separator => (rest.foldl Given.addStatement given).options
    | .withValue option value =>
      match option.set? given value with
      | some given => readRest given rest
      | none => .error .misused
    | .awaiting option =>
      match rest with
      | [] => .error .misused
      | value :: rest =>
        match Argument.ofList value.toList with
        | .statement value =>
          match option.set? given value with
          | some given => readRest given rest
          | none => .error .misused
        | _ => .error .misused
    | .tree =>
      match given.setTree? with
      | some given => readRest given rest
      | none => .error .misused
    | .help => .error .help
    | .version => .error .version
    | .statement sql => readRest (given.addStatement sql) rest
    | .unknown => .error .misused

/-- Reads arguments. -/
def read : ArgumentReader := readRest {}

end Arguments

end SqlGuard
