import SqlGuard.Analysis.Query
import SqlGuard.Catalog

/-!
# Configuration

What files say: a catalog file lists the databases with their tables, and a configuration file also
names the database in which statements look up the tables they name. The format of the files is left
to a decoder.
-/

namespace SqlGuard

/-- The database in which tables are looked up where nothing else is said. -/
def defaultDatabase : String := "default"

/-- What a configuration file says: the database in which tables are looked up, and the databases by
    their names. -/
structure Settings where
  database : String := defaultDatabase
  sections : List (String × DatabaseSection) := []
  deriving DecidableEq, Repr

/-- A catalog, and the database in which tables are looked up. -/
structure Config where
  catalog : Catalog := .empty
  database : String := defaultDatabase
  deriving DecidableEq, Repr

/-- The tables that statements can name. -/
def Config.schema (config : Config) : Schema := config.catalog.schema config.database

/-- The configuration that settings make up. -/
def Settings.config (settings : Settings) : Config where
  catalog := .ofSections settings.sections
  database := settings.database

/-- Decodes the texts of files: of a catalog file the databases by their names, of a configuration
    file its settings. A text that is no such file has no answer. -/
structure Decoder where
  sections? : String → Option (List (String × DatabaseSection))
  settings? : String → Option Settings

namespace Decoder

/-- The catalog that the text of a file describes. -/
def catalog? (decoder : Decoder) (text : String) : Option Catalog :=
  (decoder.sections? text).map Catalog.ofSections

/-- The configuration that the text of a file describes. -/
def config? (decoder : Decoder) (text : String) : Option Config :=
  (decoder.settings? text).map Settings.config

end Decoder

/-- Why a file yields no configuration. -/
inductive ConfigError where
  | unreadable (path : String)
  | invalid
  deriving DecidableEq, Repr

/-- The kinds of files. -/
inductive ConfigFile where
  | config | catalog
  deriving DecidableEq, Repr

/-- The text of the error for a kind of file. -/
def ConfigError.message (file : ConfigFile) : ConfigError → String
  | unreadable path =>
    match file with
    | .config => "failed to read config file " ++ path
    | .catalog => "failed to read catalog file " ++ path
  | invalid =>
    match file with
    | .config => "invalid proxy configuration"
    | .catalog => "invalid catalog definition"

/-- The result of loading a file with a path, given its text if it can be read. -/
def loadText {α : Type} (ofText? : String → Option α) (path : String) (text? : Option String) :
    Except ConfigError α :=
  match text? with
  | none => .error (.unreadable path)
  | some text =>
    match ofText? text with
    | none => .error .invalid
    | some a => .ok a

end SqlGuard
