import SqlGuard.DataType
import SqlGuard.Keyed
import SqlGuard.Text.AsciiCase

/-!
# The catalog

Databases with their tables, columns and cryptographic parameters. Names of databases and tables are
keyed by their lower-case form; under one key the last entry counts, at the place of the first.
-/

namespace SqlGuard

/-- The parameters that the rows of a database are encrypted with, in decimal digits: the modulus
    `n`, its two primes, and the generator. -/
structure DatabaseParams where
  n : String := ""
  prime1 : String := ""
  prime2 : String := ""
  g : String := ""
  deriving DecidableEq, Repr

/-- The key that a column is encrypted with, in decimal digits. -/
structure ColumnKey where
  m : String := ""
  x : String := ""
  deriving DecidableEq, Repr

/-- A column of a table. The rows of a sensitive column are protected. -/
structure Column where
  name : String
  type : DataType
  isSensitive : Bool := false
  key : ColumnKey := {}
  deriving DecidableEq, Repr

/-- A table with its columns in order. -/
structure Table where
  name : String
  columns : List Column
  deriving DecidableEq, Repr

/-- The first column with a name, in any case of its ASCII letters. -/
def Table.column? (table : Table) (name : String) : Option Column :=
  table.columns.find? fun column => Text.sameIgnoringCase column.name name

/-- A database: its parameters, and its tables by the lower-case forms of their names. -/
structure Database where
  params : DatabaseParams := {}
  tables : Keyed Table := []
  deriving DecidableEq, Repr

/-- The databases by the lower-case forms of their names. -/
structure Catalog where
  databases : Keyed Database := []
  deriving DecidableEq, Repr

namespace Catalog

/-- The catalog without databases. -/
def empty : Catalog := {}

/-- The database with a name. -/
def database? (catalog : Catalog) (name : String) : Option Database :=
  catalog.databases.find? (Text.lower name)

/-- Changes the database with a name, which is added if there is none. -/
def updateDatabase (catalog : Catalog) (name : String) (change : Database → Database) : Catalog :=
  { databases :=
      catalog.databases.put (Text.lower name) (change ((catalog.database? name).getD {})) }

/-- Adds a database with parameters, or gives these parameters to the database with that name. -/
def addDatabase (catalog : Catalog) (name : String) (params : DatabaseParams) : Catalog :=
  catalog.updateDatabase name fun database => { database with params }

/-- Adds a table to a database, in the place of the table with that name if there is one. -/
def addTable (catalog : Catalog) (database : String) (table : Table) : Catalog :=
  catalog.updateDatabase database fun entry =>
    { entry with tables := entry.tables.put (Text.lower table.name) table }

/-- The table with a name in a database. -/
def table? (catalog : Catalog) (database name : String) : Option Table := do
  let entry ← catalog.database? database
  entry.tables.find? (Text.lower name)

/-- The parameters of a database. -/
def params? (catalog : Catalog) (database : String) : Option DatabaseParams :=
  (catalog.database? database).map Database.params

/-- The tables of a database in order; none if there is no such database. -/
def tables (catalog : Catalog) (database : String) : List Table :=
  ((catalog.database? database).map fun entry => entry.tables.values).getD []

/-- The names of the tables of a database, each as it was last spelled. -/
def tableNames (catalog : Catalog) (database : String) : List String :=
  (catalog.tables database).map Table.name

end Catalog

/-- A database as a configuration lists it. -/
structure DatabaseSection where
  params : DatabaseParams := {}
  tables : List Table := []
  deriving DecidableEq, Repr

/-- The catalog that sections make up, one after the other. Sections whose names have one lower-case
    form make up one database. -/
def Catalog.ofSections (sections : List (String × DatabaseSection)) : Catalog :=
  sections.foldl
    (fun catalog (name, entry) =>
      entry.tables.foldl (fun catalog table => catalog.addTable name table)
        (catalog.addDatabase name entry.params))
    .empty

end SqlGuard
