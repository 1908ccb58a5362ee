import SqlGuard.Config
import SqlGuard.Toml.Document

/-!
# Files in TOML

The decoder of catalog and configuration files that are written in TOML. Keys that are not known are
left alone. A record is written as a table, or as an array of its fields in order; a time counts as
a record that says nothing. Main definition: `Toml.decoder`.
-/

namespace SqlGuard

namespace Toml.Value

/-- The text that a value is. -/
def text? : Value → Option String
  | .string text => some text
  | _ => none

/-- The truth value that a value is. -/
def boolean? : Value → Option Bool
  | .boolean b => some b
  | _ => none

/-- The elements of the array that a value is. -/
def elements? : Value → Option (List Value)
  | .array elements => some elements
  | _ => none

/-- The entries of the table that a value is. -/
def entries? : Value → Option (List (String × Value))
  | .table entries => some entries
  | _ => none

/-- The fields of a record, as far as they are there. -/
def fields? (names : List String) : Value → Option (List (Option Value))
  | .table entries => some (names.map (Keyed.find? · entries))
  | .array elements => some ((List.range names.length).map (elements[·]?))
  | .time _ => some (names.map fun _ => none)
  | _ => none

end Toml.Value

open Toml (Value)

/-- A field that may be left out. -/
def optional? {α : Type} (default : α) (decode : Value → Option α) : Option Value → Option α
  | none => some default
  | some v => decode v

/-- A text that may be left out. -/
def optionalText? (default : String) (field? : Option Value) : Option String :=
  optional? default Value.text? field?

/-- The key of a column that a value describes. -/
def ColumnKey.ofValue? (v : Value) : Option ColumnKey := do
  match ← v.fields? ["m", "x"] with
  | [some m, some x] => return { m := ← m.text?, x := ← x.text? }
  | _ => none

/-- The column that a value describes. -/
def Column.ofValue? (v : Value) : Option Column := do
  match ← v.fields? ["name", "type", "sensitive", "key"] with
  | [some name, some type, isSensitive?, key?] =>
    return {
      name := ← name.text?
      type := ← type.text? >>= DataType.ofName?
      isSensitive := ← optional? false Value.boolean? isSensitive?
      key := ← optional? {} ColumnKey.ofValue? key? }
  | _ => none

/-- The table that a value describes. -/
def Table.ofValue? (v : Value) : Option Table := do
  match ← v.fields? ["name", "columns"] with
  | [some name, some columns] =>
    return { name := ← name.text?, columns := ← (← columns.elements?).mapM Column.ofValue? }
  | _ => none

/-- The tables that a value lists. -/
def Table.listOfValue? (v : Value) : Option (List Table) := do
  (← v.elements?).mapM Table.ofValue?

/-- The database that a value describes. -/
def DatabaseSection.ofValue? (v : Value) : Option DatabaseSection := do
  match ← v.fields? ["n", "prime1", "prime2", "g", "tables"] with
  | [n?, prime1?, prime2?, g?, tables?] =>
    return {
      params := {
        n := ← optionalText? "" n?
        prime1 := ← optionalText? "" prime1?
        prime2 := ← optionalText? "" prime2?
        g := ← optionalText? "" g? }
      tables := ← optional? [] Table.listOfValue? tables? }
  | _ => none

/-- The databases that a value describes, by their names. -/
def DatabaseSection.listOfValue? (v : Value) : Option (List (String × DatabaseSection)) := do
  (← v.entries?).mapM fun (name, inner) => (DatabaseSection.ofValue? inner).map (name, ·)

/-- The database in which tables are looked up, by the settings that a value describes. -/
def databaseOfSettings? (v : Value) : Option String := do
  match ← v.fields? ["database"] with
  | [database?] => optionalText? defaultDatabase database?
  | _ => none

/-- The databases of a file by their names; none if the file does not list any. -/
def sectionsOfEntry? (databases? : Option Value) : Option (List (String × DatabaseSection)) :=
  optional? [] DatabaseSection.listOfValue? databases?

/-- The databases that a catalog file lists. -/
def Toml.sections? (text : String) : Option (List (String × DatabaseSection)) := do
  match ← (← Value.ofText? text).fields? ["databases"] with
  | [databases?] => sectionsOfEntry? databases?
  | _ => none

/-- The settings that a configuration file describes. -/
def Toml.settings? (text : String) : Option Settings := do
  match ← (← Value.ofText? text).fields? ["analyzer", "databases"] with
  | [settings?, databases?] =>
    return {
      database := ← optional? defaultDatabase databaseOfSettings? settings?
      sections := ← sectionsOfEntry? databases? }
  | _ => none

/-- The decoder of files in TOML. -/
def Toml.decoder : Decoder where
  sections? := Toml.sections?
  settings? := Toml.settings?

end SqlGuard
