import SqlGuard.Keyed
import SqlGuard.Toml.Value

/-!
# Tables from headers and keys

A file says where its values go by headers of tables and by keys with points. A table may be named
by a header once; the tables on the way to it are implied, and may be named later on. A table that
arose from a key with points grows by such keys alone, in the section that it arose in.
-/

namespace SqlGuard.Toml

/-- How a table arose: by its own header, on the way to a table with a header, or from a key with
    points. -/
inductive Origin where
  | named | implied | dotted
  deriving DecidableEq, Repr

/-- What stands under a key while a file is put together. -/
inductive Node where
  | value (value : Value)
  | table (origin : Origin) (entries : List (String × Node))
  | tables (elements : List (List (String × Node)))

/-- The entries of a table while a file is put together. -/
abbrev Entries := Keyed Node

/-- The tables in an array with the last one changed. -/
def changeLast? (change : Entries → Option Entries) (elements : List Entries) :
    Option (List Entries) := do
  let last ← elements.getLast?
  let last ← change last
  return elements.dropLast ++ [last]

/-- A value put under a key that has none. -/
def addValue? (key : String) (value : Value) (entries : Entries) : Option Entries :=
  match entries.find? key with
  | none => some (entries.put key (.value value))
  | some _ => none

/-- A value put under a key with points: the parts before the last lead to its table. -/
def addDotted? (key : String) (value : Value) : List String → Entries → Option Entries
  | [], entries => addValue? key value entries
  | step :: path, entries =>
    match entries.find? step with
    | none => do
      let inner ← addDotted? key value path []
      return entries.put step (.table .dotted inner)
    | some (.value _) => none
    | some (.table origin inner) =>
      if origin = .named ∨ (path = [] ∧ origin ≠ .dotted) then none
      else do
        let inner ← addDotted? key value path inner
        return entries.put step (.table origin inner)
    | some (.tables elements) =>
      if path = [] then none
      else do
        let elements ← changeLast? (addDotted? key value path) elements
        return entries.put step (.tables elements)

/-- A change at the table that a path leads to. Tables that are not there are implied; of several
    tables in an array the last one is meant. -/
def changeAt? (change : Entries → Option Entries) : List String → Entries → Option Entries
  | [], entries => change entries
  | step :: path, entries =>
    match entries.find? step with
    | none => do
      let inner ← changeAt? change path []
      return entries.put step (.table .implied inner)
    | some (.value _) => none
    | some (.table origin inner) => do
      let inner ← changeAt? change path inner
      return entries.put step (.table origin inner)
    | some (.tables elements) => do
      let elements ← changeLast? (changeAt? change path) elements
      return entries.put step (.tables elements)

/-- The table under a key named by a header and filled. An implied table keeps what it holds, and
    goes behind the other entries. -/
def nameTable? (fill : Entries → Option Entries) (key : String) (entries : Entries) :
    Option Entries := do
  match entries.find? key with
  | none =>
    let inner ← fill []
    return entries.put key (.table .named inner)
  | some (.table .implied inner) =>
    let inner ← fill inner
    return (entries.erase key).put key (.table .named inner)
  | some _ => none

/-- One more table in the array under a key. -/
def nameElement? (fill : Entries → Option Entries) (key : String) (entries : Entries) :
    Option Entries := do
  let inner ← fill []
  match entries.find? key with
  | none => return entries.put key (.tables [inner])
  | some (.tables elements) => return entries.put key (.tables (elements ++ [inner]))
  | some _ => none

/-- A key and its value: the parts before the last, the last part, and the value. -/
structure Assignment where
  path : List String
  key : String
  value : Value

/-- The table with values put under their keys one after the other. -/
def assign? (assignments : List Assignment) (entries : Entries) : Option Entries :=
  assignments.foldlM (fun entries a => addDotted? a.key a.value a.path entries) entries

/-- A header, by the parts of its key, and whether it adds to an array of tables; then the keys
    below it. -/
structure Section where
  path : List String
  key : String
  isElement : Bool
  assignments : List Assignment

/-- The file with one more section. -/
def addSection? (entries : Entries) (s : Section) : Option Entries :=
  let name := if s.isElement then nameElement? else nameTable?
  changeAt? (name (assign? s.assignments) s.key) s.path entries

mutual

/-- What stands under a key when the file is complete. -/
def Node.toValue : Node → Value
  | .value v => v
  | .table _ entries => .table (valuesOfEntries entries)
  | .tables elements => .array (valuesOfElements elements)

/-- The entries of a table when the file is complete. -/
def valuesOfEntries : List (String × Node) → List (String × Value)
  | [] => []
  | (key, node) :: rest => (key, node.toValue) :: valuesOfEntries rest

/-- The tables of an array when the file is complete. -/
def valuesOfElements : List (List (String × Node)) → List Value
  | [] => []
  | entries :: rest => .table (valuesOfEntries entries) :: valuesOfElements rest

end

/-- The table that assignments make up by themselves. -/
def tableOf? (assignments : List Assignment) : Option Value := do
  let entries ← assign? assignments []
  return .table (valuesOfEntries entries)

/-- The table that a file makes up: the keys before the first header, then the sections. -/
def fileOf? (top : List Assignment) (sections : List Section) : Option Value := do
  let entries ← assign? top []
  let entries ← sections.foldlM addSection? entries
  return .table (valuesOfEntries entries)

end SqlGuard.Toml
