import SqlGuard.Lowering.Tables

/-!
# Statements of trees

The root of a tree is a query or a `LOAD`. A query lowers to what it selects, also where its rows
go into a table. A `LOAD` always overwrites its table, whether or not the word was written.
-/

namespace SqlGuard

/-- The text between two equal quotes at its ends. -/
def withoutQuotes? (quote : Char) (text : List Char) : Option (List Char) :=
  match text with
  | c :: inner =>
    if c = quote ∧ inner.getLast? = some quote then some inner.dropLast else none
  | [] => none

/-- The text without the single or double quotes around it, if it has any. -/
def withoutQuotes (text : String) : String :=
  match withoutQuotes? '\x27' text.toList <|> withoutQuotes? '\x22' text.toList with
  | some inner => String.ofList inner
  | none => text

/-- A part of a `LOAD`: the path of the file, the table, or a flag. -/
inductive LoadPart where
  | path (file : String)
  | table (name : String)
  | flag

namespace LoadPart

/-- The path that the part is. -/
def path? : LoadPart → Option String
  | .path file => some file
  | _ => none

/-- The name of the table that the part is. -/
def table? : LoadPart → Option String
  | .table name => some name
  | _ => none

/-- The part that a child of a `LOAD` is. -/
def ofTree (tree : SyntaxTree) : Lowered LoadPart :=
  match tree.tag with
  | .stringLiteral => .ok (.path (withoutQuotes tree.text))
  | .targetTable =>
    match tree.children with
    | [name] => .table <$> tableNameOfTree name
    | _ => refuseTree .load tree
  | .localFlag | .overwriteFlag => .ok .flag
  | tag => refuseTag .load tag

end LoadPart

namespace Statement

/-- The `LOAD` that a tree is. -/
def loadOfTree (tree : SyntaxTree) : Lowered Statement :=
  if tree.tag = .load then do
    let parts ← tree.children.mapM LoadPart.ofTree
    match lastSome? LoadPart.path? parts, lastSome? LoadPart.table? parts with
    | some path, some table => return .load path table true
    | _, _ => refuseTree .load tree
  else .error (.unsupportedStatement tree.tag)

/-- The statement that a tree is. -/
def ofTree (tree : SyntaxTree) : Lowered Statement :=
  match tree.tag with
  | .query => .select <$> Query.ofTree tree
  | .load => loadOfTree tree
  | tag => .error (.unsupportedStatement tag)

end Statement

end SqlGuard
