import SqlGuard.Catalog
import SqlGuard.Operator

/-!
# Scopes

The columns that the expressions of one query can refer to, and how a reference finds its column: it
has to be the only one of its name. Names are compared without regard to the case of ASCII letters.
-/

namespace SqlGuard

/-- An operator with two operands. -/
inductive BinaryOp where
  | arith (op : ArithOp)
  | compare (op : CompareOp)
  deriving DecidableEq, Repr

/-- The mark an operator is written with. -/
def BinaryOp.symbol : BinaryOp → String
  | arith op => op.symbol
  | compare op => op.symbol

/-- Why a statement does not fit the catalog. -/
inductive AnalysisError where
  | unknownTable (name : String)
  | unknownQualifier (qualifier : String)
  /-- The qualifier is empty where none is written. -/
  | unknownColumn (qualifier name : String)
  | ambiguous (name : String)
  | incompatibleOperands (op : BinaryOp) (left right : DataType)
  deriving DecidableEq, Repr

/-- The text of the error. -/
def AnalysisError.message : AnalysisError → String
  | unknownTable name => "unresolved reference: table " ++ name
  | unknownQualifier qualifier => "unresolved reference: table or alias " ++ qualifier
  | unknownColumn qualifier name =>
    "unresolved reference: column " ++
      (if qualifier.isEmpty then name else qualifier ++ "." ++ name)
  | ambiguous name => "ambiguous column reference: " ++ name
  | incompatibleOperands op left right =>
    "incompatible operands for '" ++ op.symbol ++ "': " ++ left.render ++ " and " ++ right.render

/-- What analysis answers. -/
abbrev Analyzed := Except AnalysisError

/-- A column as the expressions of a query see it. -/
structure VisibleColumn where
  name : String
  type : DataType
  isProtected : Bool
  deriving DecidableEq, Repr

/-- A table reference as the expressions of a query see it. It has no name if it cannot be
    addressed by a qualifier. -/
structure ScopeEntry where
  name? : Option String
  columns : List VisibleColumn
  deriving DecidableEq, Repr

/-- The table references that are in sight, in order. -/
abbrev Scope := List ScopeEntry

/-- The columns with a name. -/
def columnsNamed (name : String) (columns : List VisibleColumn) : List VisibleColumn :=
  columns.filter fun column => Text.sameIgnoringCase column.name name

namespace Scope

/-- The references that a qualifier addresses. -/
def entriesNamed (scope : Scope) (qualifier : String) : List ScopeEntry :=
  scope.filter fun entry => entry.name?.any (Text.sameIgnoringCase · qualifier)

/-- The only value of a list: none is reported by one error, and several by another. -/
def theOnly {α : Type} (none several : AnalysisError) : List α → Analyzed α
  | [] => .error none
  | [a] => .ok a
  | _ :: _ :: _ => .error several

/-- The value of a list, if it has one. Several are reported by an error. -/
def atMostOne {α : Type} (several : AnalysisError) : List α → Analyzed (Option α)
  | [] => .ok none
  | [a] => .ok (some a)
  | _ :: _ :: _ => .error several

end Scope

/-- The column of a table reference with a name, if it has one. A view may show a name twice. -/
def ScopeEntry.column? (entry : ScopeEntry) (name : String) : Analyzed (Option VisibleColumn) :=
  Scope.atMostOne (.ambiguous name) (columnsNamed name entry.columns)

namespace Scope

/-- The column with a name that is found in one reference after another, behind those in which
    `found?` was found. The search ends where the name is met for the second time. -/
def search (name : String) : Option VisibleColumn → Scope → Analyzed (Option VisibleColumn)
  | found?, [] => .ok found?
  | found?, entry :: scope => do
    match ← entry.column? name, found? with
    | none, _ => search name found? scope
    | some column, none => search name (some column) scope
    | some _, some _ => .error (.ambiguous name)

/-- The column with a name, if there is one: in any reference without a qualifier, else in the only
    one that the qualifier addresses. -/
def lookUp (scope : Scope) (qualifier name : String) : Analyzed (Option VisibleColumn) :=
  if qualifier.isEmpty then search name none scope
  else do
    let entry ←
      theOnly (.unknownQualifier qualifier) (.ambiguous qualifier) (scope.entriesNamed qualifier)
    entry.column? name

/-- The column that a reference means. -/
def resolve (scope : Scope) (qualifier name : String) : Analyzed VisibleColumn := do
  match ← scope.lookUp qualifier name with
  | some column => .ok column
  | none => .error (.unknownColumn qualifier name)

end Scope

end SqlGuard
