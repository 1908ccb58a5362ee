import SqlGuard.Expr

/-!
# Statements

Queries over table references, and the statements that store their rows or load a file. A FROM
clause is a list of references; each may be joined with one before it, which it names by position.
-/

namespace SqlGuard

/-- An item of a selection list. -/
structure SelectItem where
  expr : Expr
  alias? : Option String := none
  deriving DecidableEq, Repr

/-- The join of a table reference with the one at the position `left` of its FROM clause. -/
structure Join where
  op : JoinOp
  on? : Option Expr
  left : Nat
  deriving DecidableEq, Repr

mutual

/-- `SELECT` with its clauses. -/
structure Query where
  items : List SelectItem
  where? : Option Expr := none
  groupBy : List Expr := []
  tables : List TableRef := []

/-- An element of a FROM clause. -/
structure TableRef where
  source : Source
  alias? : Option String := none
  join? : Option Join := none

/-- What a table reference takes its rows from: a table of the catalog, or an inline view. -/
inductive Source where
  | table (name : String)
  | view (query : Query)

end

/-- A statement. A `LOAD` moves a file into a table; an `INSERT` without a target is its query. -/
inductive Statement where
  | select (query : Query)
  | insert (target? : Option String) (query : Query)
  | load (path table : String) (overwrite : Bool)

/-- The name by which an enclosing query knows an item: its alias, or the name of its column. -/
def SelectItem.outputName? (item : SelectItem) : Option String :=
  match item.alias?, item.expr with
  | some name, _ => some name
  | none, .field f => some f.name
  | none, _ => none

namespace TableRef

/-- The name by which a qualifier addresses the reference: its alias, or the name of its table. A
    view without an alias has none. -/
def visibleName? (t : TableRef) : Option String :=
  match t.alias?, t.source with
  | some name, _ => some name
  | none, .table name => some name
  | none, .view _ => none

/-- The condition of the reference's join, if it has one. -/
def on? (t : TableRef) : Option Expr := t.join? >>= Join.on?

end TableRef

/-! ### Protected columns -/

mutual

/-- Whether a protected column occurs anywhere in a query. -/
def Query.isProtected : Query → Bool
  | ⟨items, where?, groupBy, tables⟩ =>
    items.any (·.expr.isProtected) || where?.any Expr.isProtected ||
      groupBy.any Expr.isProtected || anyProtected tables

/-- Whether a protected column occurs in one of the references. -/
def anyProtected : List TableRef → Bool
  | [] => false
  | t :: ts => t.isProtected || anyProtected ts

/-- Whether a protected column occurs in the join condition or the view of a reference. -/
def TableRef.isProtected : TableRef → Bool
  | ⟨source, _, join?⟩ => (join? >>= Join.on?).any Expr.isProtected || source.isProtected

/-- Whether a protected column occurs in a view. -/
def Source.isProtected : Source → Bool
  | .table _ => false
  | .view query => query.isProtected

end

/-- Whether a protected column occurs anywhere in a statement. A file is loaded as it is, so `LOAD`
    never counts as protected. -/
def Statement.isProtected : Statement → Bool
  | select query => query.isProtected
  | insert _ query => query.isProtected
  | load _ _ _ => false

end SqlGuard
