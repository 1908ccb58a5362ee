import SqlGuard.Analysis.Scope
import SqlGuard.Statement

/-!
# Analysis of queries

Analysis notes the type and the protection of every column that an expression refers to, and the
type of all arithmetic. Table references come first, from left to right; they are the scope of the
other clauses, and the condition of a join sees the references up to its own. An inline view is a
query of its own: it sees nothing of the query around it, which sees only the view's items.
-/

namespace SqlGuard

/-- The tables that statements can name. -/
abbrev Schema := String → Option Table

/-- The tables of one database of a catalog. -/
def Catalog.schema (catalog : Catalog) (database : String) : Schema := catalog.table? database

/-- The type of arithmetic over operands of two types. -/
def ArithOp.resultType (op : ArithOp) (left right : DataType) : Analyzed DataType :=
  if left.isOperand && right.isOperand then .ok (left.widen right)
  else .error (.incompatibleOperands (.arith op) left right)

/-- Checks that values of two types can be compared. -/
def CompareOp.check (op : CompareOp) (left right : DataType) : Analyzed Unit :=
  if left.comparable right then .ok ()
  else .error (.incompatibleOperands (.compare op) left right)

/-- The reference to a column, with its type and protection. -/
def Field.resolve (scope : Scope) (f : Field) : Analyzed Field := do
  let column ← scope.resolve f.qualifier f.name
  return { f with type := column.type, isProtected := column.isProtected }

namespace Expr

/-- The expression with its columns resolved and its types checked. -/
def resolve (scope : Scope) : Expr → Analyzed Expr
  | .field f => .field <$> f.resolve scope
  | .arith op left right _ => do
    let left ← resolve scope left
    let right ← resolve scope right
    let type ← op.resultType left.type right.type
    return .arith op left right type
  | .compare op left right => do
    let left ← resolve scope left
    let right ← resolve scope right
    op.check left.type right.type
    return .compare op left right
  | .literal kind text => .ok (.literal kind text)
  | .starCall name => .ok (.starCall name)

/-- The same for an expression that may be left out. -/
def resolve? (scope : Scope) : Option Expr → Analyzed (Option Expr)
  | none => .ok none
  | some e => some <$> e.resolve scope

end Expr

/-- The item with its expression resolved. -/
def SelectItem.resolve (scope : Scope) (item : SelectItem) : Analyzed SelectItem := do
  let expr ← item.expr.resolve scope
  return { item with expr }

/-- The join with its condition resolved. -/
def Join.resolve (scope : Scope) (join : Join) : Analyzed Join := do
  let on? ← Expr.resolve? scope join.on?
  return { join with on? }

/-- The same for a reference that may have no join. -/
def Join.resolve? (scope : Scope) : Option Join → Analyzed (Option Join)
  | none => .ok none
  | some join => some <$> join.resolve scope

/-- A column of a table as queries see it. -/
def Column.visible (column : Column) : VisibleColumn :=
  ⟨column.name, column.type, column.isSensitive⟩

/-- The name of an item that has none of its own: its position, counted from zero. -/
def positionalName (i : Nat) : String := "_c" ++ toString i

/-- The column that an enclosing query sees of the item at position `i`. -/
def SelectItem.visible (i : Nat) (item : SelectItem) : VisibleColumn :=
  ⟨item.outputName?.getD (positionalName i), item.expr.type, item.expr.isProtected⟩

/-- The columns that an enclosing query sees of a view. -/
def Query.visibleColumns (query : Query) : List VisibleColumn :=
  query.items.mapIdx SelectItem.visible

/-- The columns of a table that a query names. -/
def Schema.columns (schema : Schema) (name : String) : Analyzed (List VisibleColumn) :=
  match schema name with
  | some table => .ok (table.columns.map Column.visible)
  | none => .error (.unknownTable name)

/-- The clauses of a query, resolved in the scope of its tables. -/
def Query.resolveClauses (scope : Scope) (tables : List TableRef) (query : Query) :
    Analyzed Query := do
  let items ← query.items.mapM (SelectItem.resolve scope)
  let where? ← Expr.resolve? scope query.where?
  let groupBy ← query.groupBy.mapM (Expr.resolve scope)
  return { items, where?, groupBy, tables }

mutual

/-- The query with all its references resolved. -/
def Query.analyze (schema : Schema) : Query → Analyzed Query
  | ⟨items, where?, groupBy, tables⟩ => do
    let (scope, tables) ← analyzeTables schema [] tables
    Query.resolveClauses scope tables ⟨items, where?, groupBy, []⟩

/-- The references behind those of a scope, resolved, with the scope that all of them make up. -/
def analyzeTables (schema : Schema) (scope : Scope) :
    List TableRef → Analyzed (Scope × List TableRef)
  | [] => .ok (scope, [])
  | t :: ts => do
    let (scope, t) ← t.analyze schema scope
    let (scope, ts) ← analyzeTables schema scope ts
    return (scope, t :: ts)

/-- The reference behind those of a scope, resolved, with the scope that it adds to. -/
def TableRef.analyze (schema : Schema) (scope : Scope) : TableRef → Analyzed (Scope × TableRef)
  | ⟨source, alias?, join?⟩ => do
    let (source', columns) ← source.analyze schema
    let scope := scope ++ [⟨TableRef.visibleName? ⟨source, alias?, join?⟩, columns⟩]
    let join? ← Join.resolve? scope join?
    return (scope, ⟨source', alias?, join?⟩)

/-- The source, resolved, with the columns it puts in sight. -/
def Source.analyze (schema : Schema) : Source → Analyzed (Source × List VisibleColumn)
  | .table name => do
    let columns ← schema.columns name
    return (.table name, columns)
  | .view query => do
    let query ← query.analyze schema
    return (.view query, query.visibleColumns)

end

end SqlGuard
