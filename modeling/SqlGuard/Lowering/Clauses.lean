import SqlGuard.Lowering.Expr
import SqlGuard.Statement

/-!
# Clauses of a query

The clauses that hold expressions alone: the selection list, WHERE and GROUP BY. A node's children
are lowered in order, so the first element that is refused is the one that is reported; where
several children say the same thing, the last one counts.
-/

namespace SqlGuard

/-- The last value that a function finds in a list. -/
def lastSome? {α β : Type} (f : α → Option β) (xs : List α) : Option β := (xs.filterMap f).getLast?

/-- A part of an item: its expression or its alias. -/
inductive ItemPart where
  | expr (e : Expr)
  | alias (name : String)

namespace ItemPart

/-- The expression that the part is. -/
def expr? : ItemPart → Option Expr
  | .expr e => some e
  | .alias _ => none

/-- The alias that the part is. -/
def alias? : ItemPart → Option String
  | .expr _ => none
  | .alias name => some name

/-- The part that a child of an item is. -/
def ofTree (tree : SyntaxTree) : Lowered ItemPart :=
  if tree.tag = .identifier then .ok (.alias tree.text) else .expr <$> Expr.ofTree tree

end ItemPart

/-- The item of a selection list that a tree is. -/
def SelectItem.ofTree (tree : SyntaxTree) : Lowered SelectItem :=
  if tree.tag = .selectItem then do
    let parts ← tree.children.mapM ItemPart.ofTree
    match lastSome? ItemPart.expr? parts with
    | some expr => return { expr, alias? := lastSome? ItemPart.alias? parts }
    | none => refuseTree .select tree
  else refuseTag .select tree.tag

/-- The column that groups rows. -/
def Expr.ofGrouping (tree : SyntaxTree) : Lowered Expr :=
  if tree.tag = .column ∨ tree.tag = .qualified then Expr.ofTree tree
  else refuseTag .groupBy tree.tag

/-- The clauses of a query that say what is selected from its tables. -/
structure Selection where
  items : List SelectItem := []
  where? : Option Expr := none
  groupBy : List Expr := []

/-- A clause among those of a selection. The destination of the rows adds nothing. -/
inductive Clause where
  | items (items : List SelectItem)
  | condition (predicate? : Option Expr)
  | grouping (exprs : List Expr)
  | destination

namespace Clause

/-- The items that the clause selects. -/
def items? : Clause → Option (List SelectItem)
  | .items selected => some selected
  | _ => none

/-- The condition that the clause states, if it states one. -/
def condition? : Clause → Option (Option Expr)
  | .condition predicate? => some predicate?
  | _ => none

/-- The columns that the clause groups by. -/
def grouping? : Clause → Option (List Expr)
  | .grouping exprs => some exprs
  | _ => none

/-- The clause that a tree is. -/
def ofTree (tree : SyntaxTree) : Lowered Clause :=
  match tree.tag with
  | .selectClause => .items <$> tree.children.mapM SelectItem.ofTree
  | .whereClause => do
    let predicates ← tree.children.mapM (Expr.ofPredicateAt .whereClause)
    return .condition predicates.getLast?
  | .groupByClause => .grouping <$> tree.children.mapM Expr.ofGrouping
  | .destination => .ok .destination
  | tag => refuseTag .insert tag

end Clause

/-- The selection that clauses make up. -/
def Selection.ofClauses (clauses : List Clause) : Selection where
  items := (lastSome? Clause.items? clauses).getD []
  where? := (lastSome? Clause.condition? clauses).join
  groupBy := (lastSome? Clause.grouping? clauses).getD []

/-- The selection that trees of clauses make up. -/
def Selection.ofTrees (trees : List SyntaxTree) : Lowered Selection :=
  Selection.ofClauses <$> trees.mapM Clause.ofTree

end SqlGuard
