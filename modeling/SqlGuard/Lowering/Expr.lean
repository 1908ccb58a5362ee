import SqlGuard.Expr
import SqlGuard.Lowering.Error

/-!
# Expressions of trees

Operands are columns, literals, `name(*)` and arithmetic over operands; a predicate is one
comparison of two operands. Everything else is refused.
-/

namespace SqlGuard

/-- A column whose type is not resolved yet. -/
def Field.unresolved (qualifier name : String) : Field := { qualifier, name }

/-- The field that a column behind a qualifier is. -/
def Field.ofQualified? : List SyntaxTree → Option Field
  | [table, column] =>
    if table.tag = .column ∧ column.tag = .identifier then
      table.firstChildText?.map fun qualifier => .unresolved qualifier column.text
    else none
  | _ => none

namespace Expr

/-- The operand that a tree without operators is. -/
def ofAtom (tree : SyntaxTree) : Lowered Expr :=
  match tree.tag with
  | .qualified =>
    match Field.ofQualified? tree.children with
    | some f => .ok (.field f)
    | none => refuseTree .qualifiedColumn tree
  | .column =>
    match tree.firstChildText? with
    | some name => .ok (.field (.unresolved "" name))
    | none => refuseTag .columnReference tree.tag
  | .number => .ok (.literal (.ofNumber tree.text) tree.text)
  | .bigintLiteral | .smallintLiteral | .tinyintLiteral => .ok (.literal .int tree.text)
  | .decimalLiteral => .ok (.literal .float tree.text)
  | .stringLiteral => .ok (.literal .string tree.text)
  | .starCall =>
    match tree.firstChildText? with
    | some name => .ok (.starCall name)
    | none => refuseTag .functionCall tree.tag
  | tag => refuseTag .expression tag

/-- The operand that a tree is. -/
def ofTree : SyntaxTree → Lowered Expr
  | .mk (.arith op) _ [left, right] => do
    let left ← ofTree left
    let right ← ofTree right
    return .arith op left right .unknown
  | .mk (.arith op) _ operands => refuseOperands .arithmetic (.arith op) operands.length
  | tree => ofAtom tree

/-- The comparison of two operands. -/
def ofComparison (op : CompareOp) (operands : List SyntaxTree) : Lowered Expr :=
  match operands with
  | [left, right] => do
    let left ← ofTree left
    let right ← ofTree right
    return .compare op left right
  | _ => refuseOperands .binaryPredicate (.compare op) operands.length

/-- The predicate that a tree is, at a place that takes predicates only. -/
def ofPredicateAt (place : Construct) (tree : SyntaxTree) : Lowered Expr :=
  match tree.tag with
  | .compare op => ofComparison op tree.children
  | tag => refuseTag place tag

/-- The predicate that a tree is. -/
def ofPredicate (tree : SyntaxTree) : Lowered Expr := ofPredicateAt .predicate tree

end Expr

end SqlGuard
