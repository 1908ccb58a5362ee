import SqlGuard.Lowering.Clauses
import SqlGuard.Statement.Chain

/-!
# Queries of trees

A query and the table references of its FROM clause, which may hold queries in turn. A join takes
the references of its left side, then those of its right side, and is noted at the last of them.
Main definition: `Query.ofTree`.
-/

namespace SqlGuard

/-- The name of a table. A name behind that of a database is refused. -/
def tableNameOfTree (tree : SyntaxTree) : Lowered String :=
  match tree.tag, tree.children with
  | .tableName, [name] => .ok name.text
  | _, _ => refuseTree .tableName tree

/-- A part of a reference to a table: the name of the table or the alias. -/
inductive BasePart where
  | table (name : String)
  | alias (name : String)

namespace BasePart

/-- The name of the table that the part is. -/
def table? : BasePart → Option String
  | .table name => some name
  | .alias _ => none

/-- The alias that the part is. -/
def alias? : BasePart → Option String
  | .table _ => none
  | .alias name => some name

/-- The part that a child of a reference is. -/
def ofTree (tree : SyntaxTree) : Lowered BasePart :=
  match tree.tag with
  | .tableName => .table <$> tableNameOfTree tree
  | .identifier => .ok (.alias tree.text)
  | tag => refuseTag .baseTable tag

end BasePart

/-- The reference to a table that a tree is. -/
def TableRef.ofBaseTree (tree : SyntaxTree) : Lowered TableRef := do
  let parts ← tree.children.mapM BasePart.ofTree
  match lastSome? BasePart.table? parts with
  | some table => return { source := .table table, alias? := lastSome? BasePart.alias? parts }
  | none => refuseTree .baseTable tree

/-- A part of a reference to a view: its query or its alias. -/
inductive ViewPart where
  | query (query : Query)
  | alias (name : String)

namespace ViewPart

/-- The query that the part is. -/
def query? : ViewPart → Option Query
  | .query inner => some inner
  | .alias _ => none

/-- The alias that the part is. -/
def alias? : ViewPart → Option String
  | .query _ => none
  | .alias name => some name

end ViewPart

/-- The reference to a view that the parts of a tree make up. -/
def TableRef.ofViewParts (tree : SyntaxTree) (parts : List ViewPart) : Lowered TableRef :=
  match lastSome? ViewPart.query? parts with
  | some query => .ok { source := .view query, alias? := lastSome? ViewPart.alias? parts }
  | none => refuseTree .inlineView tree

/-- A part of a join: the references of one side or the condition. -/
inductive JoinPart where
  | tables (chain : TableChain)
  | condition (predicate : Expr)

namespace JoinPart

/-- The references that the part is. -/
def tables? : JoinPart → Option TableChain
  | .tables chain => some chain
  | .condition _ => none

/-- The condition that the part is. -/
def condition? : JoinPart → Option Expr
  | .tables _ => none
  | .condition predicate => some predicate

end JoinPart

/-- The references that the parts of a join make up. -/
def TableChain.ofJoinParts (op : JoinOp) (parts : List JoinPart) : Lowered TableChain :=
  let chain := TableChain.concat (parts.filterMap JoinPart.tables?)
  if chain.length < 2 then .error (.malformedJoin chain.length)
  else .ok (chain.joinLast op (lastSome? JoinPart.condition? parts))

/-- A part of a query: its tables or its selection. -/
inductive QueryPart where
  | tables (chain : TableChain)
  | selection (clauses : Selection)

namespace QueryPart

/-- The tables that the part is. -/
def tables? : QueryPart → Option TableChain
  | .tables chain => some chain
  | .selection _ => none

/-- The selection that the part is. -/
def selection? : QueryPart → Option Selection
  | .tables _ => none
  | .selection clauses => some clauses

end QueryPart

/-- The query that parts make up. -/
def Query.ofParts (parts : List QueryPart) : Lowered Query :=
  match lastSome? QueryPart.selection? parts with
  | some { items, where?, groupBy } =>
    .ok { items, where?, groupBy, tables := (lastSome? QueryPart.tables? parts).getD [] }
  | none => .error .missingInsertClause

/-- The part of a join that a tree is, given the references it stands for as a side of the join. A
    condition is a single equality. -/
def JoinPart.ofTree (tree : SyntaxTree) (side : Lowered TableChain) : Lowered JoinPart :=
  match tree.tag with
  | .compare .eq => .condition <$> Expr.ofComparison .eq tree.children
  | .conjunction => .error (.unsupportedJoinCondition tree.render)
  | _ => .tables <$> side

mutual

/-- The parts of a query. -/
def queryParts : List SyntaxTree → Lowered (List QueryPart)
  | [] => .ok []
  | t :: ts => do
    let part ← queryPart t
    let parts ← queryParts ts
    return part :: parts
termination_by structural ts => ts

/-- The part of a query that a tree is. -/
def queryPart : SyntaxTree → Lowered QueryPart
  | .mk .fromClause _ elements => do
    let chains ← fromElements elements
    return .tables (TableChain.concat chains)
  | .mk .insertClause _ clauses => .selection <$> Selection.ofTrees clauses
  | tree => refuseTag .query tree.tag
termination_by structural tree => tree

/-- The references of the elements of a FROM clause. -/
def fromElements : List SyntaxTree → Lowered (List TableChain)
  | [] => .ok []
  | t :: ts => do
    let chain ← tablesAt .fromClause t
    let chains ← fromElements ts
    return chain :: chains
termination_by structural ts => ts

/-- The references that an element of a FROM clause or a side of a join stands for. -/
def tablesAt (place : Construct) : SyntaxTree → Lowered TableChain
  | .mk (.join op) _ children => joinParts children >>= TableChain.ofJoinParts op
  | .mk .tableRef text children => do
    let t ← TableRef.ofBaseTree (.mk .tableRef text children)
    return [t]
  | .mk .subquery text children => do
    let parts ← viewParts children
    let t ← TableRef.ofViewParts (.mk .subquery text children) parts
    return [t]
  | tree => refuseTag place tree.tag
termination_by structural tree => tree

/-- The parts of a join. -/
def joinParts : List SyntaxTree → Lowered (List JoinPart)
  | [] => .ok []
  | t :: ts => do
    let part ← JoinPart.ofTree t (tablesAt .join t)
    let parts ← joinParts ts
    return part :: parts
termination_by structural ts => ts

/-- The parts of a view. -/
def viewParts : List SyntaxTree → Lowered (List ViewPart)
  | [] => .ok []
  | t :: ts => do
    let part ← viewPart t
    let parts ← viewParts ts
    return part :: parts
termination_by structural ts => ts

/-- The part of a view that a tree is. -/
def viewPart : SyntaxTree → Lowered ViewPart
  | .mk .query _ clauses => .query <$> (queryParts clauses >>= Query.ofParts)
  | .mk .identifier text _ => .ok (.alias text)
  | tree => refuseTag .inlineView tree.tag
termination_by structural tree => tree

end

/-- The query that a tree is. -/
def Query.ofTree (tree : SyntaxTree) : Lowered Query :=
  if tree.tag = .query then queryParts tree.children >>= Query.ofParts
  else .error (.unsupportedStatement tree.tag)

/-- The references of the FROM clause that a tree is. -/
def TableChain.ofTree (tree : SyntaxTree) : Lowered TableChain :=
  TableChain.concat <$> fromElements tree.children

end SqlGuard
