import SqlGuard.Grammar.Expression

/-!
# The grammar of queries

`SELECT` with its clauses, and the FROM clause with its joins, which nest to the left. A FROM
clause may hold queries in parentheses; `queryBody` ties that knot by the depth of nesting.
-/

namespace SqlGuard.Grammar

open Reader

/-- The node of a name that may stand for an item: the item with its alias, if it has one. -/
def aliasLeaves (name? : Option String) : List SyntaxTree := name?.toList.map nameLeaf

/-- `*` in a selection list. -/
def allColumnsNode : SyntaxTree := .node .selectItem [.node (.other "TOK_ALLCOLREF") []]

/-- An item of a selection list: `*`, or an expression with an optional alias. -/
def selectItem : TokenReader SyntaxTree :=
  onNext (fun | .mark .asterisk => some (pure allColumnsNode) | _ => none) do
    let e ← expression
    let name? ← alias?
    return .node .selectItem (e :: aliasLeaves name?)

/-- The name of a table, behind that of its database if it has one. -/
def tableName : TokenReader SyntaxTree := do
  let first ← identifier
  let second? ← after? (.mark .dot) identifier
  return .node .tableName (nameLeaf first :: aliasLeaves second?)

/-- The words of an outer join behind the first: `OUTER` may be left out. -/
def outerJoin (op : JoinOp) : TokenReader JoinOp := do
  let _ ← accept (.keyword .OUTER)
  expect (.keyword .JOIN)
  return op

/-- The join whose words are one word and `JOIN`. -/
def plainJoin (op : JoinOp) : TokenReader JoinOp := do
  expect (.keyword .JOIN)
  return op

/-- The reader of the words of a join behind the word that starts it. -/
def joinWords : Token → Option (TokenReader JoinOp)
  | .keyword .JOIN => some (pure .inner)
  | .keyword .INNER => some (plainJoin .inner)
  | .keyword .LEFT => some (outerJoin .leftOuter)
  | .keyword .RIGHT => some (outerJoin .rightOuter)
  | .keyword .FULL => some (outerJoin .fullOuter)
  | .keyword .CROSS => some (plainJoin .cross)
  | _ => none

/-- Where a plain query puts its rows. -/
def tempDestination : SyntaxTree := .node .directory [.node .tempFile []]

/-- A table by its name, or a query in parentheses, with an optional alias. -/
def source (subquery : TokenReader SyntaxTree) : TokenReader SyntaxTree :=
  onNext
    (fun
      | .mark .lparen => some do
          let query ← subquery
          expect (.mark .rparen)
          let name? ← alias?
          return .node .subquery (query :: aliasLeaves name?)
      | _ => none)
    do
      let table ← tableName
      let name? ← alias?
      return .node .tableRef (table :: aliasLeaves name?)

/-- A join behind its words: the source on the right and the optional condition. -/
structure JoinStep where
  op : JoinOp
  right : SyntaxTree
  on? : Option SyntaxTree

/-- What stands behind the left side of a join. -/
def joinStep (subquery : TokenReader SyntaxTree) (words : TokenReader JoinOp) :
    TokenReader JoinStep := do
  let op ← words
  let right ← source subquery
  let on? ← after? (.keyword .ON) expression
  return { op, right, on? }

/-- The tree of joins, each with all before it on its left. -/
def joinTree (first : SyntaxTree) (steps : List JoinStep) : SyntaxTree :=
  steps.foldl
    (fun left step => .node (.join step.op) (left :: step.right :: step.on?.toList)) first

/-- The element of a FROM clause: a source, or sources joined. -/
def fromElement (subquery : TokenReader SyntaxTree) : TokenReader SyntaxTree := do
  let first ← source subquery
  let steps ← chain joinWords (joinStep subquery)
  return joinTree first steps

/-- The node of a query with the clauses it has. -/
def queryNode (destination : SyntaxTree) (items : List SyntaxTree)
    (from? where? : Option SyntaxTree) (group? : Option (List SyntaxTree)) : SyntaxTree :=
  .node .query <|
    (from?.toList.map fun element => .node .fromClause [element]) ++
    [.node .insertClause <|
      [.node .destination [destination], .node .selectClause items] ++
      (where?.toList.map fun condition => .node .whereClause [condition]) ++
      group?.toList.map (.node .groupByClause)]

/-- A query behind the word `SELECT`, over a reader of the queries nested in it. -/
def queryOver (subquery : TokenReader SyntaxTree) (destination : SyntaxTree) :
    TokenReader SyntaxTree := do
  let items ← commaSeparated selectItem
  let from? ← after? (.keyword .FROM) (fromElement subquery)
  let where? ← after? (.keyword .WHERE) expression
  let group? ← after? (.keyword .GROUP) do
    expect (.keyword .BY)
    commaSeparated expression
  return queryNode destination items from? where? group?

/-- A query in which queries nest less than `depth` deep, with its word `SELECT`. -/
def queryTo (destination : SyntaxTree) : Nat → TokenReader SyntaxTree
  | 0 => refuse (.token (.keyword .SELECT))
  | depth + 1 =>
    expect (.keyword .SELECT) *> queryOver (look fun _ => queryTo tempDestination depth) destination

/-- A query. Nesting takes tokens, so it is never deeper than there are tokens. -/
def query (destination : SyntaxTree) : TokenReader SyntaxTree :=
  look fun ts => queryTo destination ts.length

end SqlGuard.Grammar
