import SqlGuard.SyntaxTree

/-!
# Why a tree has no statement

A tree is refused where it holds something that statements cannot represent. The error names the
place and the element.
-/

namespace SqlGuard

/-- The places that refuse elements. -/
inductive Construct where
  | query | insert | select | whereClause | groupBy | load | tableName
  | fromClause | join | baseTable | inlineView
  | arithmetic | qualifiedColumn | columnReference | functionCall | expression
  | predicate | binaryPredicate
  deriving DecidableEq, Repr

/-- How messages call a place. -/
def Construct.label : Construct → String
  | query => "query"
  | insert => "insert"
  | select => "select"
  | whereClause => "where"
  | groupBy => "group by"
  | load => "load"
  | tableName => "table name"
  | fromClause => "from"
  | join => "join"
  | baseTable => "base table"
  | inlineView => "inline view"
  | arithmetic => "arithmetic"
  | qualifiedColumn => "qualified column"
  | columnReference => "column reference"
  | functionCall => "function call"
  | expression => "expression"
  | predicate => "predicate"
  | binaryPredicate => "binary predicate"

/-- Why a tree has no statement. -/
inductive LoweringError where
  /-- The root is of a kind that no statement has. -/
  | unsupportedStatement (tag : Tag)
  /-- A query has no clause that selects. -/
  | missingInsertClause
  | unsupportedConstruct (place : Construct) (element : String)
  | unsupportedJoinCondition (condition : String)
  | malformedJoin (references : Nat)
  deriving DecidableEq, Repr

/-- The text of the error. -/
def LoweringError.message : LoweringError → String
  | unsupportedStatement tag => "unsupported statement: " ++ tag.name
  | missingInsertClause =>
    "unsupported statement: " ++ Tag.query.name ++ " without " ++ Tag.insertClause.name
  | unsupportedConstruct place element =>
    "unsupported " ++ place.label ++ " element: " ++ element
  | unsupportedJoinCondition condition =>
    "unsupported join condition: " ++ condition ++ " (only a single equality is allowed)"
  | malformedJoin references =>
    "malformed join: expected at least two table references, found " ++ toString references

/-- What a tree is lowered to, or why it is not. -/
abbrev Lowered := Except LoweringError

/-- A place refuses the kind of an element. -/
def refuseTag {α : Type} (place : Construct) (tag : Tag) : Lowered α :=
  .error (.unsupportedConstruct place tag.name)

/-- A place refuses an element as a whole. -/
def refuseTree {α : Type} (place : Construct) (tree : SyntaxTree) : Lowered α :=
  .error (.unsupportedConstruct place tree.render)

/-- A place refuses a number of operands. -/
def refuseOperands {α : Type} (place : Construct) (tag : Tag) (count : Nat) : Lowered α :=
  .error (.unsupportedConstruct place (tag.name ++ " with " ++ toString count ++ " operands"))

end SqlGuard
