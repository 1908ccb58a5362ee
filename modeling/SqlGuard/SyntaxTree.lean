import SqlGuard.Operator

/-!
# Syntax trees

A statement as its grammar sees it: nodes with a tag, a text and children. Trees may come from any
producer, so a tag outside the grammar's own is kept under its name, and nothing is said here of
which children a node has.
-/

namespace SqlGuard

/-- The kinds of nodes. -/
inductive Tag where
  /-- Statements. -/
  | query | load
  /-- Clauses of a query, and the parts of its destination. -/
  | fromClause | insertClause | destination | directory | tempFile | targetTable | tableName
  | selectClause | selectItem | whereClause | groupByClause
  /-- Elements of a FROM clause. -/
  | tableRef | subquery
  | join (op : JoinOp)
  /-- Expressions. -/
  | column | starCall | qualified
  | arith (op : ArithOp)
  | compare (op : CompareOp)
  | conjunction | disjunction
  /-- Leaves. -/
  | identifier | number | bigintLiteral | smallintLiteral | tinyintLiteral | decimalLiteral
  | stringLiteral | localFlag | overwriteFlag
  /-- Any other kind, under its name. -/
  | other (name : String)
  deriving DecidableEq, Repr

namespace Tag

/-- The name of a tag. -/
def name : Tag → String
  | query => "TOK_QUERY"
  | load => "TOK_LOAD"
  | fromClause => "TOK_FROM"
  | insertClause => "TOK_INSERT"
  | destination => "TOK_DESTINATION"
  | directory => "TOK_DIR"
  | tempFile => "TOK_TMP_FILE"
  | targetTable => "TOK_TAB"
  | tableName => "TOK_TABNAME"
  | selectClause => "TOK_SELECT"
  | selectItem => "TOK_SELEXPR"
  | whereClause => "TOK_WHERE"
  | groupByClause => "TOK_GROUPBY"
  | tableRef => "TOK_TABREF"
  | subquery => "TOK_SUBQUERY"
  | join .inner => "TOK_JOIN"
  | join .leftOuter => "TOK_LEFTOUTERJOIN"
  | join .rightOuter => "TOK_RIGHTOUTERJOIN"
  | join .fullOuter => "TOK_FULLOUTERJOIN"
  | join .cross => "TOK_CROSSJOIN"
  | column => "TOK_TABLE_OR_COL"
  | starCall => "TOK_FUNCTIONSTAR"
  | qualified => "DOT"
  | arith .add => "PLUS"
  | arith .sub => "MINUS"
  | arith .mul => "STAR"
  | arith .div => "DIVIDE"
  | compare .eq => "EQUAL"
  | compare .ne => "NOTEQUAL"
  | compare .lt => "LESSTHAN"
  | compare .le => "LESSTHANOREQUALTO"
  | compare .gt => "GREATERTHAN"
  | compare .ge => "GREATERTHANOREQUALTO"
  | conjunction => "KW_AND"
  | disjunction => "KW_OR"
  | identifier => "Identifier"
  | number => "Number"
  | bigintLiteral => "BigintLiteral"
  | smallintLiteral => "SmallintLiteral"
  | tinyintLiteral => "TinyintLiteral"
  | decimalLiteral => "DecimalLiteral"
  | stringLiteral => "StringLiteral"
  | localFlag => "KW_LOCAL"
  | overwriteFlag => "KW_OVERWRITE"
  | other name => name

/-- The tags of the grammar. -/
def all : List Tag :=
  [query, load, fromClause, insertClause, destination, directory, tempFile, targetTable, tableName,
    selectClause, selectItem, whereClause, groupByClause, tableRef, subquery]
  ++ JoinOp.all.map join
  ++ [column, starCall, qualified]
  ++ ArithOp.all.map arith
  ++ CompareOp.all.map compare
  ++ [conjunction, disjunction, identifier, number, bigintLiteral, smallintLiteral, tinyintLiteral,
    decimalLiteral, stringLiteral, localFlag, overwriteFlag]

/-- The tag with a name: one of the grammar's own where there is one. -/
def ofName (name : String) : Tag := (all.find? (·.name == name)).getD (.other name)

end Tag

/-- A node with its children, in order. -/
inductive SyntaxTree where
  | mk (tag : Tag) (text : String) (children : List SyntaxTree)
  deriving Repr

namespace SyntaxTree

/-- The kind of the root. -/
def tag : SyntaxTree → Tag
  | mk tag _ _ => tag

/-- The text of the root. -/
def text : SyntaxTree → String
  | mk _ text _ => text

/-- The children of the root. -/
def children : SyntaxTree → List SyntaxTree
  | mk _ _ children => children

/-- An inner node, which has the name of its tag as its text. -/
def node (tag : Tag) (children : List SyntaxTree) : SyntaxTree := mk tag tag.name children

/-- A leaf with a text of its own. -/
def leaf (tag : Tag) (text : String) : SyntaxTree := mk tag text []

/-- The child at an index. -/
def child? (t : SyntaxTree) (i : Nat) : Option SyntaxTree := t.children[i]?

/-- The text of the first child, which is the name under a column, say. -/
def firstChildText? (t : SyntaxTree) : Option String := t.children.head?.map text

/- A leaf is written as its text, an inner node in parentheses, its text before its children. -/
mutual

/-- The written form of a tree. -/
def render : SyntaxTree → String
  | mk _ text [] => text
  | mk _ text (c :: cs) => "(" ++ text ++ renderBlanks (c :: cs) ++ ")"

/-- The written forms of trees, with a blank before each. -/
def renderBlanks : List SyntaxTree → String
  | [] => ""
  | t :: ts => " " ++ t.render ++ renderBlanks ts

end

end SyntaxTree

end SqlGuard
