import SqlGuard.Grammar.Query

/-!
# Derivations

The grammar of statements as rules, apart from the way it is read. Each rule derives a tree, or a
part of one, from a list of tokens; a derivation is a value of its own, so that one can say that
there is only one. The rules stand from the tightest to the loosest, each over the language of what
it encloses; `Expression` and `Subquery` tie the two knots by the depth of nesting. Main definition:
`Derivation.Statement`.
-/

namespace SqlGuard

/-- The derivations of values from lists of tokens. -/
abbrev Language (α : Type) := List Token → α → Type

namespace Derivation

open Grammar

variable {α : Type}

/-! ### Parts of rules -/

/-- A part that may be left out, with words of its own before it. -/
inductive Clause (words : List Token) (L : Language α) : Language (Option α)
  | absent : Clause words L [] none
  | present {ws : List Token} {a : α} (part : L ws a) : Clause words L (words ++ ws) (some a)

/-- One or more items with commas between them. -/
inductive Listed (L : Language α) : Language (List α)
  | last {ws : List Token} {a : α} (item : L ws a) : Listed L ws [a]
  | more {ws us : List Token} {a : α} {as : List α} (item : L ws a) (items : Listed L us as) :
      Listed L (ws ++ .mark .comma :: us) (a :: as)

/-- A name behind an item. -/
inductive Alias : Language (Option String)
  | absent : Alias [] none
  | bare (name : String) : Alias [.ident name] (some name)
  | word (name : String) : Alias [.keyword .AS, .ident name] (some name)

/-- Steps behind a tree. Each takes all before it as its left side, so that they nest to the
    left. -/
inductive Steps (nest : SyntaxTree → α → SyntaxTree) (Step : Language α) :
    SyntaxTree → Language SyntaxTree
  | done (left : SyntaxTree) : Steps nest Step left [] left
  | step {left tree : SyntaxTree} {ws us : List Token} {a : α} (first : Step ws a)
      (more : Steps nest Step (nest left a) us tree) : Steps nest Step left (ws ++ us) tree

/-- A first tree with steps behind it. -/
inductive Nested (nest : SyntaxTree → α → SyntaxTree) (First : Language SyntaxTree)
    (Step : Language α) : Language SyntaxTree
  | mk {ws us : List Token} {left tree : SyntaxTree} (first : First ws left)
      (steps : Steps nest Step left us tree) : Nested nest First Step (ws ++ us) tree

/-! ### Expressions -/

/-- The operators of products. -/
def productOperators : List (Token × Tag) :=
  [(.mark .asterisk, .arith .mul), (.mark .slash, .arith .div)]

/-- The operators of sums. -/
def sumOperators : List (Token × Tag) :=
  [(.mark .plus, .arith .add), (.mark .minus, .arith .sub)]

/-- The comparisons. -/
def comparisonOperators : List (Token × Tag) :=
  [(.mark .eq, .compare .eq), (.mark .ne, .compare .ne), (.mark .lt, .compare .lt),
    (.mark .le, .compare .le), (.mark .gt, .compare .gt), (.mark .ge, .compare .ge)]

/-- `AND`. -/
def andOperators : List (Token × Tag) := [(.keyword .AND, .conjunction)]

/-- `OR`. -/
def orOperators : List (Token × Tag) := [(.keyword .OR, .disjunction)]

/-- A literal, a column, a call, or an expression in parentheses. -/
inductive Operand (E : Language SyntaxTree) : Language SyntaxTree
  | number (text : String) : Operand E [.number text] (numberLiteral text)
  | string (text : String) : Operand E [.string text] (.leaf .stringLiteral text)
  | column (name : String) : Operand E [.ident name] (columnNode name)
  | qualified (qualifier name : String) :
      Operand E [.ident qualifier, .mark .dot, .ident name] (qualifiedNode qualifier name)
  | starCall (name : String) :
      Operand E [.ident name, .mark .lparen, .mark .asterisk, .mark .rparen] (starCallNode name)
  | emptyCall (name : String) :
      Operand E [.ident name, .mark .lparen, .mark .rparen] (callNode name [])
  | call (name : String) {ws : List Token} {arguments : List SyntaxTree}
      (listed : Listed E ws arguments) :
      Operand E (.ident name :: .mark .lparen :: (ws ++ [.mark .rparen])) (callNode name arguments)
  | enclosed {ws : List Token} {e : SyntaxTree} (inner : E ws e) :
      Operand E (.mark .lparen :: (ws ++ [.mark .rparen])) e

/-- An operand behind minus signs. A sign belongs to the number right behind it. -/
inductive Signed (O : Language SyntaxTree) : Language SyntaxTree
  | negative (text : String) :
      Signed O [.mark .minus, .number text] (numberLiteral ("-" ++ text))
  | negated {ws : List Token} {e : SyntaxTree} (noNumber : ∀ text us, ws ≠ .number text :: us)
      (signed : Signed O ws e) : Signed O (.mark .minus :: ws) (.node (.arith .sub) [e])
  | operand {ws : List Token} {e : SyntaxTree} (operand : O ws e) : Signed O ws e

/-- An operator of one level with its right operand, behind its left one. -/
inductive Infix (operators : List (Token × Tag)) (O : Language SyntaxTree) :
    Language (Tag × SyntaxTree)
  | mk {t : Token} {tag : Tag} {ws : List Token} {right : SyntaxTree}
      (operator : (t, tag) ∈ operators) (operand : O ws right) :
      Infix operators O (t :: ws) (tag, right)

/-- The node of an operator with its operands. -/
def infixNode (left : SyntaxTree) (step : Tag × SyntaxTree) : SyntaxTree :=
  .node step.1 [left, step.2]

/-- Operands with operators of one level between them. -/
abbrev Joined (operators : List (Token × Tag)) (O : Language SyntaxTree) : Language SyntaxTree :=
  Nested infixNode O (Infix operators O)

/-- At most one comparison. -/
inductive Comparison (O : Language SyntaxTree) : Language SyntaxTree
  | none {ws : List Token} {e : SyntaxTree} (operand : O ws e) : Comparison O ws e
  | compare {t : Token} {tag : Tag} {ws us : List Token} {left right : SyntaxTree}
      (hleft : O ws left) (operator : (t, tag) ∈ comparisonOperators) (hright : O us right) :
      Comparison O (ws ++ t :: us) (.node tag [left, right])

/-- `OR` over `AND` over comparisons over sums over products over signs. -/
abbrev Disjunction (E : Language SyntaxTree) : Language SyntaxTree :=
  Joined orOperators <| Joined andOperators <| Comparison <| Joined sumOperators <|
    Joined productOperators <| Signed <| Operand E

/-- An expression in which parentheses and calls nest less than `depth` deep. -/
def ExpressionTo : Nat → Language SyntaxTree
  | 0 => fun _ _ => Empty
  | depth + 1 => Disjunction (ExpressionTo depth)

/-- An expression. Nesting takes tokens, so it is never deeper than there are tokens. It keeps to
    the rule without depths, `derives_expression_iff`. -/
def Expression : Language SyntaxTree := fun ws e => ExpressionTo ws.length ws e

/-! ### Queries -/

/-- An item of a selection list. -/
inductive Item : Language SyntaxTree
  | allColumns : Item [.mark .asterisk] allColumnsNode
  | expr {ws us : List Token} {e : SyntaxTree} {name? : Option String} (expr : Expression ws e)
      (named : Alias us name?) : Item (ws ++ us) (.node .selectItem (e :: aliasLeaves name?))

/-- The name of a table, which may stand behind that of its database. -/
inductive TableName : Language SyntaxTree
  | plain (name : String) : TableName [.ident name] (.node .tableName [nameLeaf name])
  | qualified (database name : String) :
      TableName [.ident database, .mark .dot, .ident name]
        (.node .tableName [nameLeaf database, nameLeaf name])

/-- The words of joins. -/
def joinSpellings : List (List Token × JoinOp) :=
  [([.keyword .JOIN], .inner),
    ([.keyword .INNER, .keyword .JOIN], .inner),
    ([.keyword .LEFT, .keyword .JOIN], .leftOuter),
    ([.keyword .LEFT, .keyword .OUTER, .keyword .JOIN], .leftOuter),
    ([.keyword .RIGHT, .keyword .JOIN], .rightOuter),
    ([.keyword .RIGHT, .keyword .OUTER, .keyword .JOIN], .rightOuter),
    ([.keyword .FULL, .keyword .JOIN], .fullOuter),
    ([.keyword .FULL, .keyword .OUTER, .keyword .JOIN], .fullOuter),
    ([.keyword .CROSS, .keyword .JOIN], .cross)]

/-- A table by its name, or a query in parentheses. -/
inductive Source (Q : Language SyntaxTree) : Language SyntaxTree
  | table {ws us : List Token} {table : SyntaxTree} {name? : Option String}
      (tableName : TableName ws table) (named : Alias us name?) :
      Source Q (ws ++ us) (.node .tableRef (table :: aliasLeaves name?))
  | subquery {ws us : List Token} {query : SyntaxTree} {name? : Option String}
      (subquery : Q ws query) (named : Alias us name?) :
      Source Q (.mark .lparen :: (ws ++ .mark .rparen :: us))
        (.node .subquery (query :: aliasLeaves name?))

/-- A join behind its left side. -/
inductive Join (Q : Language SyntaxTree) : Language JoinStep
  | mk {words ws us : List Token} {op : JoinOp} {right : SyntaxTree} {on? : Option SyntaxTree}
      (spelled : (words, op) ∈ joinSpellings) (source : Source Q ws right)
      (condition : Clause [.keyword .ON] Expression us on?) :
      Join Q (words ++ (ws ++ us)) ⟨op, right, on?⟩

/-- The node of a join with its sides and its condition. -/
def joinNode (left : SyntaxTree) (step : JoinStep) : SyntaxTree :=
  .node (.join step.op) (left :: step.right :: step.on?.toList)

/-- The element of a FROM clause: sources with joins between them. -/
abbrev Element (Q : Language SyntaxTree) : Language SyntaxTree :=
  Nested joinNode (Source Q) (Join Q)

/-- A query whose rows go to a destination, over the queries nested in it. -/
inductive Query (Q : Language SyntaxTree) (destination : SyntaxTree) : Language SyntaxTree
  | mk {ws us vs xs : List Token} {items : List SyntaxTree} {from? where? : Option SyntaxTree}
      {group? : Option (List SyntaxTree)} (selected : Listed Item ws items)
      (tables : Clause [.keyword .FROM] (Element Q) us from?)
      (condition : Clause [.keyword .WHERE] Expression vs where?)
      (grouped : Clause [.keyword .GROUP, .keyword .BY] (Listed Expression) xs group?) :
      Query Q destination (.keyword .SELECT :: (ws ++ (us ++ (vs ++ xs))))
        (queryNode destination items from? where? group?)

/-- A query in parentheses, in which queries nest less than `depth` deep. -/
def SubqueryTo : Nat → Language SyntaxTree
  | 0 => fun _ _ => Empty
  | depth + 1 => Query (SubqueryTo depth) tempDestination

/-- A query in parentheses. Nesting takes tokens, so it is never deeper than there are tokens. It
    keeps to the rule without depths, `derives_subquery_iff`. -/
def Subquery : Language SyntaxTree := fun ws tree => SubqueryTo ws.length ws tree

/-! ### Statements -/

/-- A word that may be left out. -/
def wordIf (isThere : Bool) (word : Keyword) : List Token :=
  if isThere then [.keyword word] else []

/-- A flag in a tree, which may be left out. -/
def flagIf (isThere : Bool) (tag : Tag) (text : String) : List SyntaxTree :=
  if isThere then [.leaf tag text] else []

/-- A statement without its semicolon. -/
inductive Plain : Language SyntaxTree
  | select {ws : List Token} {tree : SyntaxTree} (query : Query Subquery tempDestination ws tree) :
      Plain ws tree
  | insert {ws us : List Token} {table tree : SyntaxTree} (target : TableName ws table)
      (query : Query Subquery (.node .targetTable [table]) us tree) :
      Plain (.keyword .INSERT :: .keyword .OVERWRITE :: .keyword .TABLE :: (ws ++ us)) tree
  | load (isLocal overwrite : Bool) (path : String) {ws : List Token} {table : SyntaxTree}
      (target : TableName ws table) :
      Plain
        (.keyword .LOAD :: .keyword .DATA :: (wordIf isLocal .LOCAL ++
          .keyword .INPATH :: .string path :: (wordIf overwrite .OVERWRITE ++
            .keyword .INTO :: .keyword .TABLE :: ws)))
        (.node .load ([.leaf .stringLiteral path, .node .targetTable [table]] ++
          flagIf isLocal .localFlag "LOCAL" ++ flagIf overwrite .overwriteFlag "OVERWRITE"))

/-- A statement with its optional semicolon. -/
inductive Statement : Language SyntaxTree
  | bare {ws : List Token} {tree : SyntaxTree} (plain : Plain ws tree) : Statement ws tree
  | terminated {ws : List Token} {tree : SyntaxTree} (plain : Plain ws tree) :
      Statement (ws ++ [.mark .semicolon]) tree

end Derivation

end SqlGuard
