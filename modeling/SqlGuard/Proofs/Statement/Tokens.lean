import SqlGuard.Statement
import SqlGuard.Token

/-!
# The tokens of a statement

The tokens that the written form of a statement consists of, and which tokens can be written
without backticks.
-/

namespace SqlGuard

/-- The mark an arithmetic operator is written with, as a token. -/
def ArithOp.mark : ArithOp → Mark
  | .add => .plus
  | .sub => .minus
  | .mul => .asterisk
  | .div => .slash

/-- The mark a comparison is written with, as a token. -/
def CompareOp.mark : CompareOp → Mark
  | .eq => .eq
  | .ne => .ne
  | .le => .le
  | .ge => .ge
  | .lt => .lt
  | .gt => .gt

/-- The words a join is written with, as tokens. -/
def JoinOp.tokens : JoinOp → List Token
  | .inner => [.keyword .JOIN]
  | .leftOuter => [.keyword .LEFT, .keyword .OUTER, .keyword .JOIN]
  | .rightOuter => [.keyword .RIGHT, .keyword .OUTER, .keyword .JOIN]
  | .fullOuter => [.keyword .FULL, .keyword .OUTER, .keyword .JOIN]
  | .cross => [.keyword .CROSS, .keyword .JOIN]

/-- Tokens with a comma between each two lists of them. -/
def commaTokens : List (List Token) → List Token
  | [] => []
  | [ts] => ts
  | ts :: us :: more => ts ++ .mark .comma :: commaTokens (us :: more)

/-- Tokens in parentheses, if they are asked for. -/
def enclosedTokens (parentheses : Bool) (ts : List Token) : List Token :=
  if parentheses then .mark .lparen :: ts ++ [.mark .rparen] else ts

/-- The tokens of a number. A sign is a token of its own. -/
def numberTokens (text : String) : List Token :=
  match text.toList with
  | '-' :: digits => [.mark .minus, .number (String.ofList digits)]
  | _ => [.number text]

theorem minus_append_ofList {text : String} {digits : List Char}
    (h : text.toList = '-' :: digits) : "-" ++ String.ofList digits = text := by
  have hdigits : (String.ofList digits).toList = digits := String.toList_ofList
  rw [← String.toList_inj, String.toList_append, hdigits, h]
  rfl

namespace Expr

/-- The tokens of an expression. -/
def tokens : Expr → List Token
  | field f =>
    if f.qualifier.isEmpty then [.ident f.name]
    else [.ident f.qualifier, .mark .dot, .ident f.name]
  | literal .string text => [.string text]
  | literal _ text => numberTokens text
  | starCall name => [.ident name, .mark .lparen, .mark .asterisk, .mark .rparen]
  | arith op left right _ =>
    enclosedTokens left.isArith left.tokens ++
      .mark op.mark :: enclosedTokens right.isArith right.tokens
  | compare op left right => left.tokens ++ .mark op.mark :: right.tokens

end Expr

/-- The tokens of an item of a selection list. -/
def SelectItem.tokens (item : SelectItem) : List Token :=
  match item.alias? with
  | some name => item.expr.tokens ++ [.keyword .AS, .ident name]
  | none => item.expr.tokens

/-- The tokens of a clause that is left out where it has no content. -/
def clauseTokens (words : List Token) (content? : Option (List Token)) : List Token :=
  match content? with
  | some ts => words ++ ts
  | none => []

/-- The tokens of the expressions of a GROUP BY clause, if there are any. -/
def groupTokens? (exprs : List Expr) : Option (List Token) :=
  if exprs.isEmpty then none else some (commaTokens (exprs.map Expr.tokens))

/-- The tokens of a source with those of the alias of its reference. -/
def withAliasTokens (source : List Token) (alias? : Option String) : List Token :=
  match alias? with
  | some name => source ++ [.ident name]
  | none => source

/-- The tokens of a reference behind another one. -/
def linkTokens (reference : List Token) (join? : Option Join) : List Token :=
  match join? with
  | some join =>
    join.op.tokens ++ reference ++ clauseTokens [.keyword .ON] (join.on?.map Expr.tokens)
  | none => .mark .comma :: reference

mutual

/-- The tokens of a query. -/
def Query.tokens : Query → List Token
  | ⟨items, where?, groupBy, tables⟩ =>
    .keyword .SELECT :: commaTokens (items.map SelectItem.tokens) ++
      clauseTokens [.keyword .FROM] (tableTokens? tables) ++
      clauseTokens [.keyword .WHERE] (where?.map Expr.tokens) ++
      clauseTokens [.keyword .GROUP, .keyword .BY] (groupTokens? groupBy)

/-- The tokens of the references of a FROM clause, if there are any. -/
def tableTokens? : List TableRef → Option (List Token)
  | [] => none
  | t :: ts => some (t.sourceTokens ++ linkedTokens ts)

/-- The tokens of the references behind the first. -/
def linkedTokens : List TableRef → List Token
  | [] => []
  | t :: ts => linkTokens t.sourceTokens t.join? ++ linkedTokens ts

/-- The tokens of a reference without its join. -/
def TableRef.sourceTokens : TableRef → List Token
  | ⟨source, alias?, _⟩ => withAliasTokens source.tokens alias?

/-- The tokens of a table or of a view in parentheses. -/
def Source.tokens : Source → List Token
  | .table name => [.ident name]
  | .view query => .mark .lparen :: query.tokens ++ [.mark .rparen]

end

/-- The tokens of a statement. -/
def Statement.tokens : Statement → List Token
  | select query => query.tokens
  | insert (some target) query =>
    [.keyword .INSERT, .keyword .OVERWRITE, .keyword .TABLE, .ident target] ++ query.tokens
  | insert none query => query.tokens
  | load path table overwrite =>
    [.keyword .LOAD, .keyword .DATA, .keyword .INPATH, .string ("'" ++ path ++ "'")] ++
      (if overwrite then [.keyword .OVERWRITE] else []) ++
      [.keyword .INTO, .keyword .TABLE, .ident table]

end SqlGuard
