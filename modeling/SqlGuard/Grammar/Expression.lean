import SqlGuard.Grammar.Reader
import SqlGuard.SyntaxTree

/-!
# The grammar of expressions

From the loosest to the tightest: `OR`, `AND`, at most one comparison, sums, products, signs, and
operands. Sums, products, `AND` and `OR` associate to the left. Each level is a reader over the
readers of the levels below; the lowest level reads whole expressions again, in parentheses and
as arguments of functions, and `expression` ties that knot by the depth of nesting.
-/

namespace SqlGuard.Grammar

open Reader

/-- The last letter that a character becomes in capitals, as a small one, if it is one of a suffix.
    Apart from ASCII letters, four characters end with an `S` or an `L` in capitals. -/
def suffixLetter (c : Char) : Char :=
  if c = 'ß' ∨ c = 'ſ' then 's'
  else if c = 'ﬂ' ∨ c = 'ﬄ' then 'l'
  else c.toLower

/-- The literal that a number is, by its type suffix. -/
def numberLiteral (text : String) : SyntaxTree :=
  let kind : Tag :=
    match text.toList.reverse.map suffixLetter with
    | 'd' :: 'b' :: _ => .decimalLiteral
    | 'l' :: _ => .bigintLiteral
    | 's' :: _ => .smallintLiteral
    | 'y' :: _ => .tinyintLiteral
    | _ => .number
  .leaf kind text

/-- The name of a column, a table, a function or an alias. -/
def nameLeaf (name : String) : SyntaxTree := .leaf .identifier name

/-- A column by its name, or a table by its name before a point. -/
def columnNode (name : String) : SyntaxTree := .node .column [nameLeaf name]

/-- A column by its name behind the name of its table. -/
def qualifiedNode (qualifier name : String) : SyntaxTree :=
  .node .qualified [columnNode qualifier, nameLeaf name]

/-- The call of a function on `*`. -/
def starCallNode (name : String) : SyntaxTree := .node .starCall [nameLeaf name]

/-- The call of a function on arguments. -/
def callNode (name : String) (arguments : List SyntaxTree) : SyntaxTree :=
  .node (.other "TOK_FUNCTION") (nameLeaf name :: arguments)

/-- Whether the tokens go on with a star and a closing parenthesis. -/
def startsStar : List Token → Bool
  | .mark .asterisk :: .mark .rparen :: _ => true
  | _ => false

/-- The rest of a call behind its opening parenthesis. -/
def call (inner : TokenReader SyntaxTree) (name : String) : TokenReader SyntaxTree :=
  look fun ts =>
    if startsStar ts then do
      expect (.mark .asterisk)
      expect (.mark .rparen)
      return starCallNode name
    else do
      if ← accept (.mark .rparen) then
        return callNode name []
      let arguments ← commaSeparated inner
      expect (.mark .rparen)
      return callNode name arguments

/-- What a name starts: a call, a qualified column or a column. -/
def named (inner : TokenReader SyntaxTree) (name : String) : TokenReader SyntaxTree :=
  onNext
    (fun
      | .mark .lparen => some (call inner name)
      | .mark .dot => some (qualifiedNode name <$> identifier)
      | _ => none)
    (pure (columnNode name))

/-- A literal, a column, a call, or an expression in parentheses. -/
def operand (inner : TokenReader SyntaxTree) : TokenReader SyntaxTree :=
  onNext
    (fun
      | .number text => some (pure (numberLiteral text))
      | .string text => some (pure (.leaf .stringLiteral text))
      | .ident name => some (named inner name)
      | .mark .lparen => some do
          let e ← inner
          expect (.mark .rparen)
          return e
      | _ => none)
    (refuse .expression)

/-- An operand behind any number of minus signs. The sign right before a number belongs to its
    text. -/
def signedRun (inner : TokenReader SyntaxTree) :
    List Token → Except SyntaxError (SyntaxTree × List Token)
  | .mark .minus :: .number text :: ts => .ok (numberLiteral ("-" ++ text), ts)
  | .mark .minus :: ts =>
    (signedRun inner ts).map fun (e, rest) => (.node (.arith .sub) [e], rest)
  | ts => (operand inner).run ts

theorem signedRun_suffix (inner : TokenReader SyntaxTree) (ts : List Token) {e : SyntaxTree}
    {rest : List Token} (h : signedRun inner ts = .ok (e, rest)) : rest <:+ ts := by
  induction ts using signedRun.induct generalizing e rest with
  | case1 text ts =>
    simp only [signedRun, Except.ok.injEq, Prod.mk.injEq] at h
    rw [← h.2]
    exact (List.suffix_cons _ ts).trans (List.suffix_cons _ _)
  | case2 ts hnumber ih =>
    rw [signedRun] at h
    · match hrec : signedRun inner ts with
      | .error e => simp [hrec, Except.map] at h
      | .ok (e', rest') =>
        simp only [hrec, Except.map, Except.ok.injEq, Prod.mk.injEq] at h
        rw [← h.2]
        exact (ih hrec).trans (List.suffix_cons _ ts)
    · exact hnumber
  | case3 ts h1 h2 =>
    rw [signedRun] at h
    · exact (operand inner).suffix h
    · exact h1
    · exact h2

/-- An operand behind any number of minus signs. -/
def signed (inner : TokenReader SyntaxTree) : TokenReader SyntaxTree where
  run := signedRun inner
  suffix := signedRun_suffix inner _

/-- The tree of operands that an operator joins from left to right. -/
def leftNested (first : SyntaxTree) (more : List (Tag × SyntaxTree)) : SyntaxTree :=
  more.foldl (fun left (tag, right) => .node tag [left, right]) first

/-- Operands joined by operators of one level. -/
def joined (operator : Token → Option Tag) (operand : TokenReader SyntaxTree) :
    TokenReader SyntaxTree := do
  let first ← operand
  let more ← chain operator fun tag => (tag, ·) <$> operand
  return leftNested first more

/-- The operator of products that a token is. -/
def productOperator : Token → Option Tag
  | .mark .asterisk => some (.arith .mul)
  | .mark .slash => some (.arith .div)
  | _ => none

/-- The operator of sums that a token is. -/
def sumOperator : Token → Option Tag
  | .mark .plus => some (.arith .add)
  | .mark .minus => some (.arith .sub)
  | _ => none

/-- The comparison that a token is. -/
def comparisonOperator : Token → Option Tag
  | .mark .eq => some (.compare .eq)
  | .mark .ne => some (.compare .ne)
  | .mark .lt => some (.compare .lt)
  | .mark .le => some (.compare .le)
  | .mark .gt => some (.compare .gt)
  | .mark .ge => some (.compare .ge)
  | _ => none

/-- `AND`. -/
def andOperator : Token → Option Tag
  | .keyword .AND => some .conjunction
  | _ => none

/-- `OR`. -/
def orOperator : Token → Option Tag
  | .keyword .OR => some .disjunction
  | _ => none

/-- A product of signed operands. -/
def product (inner : TokenReader SyntaxTree) : TokenReader SyntaxTree :=
  joined productOperator (signed inner)

/-- A sum of products. -/
def sum (inner : TokenReader SyntaxTree) : TokenReader SyntaxTree :=
  joined sumOperator (product inner)

/-- A sum, or a comparison of two sums. -/
def comparison (inner : TokenReader SyntaxTree) : TokenReader SyntaxTree := do
  let left ← sum inner
  onNext
    (fun t => (comparisonOperator t).map fun tag => do
      let right ← sum inner
      return .node tag [left, right])
    (pure left)

/-- Comparisons joined by `AND`. -/
def conjunction (inner : TokenReader SyntaxTree) : TokenReader SyntaxTree :=
  joined andOperator (comparison inner)

/-- Conjunctions joined by `OR`. -/
def disjunction (inner : TokenReader SyntaxTree) : TokenReader SyntaxTree :=
  joined orOperator (conjunction inner)

/-- An expression in which parentheses and calls nest less than `depth` deep. The reader of what
    they enclose is only made where it is run. -/
def expressionTo : Nat → TokenReader SyntaxTree
  | 0 => refuse .expression
  | depth + 1 => disjunction (look fun _ => expressionTo depth)

/-- An expression. Nesting takes tokens, so it is never deeper than there are tokens. -/
def expression : TokenReader SyntaxTree := look fun ts => expressionTo ts.length

end SqlGuard.Grammar
