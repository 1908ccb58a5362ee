import SqlGuard.Proofs.Grammar.Derivation
import SqlGuard.Proofs.Grammar.ParsedExpr

/-!
# The trees of derivations

What holds of all values that a rule derives, from what holds of its parts, and the kinds of trees
that expressions have. Main statement: `makes_expression`.
-/

namespace SqlGuard

open Grammar

/-- The trees of expressions. -/
inductive SyntaxTree.IsExpression : SyntaxTree → Prop
  | number (text : String) : IsExpression (numberLiteral text)
  | string (text : String) : IsExpression (.leaf .stringLiteral text)
  | column (name : String) : IsExpression (columnNode name)
  | qualified (qualifier name : String) : IsExpression (qualifiedNode qualifier name)
  | starCall (name : String) : IsExpression (starCallNode name)
  | call (name : String) {arguments : List SyntaxTree} (each : ∀ e ∈ arguments, IsExpression e) :
      IsExpression (callNode name arguments)
  | negated {e : SyntaxTree} (operand : IsExpression e) : IsExpression (.node (.arith .sub) [e])
  | operator {tag : Tag} {left right : SyntaxTree} (isOperator : isOperatorTag tag = true)
      (hleft : IsExpression left) (hright : IsExpression right) :
      IsExpression (.node tag [left, right])

namespace Derivation

variable {α : Type}

/-- Whatever is derived has the property. -/
def Makes (L : Language α) (P : α → Prop) : Prop := ∀ ws a, L ws a → P a

section Parts

variable {L : Language α} {P : α → Prop}

theorem makes_clause {words : List Token} (h : Makes L P) :
    Makes (Clause words L) fun a? => ∀ a ∈ a?, P a := by
  intro ws a? d a ha
  cases d with
  | absent => cases ha
  | present part =>
    cases ha
    exact h _ _ part

theorem makes_listed (h : Makes L P) : Makes (Listed L) fun as => ∀ a ∈ as, P a := by
  intro ws as d
  induction d with
  | last item => exact List.forall_mem_singleton.2 (h _ _ item)
  | more item items ih => exact List.forall_mem_cons.2 ⟨h _ _ item, ih⟩

/-- Steps keep what holds of the first tree. -/
theorem makes_nested {nest : SyntaxTree → α → SyntaxTree} {First : Language SyntaxTree}
    {Step : Language α} {Q : SyntaxTree → Prop} (hfirst : Makes First Q) (hstep : Makes Step P)
    (keeps : ∀ left a, Q left → P a → Q (nest left a)) : Makes (Nested nest First Step) Q := by
  have hsteps : ∀ {left tree : SyntaxTree} {ws : List Token}, Steps nest Step left ws tree →
      Q left → Q tree := by
    intro left tree ws d
    induction d with
    | done left => exact id
    | step first more ih => exact fun hleft => ih (keeps _ _ hleft (hstep _ _ first))
  intro ws tree d
  cases d with
  | mk first steps => exact hsteps steps (hfirst _ _ first)

end Parts

/-! ### Expressions -/

section Expressions

variable {E O : Language SyntaxTree}

theorem makes_operand (h : Makes E SyntaxTree.IsExpression) :
    Makes (Operand E) SyntaxTree.IsExpression := by
  intro ws tree d
  cases d with
  | number text => exact .number text
  | string text => exact .string text
  | column name => exact .column name
  | qualified qualifier name => exact .qualified qualifier name
  | starCall name => exact .starCall name
  | emptyCall name => exact .call name nofun
  | call name listed => exact .call name (makes_listed h _ _ listed)
  | enclosed inner => exact h _ _ inner

theorem makes_signed (h : Makes O SyntaxTree.IsExpression) :
    Makes (Signed O) SyntaxTree.IsExpression := by
  intro ws tree d
  induction d with
  | negative text => exact .number _
  | negated noNumber signed ih => exact .negated ih
  | operand operand => exact h _ _ operand

theorem makes_joined {operators : List (Token × Tag)}
    (areOperators : ∀ p ∈ operators, isOperatorTag p.2 = true)
    (h : Makes O SyntaxTree.IsExpression) :
    Makes (Joined operators O) SyntaxTree.IsExpression := by
  have hstep : Makes (Infix operators O) fun step =>
      isOperatorTag step.1 = true ∧ step.2.IsExpression := by
    intro ws step d
    cases d with
    | mk operator operand => exact ⟨areOperators _ operator, h _ _ operand⟩
  exact makes_nested h hstep fun left step hleft hright => .operator hright.1 hleft hright.2

theorem makes_comparison (h : Makes O SyntaxTree.IsExpression) :
    Makes (Comparison O) SyntaxTree.IsExpression := by
  have areOperators : ∀ p ∈ comparisonOperators, isOperatorTag p.2 = true := by decide
  intro ws tree d
  cases d with
  | none operand => exact h _ _ operand
  | compare hleft operator hright =>
    exact .operator (areOperators _ operator) (h _ _ hleft) (h _ _ hright)

theorem makes_expressionTo (depth : Nat) : Makes (ExpressionTo depth) SyntaxTree.IsExpression := by
  induction depth with
  | zero => exact nofun
  | succ depth ih =>
    exact makes_joined (by decide) <| makes_joined (by decide) <| makes_comparison <|
      makes_joined (by decide) <| makes_joined (by decide) <| makes_signed <| makes_operand ih

theorem makes_expression : Makes Expression SyntaxTree.IsExpression :=
  fun ws e d => makes_expressionTo ws.length ws e d

end Expressions

end Derivation

end SqlGuard
