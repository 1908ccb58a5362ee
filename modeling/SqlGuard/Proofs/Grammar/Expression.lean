import SqlGuard.Grammar.Unfolding
import SqlGuard.Proofs.Reader.Runs
import SqlGuard.Proofs.Statement.Shape

/-!
# Reading written expressions

The tokens of an expression are read as its tree, wherever a token stands behind it that goes on
with no expression. Main statements: `Expr.IsOperand.run_expression` and
`Expr.IsPredicate.run_expression`.
-/

namespace SqlGuard

open Reader Grammar

/-- The tree of an expression. -/
def Expr.tree : Expr → SyntaxTree
  | .field f =>
    if f.qualifier.isEmpty then columnNode f.name else qualifiedNode f.qualifier f.name
  | .literal .string text => .leaf .stringLiteral text
  | .literal _ text => numberLiteral text
  | .starCall name => starCallNode name
  | .arith op left right _ => .node (.arith op) [left.tree, right.tree]
  | .compare op left right => .node (.compare op) [left.tree, right.tree]

/-- The token does not go on with a name. -/
def Token.EndsName (t : Token) : Prop := t ≠ .mark .lparen ∧ t ≠ .mark .dot

/-- The token does not go on with a sum. -/
def Token.EndsSum (t : Token) : Prop :=
  t.EndsName ∧ productOperator t = none ∧ sumOperator t = none

/-- The token does not go on with an expression. -/
def Token.EndsExpr (t : Token) : Prop :=
  t.EndsSum ∧ comparisonOperator t = none ∧ andOperator t = none ∧ orOperator t = none

instance (t : Token) : Decidable t.EndsName := inferInstanceAs (Decidable (_ ∧ _))

instance (t : Token) : Decidable t.EndsSum := inferInstanceAs (Decidable (_ ∧ _ ∧ _))

instance (t : Token) : Decidable t.EndsExpr := inferInstanceAs (Decidable (_ ∧ _ ∧ _ ∧ _))

namespace Grammar

variable {inner : TokenReader SyntaxTree}

theorem run_named_column {name : String} {rest : List Token} (ends : Heads Token.EndsName rest) :
    (named inner name).run rest = .ok (columnNode name, rest) := by
  rw [named, run_onNext_none]
  · rfl
  · refine ends.mono ?_
    rintro t ⟨hparen, hdot⟩
    split
    · exact absurd rfl hparen
    · exact absurd rfl hdot
    · rfl

/-- A number is never given the kind of strings. -/
theorem numberLiteral_kind {kind : LiteralKind} {text text' : String}
    (assigned : Expr.ofTree (numberLiteral text) = .ok (.literal kind text')) :
    kind ≠ .string := by
  unfold numberLiteral at assigned
  split at assigned
  · cases assigned
    decide
  · cases assigned
    decide
  · cases assigned
    decide
  · cases assigned
    decide
  · cases assigned
    unfold LiteralKind.ofNumber
    split <;> decide

/-- The tokens of a number are read as one operand, its sign included. -/
theorem run_signed_number {text : String} {rest : List Token} :
    (signed inner).run (numberTokens text ++ rest) = .ok (numberLiteral text, rest) := by
  unfold numberTokens
  split
  · rename_i digits htext
    show Except.ok (numberLiteral ("-" ++ String.ofList digits), rest) = _
    rw [minus_append_ofList htext]
  · rfl

/-- The tokens of an operand without operators. -/
theorem run_signed_atom {e : Expr} (operand : e.IsOperand) (atom : e.isArith = false)
    {rest : List Token} (ends : Heads Token.EndsName rest) :
    (signed inner).run (e.tokens ++ rest) = .ok (e.tree, rest) := by
  cases operand with
  | field qualifier name =>
    unfold Expr.tokens Expr.tree
    by_cases hq : (Field.unresolved qualifier name).qualifier.isEmpty = true
    · rw [if_pos hq, if_pos hq]
      exact run_named_column ends
    · rw [if_neg hq, if_neg hq]
      rfl
  | @number kind text assigned =>
    cases kind with
    | int => exact run_signed_number
    | float => exact run_signed_number
    | string => exact absurd rfl (numberLiteral_kind assigned)
  | string text => rfl
  | starCall name => rfl
  | arith op hleft hright => cases atom

/-! ### Levels of operators -/

theorem run_joined_one {operator : Token → Option Tag} {operand : TokenReader SyntaxTree}
    {ts rest : List Token} {e : SyntaxTree} (h : operand.run ts = .ok (e, rest))
    (ends : Heads (fun t => operator t = none) rest) :
    (joined operator operand).run ts = .ok (e, rest) := by
  rw [joined, run_bind_ok h, run_bind_ok (run_chain_stop ends)]
  rfl

theorem run_joined_two {operator : Token → Option Tag} {operand : TokenReader SyntaxTree}
    {ts us rest : List Token} {t : Token} {tag : Tag} {left right : SyntaxTree}
    (hleft : operand.run ts = .ok (left, t :: us)) (hop : operator t = some tag)
    (hright : operand.run us = .ok (right, rest))
    (ends : Heads (fun t => operator t = none) rest) :
    (joined operator operand).run ts = .ok (.node tag [left, right], rest) := by
  have hmore : (chain operator fun tag => (tag, ·) <$> operand).run (t :: us) =
      .ok ([(tag, right)], rest) :=
    run_chain_cons hop (run_map_ok hright) (run_chain_stop ends)
  rw [joined, run_bind_ok hleft, run_bind_ok hmore]
  rfl

/-- A sum on its own is an expression. -/
theorem run_disjunction_of_sum {ts rest : List Token} {e : SyntaxTree}
    (h : (sum inner).run ts = .ok (e, rest)) (ends : Heads Token.EndsExpr rest) :
    (disjunction inner).run ts = .ok (e, rest) := by
  have hcomparison : (comparison inner).run ts = .ok (e, rest) := by
    rw [comparison, run_bind_ok h, run_onNext_none]
    · rfl
    · exact ends.mono fun t ht => by rw [ht.2.1]; rfl
  exact run_joined_one (run_joined_one hcomparison (ends.mono fun t ht => ht.2.2.1))
    (ends.mono fun t ht => ht.2.2.2)

/-- A comparison of two sums is an expression. -/
theorem run_disjunction_of_comparison {ts us rest : List Token} {t : Token} {tag : Tag}
    {left right : SyntaxTree} (hleft : (sum inner).run ts = .ok (left, t :: us))
    (hop : comparisonOperator t = some tag) (hright : (sum inner).run us = .ok (right, rest))
    (ends : Heads Token.EndsExpr rest) :
    (disjunction inner).run ts = .ok (.node tag [left, right], rest) := by
  have hcomparison : (comparison inner).run ts = .ok (.node tag [left, right], rest) := by
    rw [comparison, run_bind_ok hleft, run_onNext_some (by rw [hop]; rfl), run_bind_ok hright]
    rfl
  exact run_joined_one (run_joined_one hcomparison (ends.mono fun t ht => ht.2.2.1))
    (ends.mono fun t ht => ht.2.2.2)

end Grammar

/-! ### Expressions -/

/-- The tokens of an operand, in parentheses if it is arithmetic. -/
theorem Grammar.run_signed_enclosed {e : Expr} (shape : e.IsOperand)
    (ih : ∀ rest, Heads Token.EndsSum rest →
      (sum expression).run (e.tokens ++ rest) = .ok (e.tree, rest))
    {rest : List Token} (ends : Heads Token.EndsName rest) :
    (signed expression).run (enclosedTokens e.isArith e.tokens ++ rest) = .ok (e.tree, rest) := by
  cases hatom : e.isArith with
  | false => exact run_signed_atom shape hatom ends
  | true =>
    have hclose : Heads Token.EndsExpr (.mark .rparen :: rest) :=
      heads_cons.2 ⟨⟨⟨by decide, by decide⟩, rfl, rfl⟩, rfl, rfl, rfl⟩
    have hinner : expression.run (e.tokens ++ .mark .rparen :: rest) =
        .ok (e.tree, .mark .rparen :: rest) := by
      rw [expression_eq]
      exact run_disjunction_of_sum (ih _ (hclose.mono fun _ h => h.1)) hclose
    have htokens : enclosedTokens true e.tokens ++ rest =
        .mark .lparen :: (e.tokens ++ .mark .rparen :: rest) := by
      simp [enclosedTokens]
    have hsigned : ∀ ts, (signed expression).run (.mark .lparen :: ts) =
        (operand expression).run (.mark .lparen :: ts) := fun _ => rfl
    rw [htokens, hsigned, operand, run_onNext_some rfl, run_bind_ok hinner,
      expect, run_bind_ok run_demand]
    rfl

theorem ArithOp.mark_operator (op : ArithOp) :
    (productOperator (.mark op.mark) = some (.arith op) ∧ sumOperator (.mark op.mark) = none) ∨
      (productOperator (.mark op.mark) = none ∧
        sumOperator (.mark op.mark) = some (.arith op)) := by
  cases op with
  | add => exact .inr ⟨rfl, rfl⟩
  | sub => exact .inr ⟨rfl, rfl⟩
  | mul => exact .inl ⟨rfl, rfl⟩
  | div => exact .inl ⟨rfl, rfl⟩

theorem ArithOp.endsName_mark (op : ArithOp) : Token.EndsName (.mark op.mark) := by
  cases op <;> exact ⟨by decide, by decide⟩

theorem CompareOp.mark_operator (op : CompareOp) :
    comparisonOperator (.mark op.mark) = some (.compare op) := by
  cases op <;> rfl

theorem CompareOp.endsSum_mark (op : CompareOp) : Token.EndsSum (.mark op.mark) := by
  cases op <;> exact ⟨⟨by decide, by decide⟩, rfl, rfl⟩

/-- The tokens of an operand are read as a sum. Its own operator is taken by the level that it
    belongs to, and those of its operands by the parentheses around them. -/
theorem Expr.IsOperand.run_sum {e : Expr} (shape : e.IsOperand) {rest : List Token}
    (ends : Heads Token.EndsSum rest) :
    (sum expression).run (e.tokens ++ rest) = .ok (e.tree, rest) := by
  have single : ∀ {e : Expr} {rest : List Token}, e.IsOperand → e.isArith = false →
      Heads Token.EndsSum rest → (sum expression).run (e.tokens ++ rest) = .ok (e.tree, rest) := by
    intro e rest shape atom ends
    have hsigned : (signed expression).run (e.tokens ++ rest) = .ok (e.tree, rest) :=
      run_signed_atom shape atom (ends.mono fun _ h => h.1)
    exact run_joined_one (run_joined_one hsigned (ends.mono fun _ h => h.2.1))
      (ends.mono fun _ h => h.2.2)
  induction shape generalizing rest with
  | field qualifier name => exact single (.field qualifier name) rfl ends
  | number assigned => exact single (.number assigned) rfl ends
  | string text => exact single (.string text) rfl ends
  | starCall name => exact single (.starCall name) rfl ends
  | @arith op left right shapeLeft shapeRight ihl ihr =>
    have hop : Heads Token.EndsName
        (.mark op.mark :: (enclosedTokens right.isArith right.tokens ++ rest)) :=
      heads_cons.2 op.endsName_mark
    have hleft := run_signed_enclosed shapeLeft (fun _ h => ihl h) hop
    have hright := run_signed_enclosed shapeRight (fun _ h => ihr h) (ends.mono fun _ h => h.1)
    have hproduct := ends.mono fun _ h => h.2.1
    have hsum := ends.mono fun _ h => h.2.2
    rw [Expr.tokens, List.append_assoc, List.cons_append]
    rcases op.mark_operator with ⟨isProduct, -⟩ | ⟨noProduct, isSum⟩
    · exact run_joined_one (run_joined_two hleft isProduct hright hproduct) hsum
    · exact run_joined_two (run_joined_one hleft (heads_cons.2 noProduct)) isSum
        (run_joined_one hright hproduct) hsum

/-- The tokens of an operand are read as its tree. -/
theorem Expr.IsOperand.run_expression {e : Expr} (shape : e.IsOperand) {rest : List Token}
    (ends : Heads Token.EndsExpr rest) :
    expression.run (e.tokens ++ rest) = .ok (e.tree, rest) := by
  rw [expression_eq]
  exact run_disjunction_of_sum (shape.run_sum (ends.mono fun _ h => h.1)) ends

/-- The tokens of a predicate are read as its tree. -/
theorem Expr.IsPredicate.run_expression {e : Expr} (shape : e.IsPredicate) {rest : List Token}
    (ends : Heads Token.EndsExpr rest) :
    expression.run (e.tokens ++ rest) = .ok (e.tree, rest) := by
  cases shape with
  | @compare op left right shapeLeft shapeRight =>
    have hop : Heads Token.EndsSum (.mark op.mark :: (right.tokens ++ rest)) :=
      heads_cons.2 op.endsSum_mark
    have hleft := shapeLeft.run_sum hop
    have hright := shapeRight.run_sum (ends.mono fun _ h => h.1)
    rw [expression_eq, Expr.tokens, List.append_assoc, List.cons_append]
    exact run_disjunction_of_comparison hleft op.mark_operator hright ends

end SqlGuard
