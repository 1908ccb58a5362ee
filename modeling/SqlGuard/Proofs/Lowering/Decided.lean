import SqlGuard.Proofs.Grammar.DerivedTrees
import SqlGuard.Proofs.Lowering.ParsedExpr
import SqlGuard.Proofs.Lowering.Supported

/-!
# Which expressions are lowered

An expression is lowered exactly where it has the form that its place takes, and otherwise an
element of it is named. Main statements: `Expr.decided_ofTree`, `Expr.decided_ofPredicateAt` and
`Expr.decided_ofCondition`.
-/

namespace SqlGuard

open Grammar

/-! ### Decided computations -/

/-- The computation succeeds exactly if the condition holds, and otherwise has such an error. -/
structure Decided {α : Type} (x : Lowered α) (ok : Prop) (Refusal : LoweringError → Prop) :
    Prop where
  ok_iff : (∃ a, x = .ok a) ↔ ok
  refusal : ∀ e, x = .error e → Refusal e

namespace Decided

variable {α β : Type} {x : Lowered α} {p q : Prop} {R R' : LoweringError → Prop}

theorem ok (a : α) (h : p) : Decided (.ok a) p R where
  ok_iff := ⟨fun _ => h, fun _ => ⟨a, rfl⟩⟩
  refusal := nofun

theorem error {e : LoweringError} (h : ¬ p) (he : R e) : Decided (.error e : Lowered α) p R where
  ok_iff := ⟨nofun, fun hp => absurd hp h⟩
  refusal e' heq := by
    cases heq
    exact he

theorem congr (h : Decided x p R) (iff : p ↔ q) : Decided x q R := ⟨h.ok_iff.trans iff, h.refusal⟩

theorem mono (h : Decided x p R) (weaker : ∀ e, R e → R' e) : Decided x p R' :=
  ⟨h.ok_iff, fun e he => weaker e (h.refusal e he)⟩

/-- Both steps have to succeed. -/
theorem bind {f : α → Lowered β} (h : Decided x p R)
    (next : ∀ a, x = .ok a → Decided (f a) q R) : Decided (x >>= f) (p ∧ q) R := by
  cases x with
  | error e => exact .error (fun hpq => absurd (h.ok_iff.2 hpq.1) nofun) (h.refusal e rfl)
  | ok a =>
    have hp : p := h.ok_iff.1 ⟨a, rfl⟩
    exact (next a rfl).congr ⟨fun hq => ⟨hp, hq⟩, And.right⟩

/-- A second step that always succeeds decides nothing. -/
theorem bind_ok {f : α → Lowered β} (h : Decided x p R)
    (total : ∀ a, x = .ok a → ∃ b, f a = .ok b) : Decided (x >>= f) p R := by
  refine Decided.congr (h.bind (q := True) fun a ha => ?_) (and_iff_left trivial)
  obtain ⟨b, hb⟩ := total a ha
  rw [hb]
  exact .ok b trivial

theorem map (h : Decided x p R) (f : α → β) : Decided (f <$> x) p R :=
  h.bind_ok fun a _ => ⟨f a, rfl⟩

theorem mapM {f : β → Lowered α} {P : β → Prop} {bs : List β}
    (each : ∀ b ∈ bs, Decided (f b) (P b) R) : Decided (bs.mapM f) (∀ b ∈ bs, P b) R := by
  induction bs with
  | nil => exact .ok [] nofun
  | cons b bs ih =>
    obtain ⟨first, more⟩ := List.forall_mem_cons.1 each
    rw [List.mapM_cons]
    refine Decided.congr ?_ List.forall_mem_cons.symm
    exact first.bind fun a _ => (ih more).bind_ok fun as _ => ⟨a :: as, rfl⟩

end Decided

/-! ### Expressions -/

namespace SyntaxTree

theorem numberLiteral_leaf (text : String) :
    ∃ kind ∈ numberKinds, numberLiteral text = .leaf kind text := by
  have hkinds : ∀ kind ∈ [Tag.decimalLiteral, .bigintLiteral, .smallintLiteral, .tinyintLiteral,
      .number], kind ∈ numberKinds := by decide
  exact ⟨_, hkinds _ (numberLiteral_tag text), rfl⟩

variable {e : SyntaxTree}

theorem IsExpression.isExpr (h : e.IsExpression) : e.tag.isExpr = true := by
  cases h with
  | number text => exact isExpr_numberLiteral text
  | operator isOperator hleft hright =>
    rename_i tag left right
    show tag.isExpr = true
    cases tag <;> first | rfl | cases isOperator
  | _ => rfl

/-- No node of an expression says what may stand in it. -/
theorem IsExpression.supported (h : e.IsExpression) : e.Supported := by
  induction h with
  | number text =>
    obtain ⟨kind, -, hleaf⟩ := numberLiteral_leaf text
    rw [hleaf]
    exact supported_leaf kind text
  | string text => exact supported_leaf _ text
  | column name => exact supported_node.2 ⟨trivial, by simp [nameLeaf, supported_leaf]⟩
  | qualified qualifier name =>
    have hcolumn : (columnNode qualifier).Supported :=
      supported_node.2 ⟨trivial, by simp [nameLeaf, supported_leaf]⟩
    exact supported_node.2 ⟨trivial, by simp [hcolumn, nameLeaf, supported_leaf]⟩
  | starCall name => exact supported_node.2 ⟨trivial, by simp [nameLeaf, supported_leaf]⟩
  | call name each ih =>
    exact supported_node.2 ⟨trivial, List.forall_mem_cons.2 ⟨supported_leaf _ name, ih⟩⟩
  | negated operand ih => exact supported_node.2 ⟨trivial, List.forall_mem_singleton.2 ih⟩
  | @operator tag left right isOperator hleft hright ihl ihr =>
    have allowed : (node tag [left, right]).Allowed := by
      cases tag <;> trivial
    exact supported_node.2 ⟨allowed, by simp [ihl, ihr]⟩

/-- The node of a comparison has two expressions under it. -/
theorem IsExpression.of_compare {op : CompareOp} (h : e.IsExpression)
    (htag : e.tag = .compare op) : ∃ left right, e = node (.compare op) [left, right] ∧
      left.IsExpression ∧ right.IsExpression := by
  cases h with
  | number text => exact absurd htag (ne_of_mem_of_not_mem (numberLiteral_tag text) (by simp))
  | operator isOperator hleft hright =>
    cases htag
    exact ⟨_, _, rfl, hleft, hright⟩
  | _ => cases htag

theorem IsComparison.tag {op : CompareOp} (h : e.IsComparison op) : e.tag = .compare op := by
  cases h
  rfl

theorem IsExpression.isColumn_iff (h : e.IsExpression) :
    e.IsColumn ↔ e.tag = .column ∨ e.tag = .qualified := by
  constructor
  · intro hcolumn
    cases hcolumn with
    | plain name => exact .inl rfl
    | qualified qualifier name => exact .inr rfl
  · intro htag
    cases h with
    | number text =>
      have noColumn : ∀ tag ∈ [Tag.column, .qualified], (numberLiteral text).tag ≠ tag :=
        fun tag hmem => ne_of_mem_of_not_mem (numberLiteral_tag text) (by revert tag; decide)
      rcases htag with htag | htag <;> exact absurd htag (noColumn _ (by decide))
    | column name => exact .plain name
    | qualified qualifier name => exact .qualified qualifier name
    | operator isOperator => rcases htag with rfl | rfl <;> cases isOperator
    | _ => rcases htag with htag | htag <;> cases htag

theorem isOperand_arith {op : ArithOp} {left right : SyntaxTree} :
    (node (.arith op) [left, right]).IsOperand ↔ left.IsOperand ∧ right.IsOperand := by
  constructor
  · intro h
    cases h with
    | arith op hleft hright => exact ⟨hleft, hright⟩
  · exact fun h => .arith op h.1 h.2

theorem isComparison_compare {op : CompareOp} {left right : SyntaxTree} :
    (node (.compare op) [left, right]).IsComparison op ↔ left.IsOperand ∧ right.IsOperand := by
  constructor
  · intro h
    cases h with
    | mk hleft hright => exact ⟨hleft, hright⟩
  · exact fun h => .mk h.1 h.2

end SyntaxTree

namespace Expr

open LoweringError

variable {e left right : SyntaxTree}

/-- A place that refuses a kind of element. -/
theorem decided_refuseTag {α : Type} {p : Prop} (place : Construct) (tag : Tag) (h : ¬ p) :
    Decided (refuseTag place tag : Lowered α) p NamesElement := .error h (.mk place _)

theorem decided_ofTree (h : e.IsExpression) :
    Decided (Expr.ofTree e) e.IsOperand NamesElement := by
  induction h with
  | number text =>
    obtain ⟨kind, isNumber, hleaf⟩ := SyntaxTree.numberLiteral_leaf text
    obtain ⟨_, hkind⟩ := ofTree_numberLiteral text
    rw [hkind, hleaf]
    exact .ok _ (.number isNumber text)
  | string text => exact .ok _ (.string text)
  | column name => exact .ok _ (.column name)
  | qualified qualifier name => exact .ok _ (.qualified qualifier name)
  | starCall name => exact .ok _ (.starCall name)
  | call name each => exact decided_refuseTag .expression _ nofun
  | negated operand => exact .error nofun (.mk .arithmetic _)
  | @operator tag left right isOperator hleft hright ihl ihr =>
    cases tag <;> cases isOperator
    case operator.arith.refl op =>
      refine Decided.congr ?_ SyntaxTree.isOperand_arith.symm
      exact ihl.bind fun left' _ => ihr.bind_ok fun right' _ =>
        ⟨.arith op left' right' .unknown, rfl⟩
    all_goals exact decided_refuseTag .expression _ nofun

theorem decided_ofComparison (op : CompareOp) (hleft : left.IsExpression)
    (hright : right.IsExpression) :
    Decided (Expr.ofComparison op [left, right])
      ((SyntaxTree.node (.compare op) [left, right]).IsComparison op) NamesElement := by
  refine Decided.congr ?_ SyntaxTree.isComparison_compare.symm
  exact (decided_ofTree hleft).bind fun left' _ =>
    (decided_ofTree hright).bind_ok fun right' _ => ⟨.compare op left' right', rfl⟩

theorem decided_ofPredicateAt (place : Construct) (h : e.IsExpression) :
    Decided (Expr.ofPredicateAt place e) (∃ op, e.IsComparison op) NamesElement := by
  unfold Expr.ofPredicateAt
  split
  · rename_i op htag
    obtain ⟨left, right, rfl, hleft, hright⟩ := h.of_compare htag
    refine (decided_ofComparison op hleft hright).congr ⟨fun h => ⟨op, h⟩, fun hop => ?_⟩
    obtain ⟨op', h⟩ := hop
    cases h.tag
    exact h
  · rename_i noCompare
    exact decided_refuseTag place _ fun ⟨op, h⟩ => noCompare op h.tag

/-- Rows are grouped by columns. -/
theorem decided_ofGrouping (h : e.IsExpression) :
    Decided (Expr.ofGrouping e) e.IsColumn NamesElement := by
  unfold Expr.ofGrouping
  split
  · rename_i htag
    have hcolumn := h.isColumn_iff.2 htag
    cases hcolumn with
    | plain name => exact .ok _ (.plain name)
    | qualified qualifier name => exact .ok _ (.qualified qualifier name)
  · rename_i htag
    exact decided_refuseTag .groupBy _ fun hcolumn => htag (h.isColumn_iff.1 hcolumn)

/-- The condition of a join that an expression is. -/
def ofCondition (tree : SyntaxTree) : Lowered Expr :=
  match tree.tag with
  | .compare .eq => Expr.ofComparison .eq tree.children
  | .conjunction => .error (.unsupportedJoinCondition tree.render)
  | tag => refuseTag .join tag

end Expr

/-- An expression under a join stands for no references. -/
theorem JoinPart.ofTree_expression {e : SyntaxTree} (h : e.IsExpression) :
    JoinPart.ofTree e (tablesAt .join e) = .condition <$> Expr.ofCondition e := by
  have hexpr := h.isExpr
  obtain ⟨tag, text, children⟩ := e
  cases tag with
  | compare op => cases op <;> rfl
  | _ => first | rfl | cases hexpr

theorem Expr.decided_ofCondition {on : SyntaxTree} (h : on.IsExpression) :
    Decided (Expr.ofCondition on) (on.IsComparison .eq) fun e =>
      e.NamesElement ∨ on.tag = .conjunction ∧ e = .unsupportedJoinCondition on.render := by
  unfold Expr.ofCondition
  split
  · rename_i htag
    obtain ⟨left, right, rfl, hleft, hright⟩ := h.of_compare htag
    exact (Expr.decided_ofComparison .eq hleft hright).mono fun e => .inl
  · rename_i htag
    refine .error (fun hon => ?_) (.inr ⟨htag, rfl⟩)
    rw [hon.tag] at htag
    cases htag
  · rename_i noEquality _
    exact (Expr.decided_refuseTag .join _ fun hon => noEquality hon.tag).mono fun e => .inl

end SqlGuard
