import SqlGuard.Grammar.Query
import SqlGuard.Reader.Agreement

/-!
# The grammar without depths

The readers of expressions and of queries are defined by the depth of nesting. Main statements:
`expression_eq` and `query_eq`, each reader satisfies the equation in which it stands for what it
nests, so depth can be forgotten.
-/

namespace SqlGuard.Grammar

open Reader

variable {n : Nat} {r s : TokenReader SyntaxTree}

theorem agreeUpTo_call (h : AgreeUpTo n r s) (name : String) :
    AgreeUpTo n (call r name) (call s name) := by
  refine .look fun ts => ?_
  cases startsStar ts with
  | true => exact .refl _
  | false =>
    refine .bind (.refl _) fun closed => ?_
    cases closed with
    | true => exact .refl _
    | false => exact .bind (.separatedBy _ h) fun _ => .refl _

theorem agreeUpTo_named (h : AgreeUpTo n r s) (name : String) :
    AgreeUpTo (n + 1) (named r name) (named s name) := by
  refine .onNext (fun t => ?_) (.refl _)
  split
  · exact .some (agreeUpTo_call h name)
  · exact .some (.refl _)
  · exact .none

/-- Operands agree on longer lists than what they enclose, for they take a parenthesis first. -/
theorem agreeUpTo_operand (h : AgreeUpTo n r s) :
    AgreeUpTo (n + 1) (operand r) (operand s) := by
  refine .onNext (fun t => ?_) (.refl _)
  split
  · exact .some (.refl _)
  · exact .some (.refl _)
  · exact .some ((agreeUpTo_named h _).mono (Nat.le_succ n))
  · exact .some (.bind h fun _ => .refl _)
  · exact .none

theorem agreeUpTo_signed (h : AgreeUpTo n r s) : AgreeUpTo (n + 1) (signed r) (signed s) := by
  intro ts
  show ts.length ≤ n + 1 → signedRun r ts = signedRun s ts
  induction ts using signedRun.induct with
  | case1 text ts => intro _; rw [signedRun, signedRun]
  | case2 ts hnumber ih =>
    intro hts
    rw [signedRun, signedRun, ih (Nat.le_of_succ_le hts)] <;> exact hnumber
  | case3 ts h1 h2 =>
    intro hts
    rw [signedRun, signedRun]
    · exact agreeUpTo_operand h ts hts
    all_goals assumption

theorem agreeUpTo_joined (operator : Token → Option Tag) (h : AgreeUpTo n r s) :
    AgreeUpTo n (joined operator r) (joined operator s) :=
  .bind h fun _ => .bind (.chain _ fun _ => h.map _) fun _ => .refl _

theorem agreeUpTo_sum (h : AgreeUpTo n r s) : AgreeUpTo (n + 1) (sum r) (sum s) :=
  agreeUpTo_joined _ (agreeUpTo_joined _ (agreeUpTo_signed h))

theorem agreeUpTo_comparison (h : AgreeUpTo n r s) :
    AgreeUpTo (n + 1) (comparison r) (comparison s) := by
  refine .bind (agreeUpTo_sum h) fun left => .onNext (fun t => ?_) (.refl _)
  cases comparisonOperator t with
  | none => exact .none
  | some tag =>
    exact .some (.bind ((agreeUpTo_sum h).mono (Nat.le_succ n)) fun _ => .refl _)

theorem agreeUpTo_disjunction (h : AgreeUpTo n r s) :
    AgreeUpTo (n + 1) (disjunction r) (disjunction s) :=
  agreeUpTo_joined _ (agreeUpTo_joined _ (agreeUpTo_comparison h))

theorem agreeUpTo_expressionTo (n : Nat) : AgreeUpTo n (expressionTo n) (expressionTo (n + 1)) := by
  induction n with
  | zero =>
    intro ts hts
    rw [List.eq_nil_of_length_eq_zero (Nat.le_zero.mp hts)]
    rfl
  | succ n ih => exact agreeUpTo_disjunction (.look fun _ => ih)

/-- Depth beyond the number of tokens makes no difference. -/
theorem agreeUpTo_expression (n : Nat) : AgreeUpTo n (expressionTo n) expression :=
  fun ts hts => (agreeUpTo_of_le agreeUpTo_expressionTo hts ts (Nat.le_refl _)).symm

/-- An expression is a disjunction whose operands enclose expressions. -/
theorem expression_eq : expression = disjunction expression := by
  ext ts
  cases ts with
  | nil => rfl
  | cons t ts =>
    exact agreeUpTo_disjunction (.look fun _ => agreeUpTo_expression ts.length) (t :: ts)
      (Nat.le_refl _)

theorem agreeUpTo_source (h : AgreeUpTo n r s) : AgreeUpTo (n + 1) (source r) (source s) := by
  refine .onNext (fun t => ?_) (.refl _)
  split
  · exact .some (.bind h fun _ => .refl _)
  · exact .none

theorem agreeUpTo_fromElement (h : AgreeUpTo n r s) :
    AgreeUpTo (n + 1) (fromElement r) (fromElement s) :=
  .bind (agreeUpTo_source h) fun _ =>
    .bind (.chain _ fun _ => .bind (.refl _) fun _ => .bind (agreeUpTo_source h) fun _ => .refl _)
      fun _ => .refl _

theorem agreeUpTo_queryOver (destination : SyntaxTree) (h : AgreeUpTo n r s) :
    AgreeUpTo (n + 1) (queryOver r destination) (queryOver s destination) :=
  .bind (.refl _) fun _ =>
    .bind (.after? _ ((agreeUpTo_fromElement h).mono (Nat.le_succ n))) fun _ => .refl _

theorem agreeUpTo_queryTo (destination : SyntaxTree) (n : Nat) :
    AgreeUpTo n (queryTo destination n) (queryTo destination (n + 1)) := by
  induction n generalizing destination with
  | zero =>
    intro ts hts
    rw [List.eq_nil_of_length_eq_zero (Nat.le_zero.mp hts)]
    rfl
  | succ n ih =>
    exact .bind (.refl _) fun _ => agreeUpTo_queryOver destination (.look fun _ => ih _)

/-- Depth beyond the number of tokens makes no difference. -/
theorem agreeUpTo_query (destination : SyntaxTree) (n : Nat) :
    AgreeUpTo n (queryTo destination n) (query destination) :=
  fun ts hts => (agreeUpTo_of_le (agreeUpTo_queryTo destination) hts ts (Nat.le_refl _)).symm

/-- A query is `SELECT` with its clauses, over the queries nested in it. -/
theorem query_eq (destination : SyntaxTree) :
    query destination =
      expect (.keyword .SELECT) *> queryOver (query tempDestination) destination := by
  ext ts
  cases ts with
  | nil => rfl
  | cons t ts =>
    exact AgreeUpTo.bind (n := ts.length + 1) (.refl (expect (.keyword .SELECT)))
      (fun _ => agreeUpTo_queryOver destination (.look fun _ => agreeUpTo_query _ ts.length))
      (t :: ts) (Nat.le_refl _)

end SqlGuard.Grammar
