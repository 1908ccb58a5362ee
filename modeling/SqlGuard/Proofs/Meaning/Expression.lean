import SqlGuard.Proofs.Grammar.DerivedQuery
import SqlGuard.Proofs.Lowering.DecidedQuery
import SqlGuard.Proofs.Meaning.Rules

/-!
# Expressions are lowered to what they mean

The expression that a tree is lowered to is what the tokens of the tree mean, and whatever tokens
mean is lowered from a tree of theirs. Main statements: `lowers_expression` and
`exists_tree_of_sum`.
-/

namespace SqlGuard

open SqlGuard.Derivation Grammar

theorem Expr.ofTree_number (text : String) :
    Expr.ofTree (numberLiteral text) = .ok (.literal (.ofSuffix text) text) := by
  unfold numberLiteral LiteralKind.ofSuffix
  generalize text.toList.reverse.map suffixLetter = letters
  -- the same letters choose the tag and the kind
  split <;> simp_all <;> rfl

namespace Derivation

variable {α : Type} {nest : SyntaxTree → α → SyntaxTree} {First : Language SyntaxTree}
  {Step : Language α}

/-- What holds of the first tree and is kept by each step holds of the whole and of its tokens. -/
theorem holds_nested {P : List Token → SyntaxTree → Prop}
    (first : ∀ ws tree, First ws tree → P ws tree)
    (step : ∀ ws us left a, P ws left → Step us a → P (ws ++ us) (nest left a))
    {ws : List Token} {tree : SyntaxTree} (d : Nested nest First Step ws tree) : P ws tree := by
  have hsteps : ∀ {left tree us}, Steps nest Step left us tree → ∀ ws, P ws left →
      P (ws ++ us) tree := by
    intro left tree us d
    induction d with
    | done left =>
      intro ws hleft
      rwa [List.append_nil]
    | step next more ih =>
      intro ws hleft
      rw [← List.append_assoc]
      exact ih _ (step _ _ _ _ hleft next)
  cases d with
  | mk first' steps => exact hsteps steps _ (first _ _ first')

theorem nested_first {ws : List Token} {tree : SyntaxTree} (first : First ws tree) :
    Derives (Nested nest First Step) tree ws := by
  have done : Steps nest Step tree [] tree := .done tree
  have d := Nested.mk first done
  rw [List.append_nil] at d
  exact ⟨d⟩

theorem nested_step {ws us : List Token} {left : SyntaxTree} {a : α}
    (before : Derives (Nested nest First Step) left ws) (step : Step us a) :
    Derives (Nested nest First Step) (nest left a) (ws ++ us) := by
  have hsteps : ∀ {start tree vs}, Steps nest Step start vs tree →
      Nonempty (Steps nest Step start (vs ++ us) (nest tree a)) := by
    intro start tree vs d
    induction d with
    | done start =>
      have done : Steps nest Step (nest start a) [] (nest start a) := .done _
      have d := Steps.step step done
      rw [List.append_nil] at d
      exact ⟨d⟩
    | step next more ih =>
      obtain ⟨more⟩ := ih
      rw [List.append_assoc]
      exact ⟨.step next more⟩
  obtain ⟨first, steps⟩ := before
  obtain ⟨steps⟩ := hsteps steps
  rw [List.append_assoc]
  exact ⟨.mk first steps⟩

end Derivation

namespace Meaning

variable {E O : Language SyntaxTree} {P R : Language Expr}

/-! ### From trees -/

/-- What the tree is lowered to is what the tokens mean, as an operand and as a comparison. -/
structure Says (P : Language Expr) (ws : List Token) (tree : SyntaxTree) : Prop where
  operand : ∀ e, Expr.ofTree tree = .ok e → Derives P e ws
  comparison : ∀ op e, tree.tag = .compare op → Expr.ofComparison op tree.children = .ok e →
    Derives (Comparison op) e ws

/-- Whatever is derived is lowered to what it means. -/
def Lowers (L : Language SyntaxTree) (P : Language Expr) : Prop :=
  ∀ ws tree, L ws tree → Says P ws tree

/-- The tree is not a comparison. -/
theorem says_of_operand {ws : List Token} {tree : SyntaxTree}
    (noCompare : ∀ op, tree.tag ≠ .compare op)
    (h : ∀ e, Expr.ofTree tree = .ok e → Derives P e ws) : Says P ws tree :=
  ⟨h, fun op _ htag => absurd htag (noCompare op)⟩

theorem says_number (text : String) {ws : List Token}
    (h : P ws (.literal (.ofSuffix text) text)) : Says P ws (numberLiteral text) := by
  refine says_of_operand (fun op => ?_) fun e he => ?_
  · exact ne_of_mem_of_not_mem (numberLiteral_tag text) (by simp)
  · rw [Expr.ofTree_number] at he
    cases he
    exact ⟨h⟩

theorem lowers_operand (h : Lowers E Sum) : Lowers (Operand E) Factor := by
  intro ws tree d
  cases d with
  | number text => exact says_number text (.number text)
  | string text =>
    refine says_of_operand nofun fun e he => ?_
    cases he
    exact ⟨.string text⟩
  | column name =>
    refine says_of_operand nofun fun e he => ?_
    cases he
    exact ⟨.column name⟩
  | qualified qualifier name =>
    refine says_of_operand nofun fun e he => ?_
    cases he
    exact ⟨.qualified qualifier name⟩
  | starCall name =>
    refine says_of_operand nofun fun e he => ?_
    cases he
    exact ⟨.starCall name⟩
  | emptyCall name => exact says_of_operand nofun nofun
  | call name listed => exact says_of_operand nofun nofun
  | enclosed inner =>
    obtain ⟨operand, comparison⟩ := h _ _ inner
    constructor
    · intro e he
      obtain ⟨sum⟩ := operand e he
      exact ⟨.enclosed sum⟩
    · intro op e htag he
      obtain ⟨inner⟩ := comparison op e htag he
      exact ⟨.enclosed inner⟩

theorem lowers_signed (h : Lowers O Factor) : Lowers (Signed O) Factor := by
  intro ws tree d
  cases d with
  | negative text => exact says_number _ (.negative text)
  | negated noNumber signed => exact says_of_operand nofun nofun
  | operand operand => exact h _ _ operand

/-- A level of arithmetic is lowered as its steps are. -/
theorem lowers_arith {operators : List (Token × Tag)} (h : Lowers O R)
    (areArith : ∀ p ∈ operators, ∃ op ∈ ArithOp.all, p.2 = .arith op)
    (first : ∀ {ws e}, R ws e → P ws e)
    (step : ∀ {t op ws us left right}, P ws left → (t, .arith op) ∈ operators → R us right →
      P (ws ++ t :: us) (.arith op left right .unknown)) :
    Lowers (Joined operators O) P := by
  intro ws tree d
  refine holds_nested (P := Says P) ?_ ?_ d
  · intro ws tree d
    obtain ⟨operand, comparison⟩ := h ws tree d
    exact ⟨fun e he => (operand e he).map first, comparison⟩
  · intro ws us left right hleft hright
    cases hright with
    | @mk t tag us right operator operand =>
      obtain ⟨op, -, rfl⟩ := areArith _ operator
      refine says_of_operand nofun fun e he => ?_
      simp only [infixNode, SyntaxTree.node, Expr.ofTree, bind_eq_ok, pure_eq_ok] at he
      obtain ⟨left', hl, right', hr, rfl⟩ := he
      obtain ⟨dl⟩ := hleft.operand left' hl
      obtain ⟨dr⟩ := (h _ _ operand).operand right' hr
      exact ⟨step dl operator dr⟩

/-- Neither `AND` nor `OR` is lowered. -/
theorem lowers_logic {operators : List (Token × Tag)} (h : Lowers O P)
    (areLogic : ∀ p ∈ operators, p.2 = .conjunction ∨ p.2 = .disjunction) :
    Lowers (Joined operators O) P := by
  intro ws tree d
  refine holds_nested h ?_ d
  intro ws us left right hleft hright
  cases hright with
  | mk operator operand =>
    rcases areLogic _ operator with rfl | rfl <;> exact says_of_operand nofun nofun

theorem lowers_comparison (h : Lowers O Sum) : Lowers (Derivation.Comparison O) Sum := by
  intro ws tree d
  cases d with
  | none operand => exact h _ _ operand
  | @compare t tag ws us left right hleft operator hright =>
    have isComparison : ∀ p ∈ comparisonOperators, ∃ op ∈ CompareOp.all, p.2 = .compare op := by
      decide
    obtain ⟨op, -, rfl⟩ := isComparison _ operator
    refine ⟨nofun, fun op' e htag he => ?_⟩
    cases htag
    simp only [SyntaxTree.node, SyntaxTree.children, Expr.ofComparison, bind_eq_ok, pure_eq_ok]
      at he
    obtain ⟨left', hl, right', hr, rfl⟩ := he
    obtain ⟨dl⟩ := (h _ _ hleft).operand left' hl
    obtain ⟨dr⟩ := (h _ _ hright).operand right' hr
    exact ⟨.compare dl operator dr⟩

theorem lowers_expressionTo (depth : Nat) : Lowers (ExpressionTo depth) Sum := by
  induction depth with
  | zero => exact nofun
  | succ depth ih =>
    have hfactor := lowers_signed (lowers_operand ih)
    have hproduct : Lowers (Joined productOperators _) Product :=
      lowers_arith hfactor (by decide) .factor .step
    have hsum : Lowers (Joined sumOperators _) Sum :=
      lowers_arith hproduct (by decide) .product .step
    exact lowers_logic (lowers_logic (lowers_comparison hsum) (by decide)) (by decide)

/-- An expression is lowered to what it means. -/
theorem lowers_expression : Lowers Expression Sum :=
  fun ws tree d => lowers_expressionTo ws.length ws tree d

/-! ### From meanings -/

/-- The products of the grammar. -/
abbrev Products : Language SyntaxTree := Joined productOperators (Signed (Operand Expression))

/-- The sums of the grammar. -/
abbrev Sums : Language SyntaxTree := Joined sumOperators Products

section FromMeanings

variable {ws : List Token} {tree : SyntaxTree} {e : Expr}

theorem expression_of_comparison (d : Derivation.Comparison Sums ws tree) :
    Derives Expression tree ws := by
  have hconjunction : Derives (Joined andOperators (Derivation.Comparison Sums)) tree ws :=
    nested_first d
  obtain ⟨conjunction⟩ := hconjunction
  exact derives_expression_iff.2 (nested_first conjunction)

theorem expression_of_sum (h : Derives Sums tree ws) : Derives Expression tree ws := by
  obtain ⟨d⟩ := h
  exact expression_of_comparison (.none d)

theorem expression_of_operand (d : Operand Expression ws tree) : Derives Expression tree ws := by
  have hproduct : Derives Products tree ws := nested_first (Signed.operand d)
  obtain ⟨product⟩ := hproduct
  exact expression_of_sum (nested_first product)

theorem ofTree_infixNode {left right : SyntaxTree} {l r : Expr} (hl : Expr.ofTree left = .ok l)
    (hr : Expr.ofTree right = .ok r) (op : ArithOp) :
    Expr.ofTree (infixNode left (.arith op, right)) = .ok (.arith op l r .unknown) := by
  simp only [infixNode, SyntaxTree.node, Expr.ofTree, hl, hr]
  rfl

mutual

/-- A sum is lowered from a tree of its tokens. -/
theorem exists_tree_of_sum {ws : List Token} {e : Expr} :
    Sum ws e → ∃ tree, Derives Sums tree ws ∧ Expr.ofTree tree = .ok e
  | .product d => by
    obtain ⟨tree, ⟨product⟩, he⟩ := exists_tree_of_product d
    exact ⟨tree, nested_first product, he⟩
  | .step before written d => by
    obtain ⟨left, hleft, hl⟩ := exists_tree_of_sum before
    obtain ⟨right, ⟨product⟩, hr⟩ := exists_tree_of_product d
    exact ⟨_, nested_step hleft (.mk written product), ofTree_infixNode hl hr _⟩

theorem exists_tree_of_product {ws : List Token} {e : Expr} :
    Product ws e → ∃ tree, Derives Products tree ws ∧ Expr.ofTree tree = .ok e
  | .factor d => by
    obtain ⟨tree, ⟨factor⟩, he⟩ := exists_tree_of_factor d
    exact ⟨tree, nested_first factor, he⟩
  | .step before written d => by
    obtain ⟨left, hleft, hl⟩ := exists_tree_of_product before
    obtain ⟨right, ⟨factor⟩, hr⟩ := exists_tree_of_factor d
    exact ⟨_, nested_step hleft (.mk written factor), ofTree_infixNode hl hr _⟩

theorem exists_tree_of_factor {ws : List Token} {e : Expr} :
    Factor ws e → ∃ tree, Derives (Signed (Operand Expression)) tree ws ∧ Expr.ofTree tree = .ok e
  | .number text => ⟨_, ⟨.operand (.number text)⟩, Expr.ofTree_number text⟩
  | .negative text => ⟨_, ⟨.negative text⟩, Expr.ofTree_number _⟩
  | .string text => ⟨_, ⟨.operand (.string text)⟩, rfl⟩
  | .column name => ⟨_, ⟨.operand (.column name)⟩, rfl⟩
  | .qualified qualifier name => ⟨_, ⟨.operand (.qualified qualifier name)⟩, rfl⟩
  | .starCall name => ⟨_, ⟨.operand (.starCall name)⟩, rfl⟩
  | .enclosed inner => by
    obtain ⟨tree, hsum, he⟩ := exists_tree_of_sum inner
    obtain ⟨expression⟩ := expression_of_sum hsum
    exact ⟨tree, ⟨.operand (.enclosed expression)⟩, he⟩

end

theorem exists_tree_of_comparison {op : CompareOp} (d : Comparison op ws e) :
    ∃ tree, Derives Expression tree ws ∧ tree.tag = .compare op ∧
      Expr.ofComparison op tree.children = .ok e := by
  induction d with
  | compare hleft written hright =>
    obtain ⟨left, ⟨dl⟩, hl⟩ := exists_tree_of_sum hleft
    obtain ⟨right, ⟨dr⟩, hr⟩ := exists_tree_of_sum hright
    refine ⟨_, expression_of_comparison (.compare dl written dr), rfl, ?_⟩
    simp only [SyntaxTree.node, SyntaxTree.children, Expr.ofComparison, hl, hr]
    rfl
  | enclosed inner ih =>
    obtain ⟨tree, ⟨expression⟩, htag, he⟩ := ih
    exact ⟨tree, expression_of_operand (.enclosed expression), htag, he⟩

end FromMeanings

/-! ### Places of expressions -/

/-- The values that the trees of the first language are lowered to are those that the second one
    gives the same tokens. -/
def Means {α β : Type} (L : Language α) (f : α → Lowered β) (M : Language β) : Prop :=
  ∀ ws b, Derives M b ws ↔ ∃ a, Derives L a ws ∧ f a = .ok b

/-- A sum is what an expression is lowered to as an operand. -/
theorem means_sum : Means Expression Expr.ofTree Sum := by
  intro ws e
  constructor
  · intro h
    obtain ⟨sum⟩ := h
    obtain ⟨tree, hsum, he⟩ := exists_tree_of_sum sum
    exact ⟨tree, expression_of_sum hsum, he⟩
  · intro h
    obtain ⟨tree, ⟨d⟩, he⟩ := h
    exact (lowers_expression _ _ d).operand e he

theorem means_predicate (place : Construct) :
    Means Expression (Expr.ofPredicateAt place) Predicate := by
  intro ws e
  constructor
  · intro h
    obtain ⟨⟨comparison⟩⟩ := h
    obtain ⟨tree, expression, htag, he⟩ := exists_tree_of_comparison comparison
    refine ⟨tree, expression, ?_⟩
    rw [Expr.ofPredicateAt, htag]
    exact he
  · intro h
    obtain ⟨tree, ⟨d⟩, he⟩ := h
    unfold Expr.ofPredicateAt at he
    split at he
    · rename_i op htag
      exact ((lowers_expression _ _ d).comparison op e htag he).map .mk
    · cases he

theorem means_condition : Means Expression Expr.ofCondition (Comparison .eq) := by
  intro ws e
  constructor
  · intro h
    obtain ⟨comparison⟩ := h
    obtain ⟨tree, expression, htag, he⟩ := exists_tree_of_comparison comparison
    refine ⟨tree, expression, ?_⟩
    rw [Expr.ofCondition, htag]
    exact he
  · intro h
    obtain ⟨tree, ⟨d⟩, he⟩ := h
    unfold Expr.ofCondition at he
    split at he
    · rename_i htag
      exact (lowers_expression _ _ d).comparison .eq e htag he
    · cases he
    · cases he

/-- The expressions that are lowered to fields are the columns. -/
theorem ofGrouping_eq_ok {tree : SyntaxTree} {e : Expr} (h : tree.IsExpression) :
    Expr.ofGrouping tree = .ok e ↔ ∃ f, e = .field f ∧ Expr.ofTree tree = .ok (.field f) := by
  unfold Expr.ofGrouping
  split
  · rename_i htag
    have hcolumn := h.isColumn_iff.2 htag
    have hfield : ∃ f, Expr.ofTree tree = .ok (.field f) := by
      cases hcolumn <;> exact ⟨_, rfl⟩
    obtain ⟨f, hf⟩ := hfield
    rw [hf]
    simp [eq_comm]
  · rename_i noColumn
    refine ⟨nofun, fun given => ?_⟩
    obtain ⟨f, -, hf⟩ := given
    cases h with
    | number text =>
      rw [Expr.ofTree_number] at hf
      cases hf
    | column name => exact absurd (.inl rfl) noColumn
    | qualified qualifier name => exact absurd (.inr rfl) noColumn
    | @operator tag left right isOperator hleft hright =>
      cases tag <;> cases isOperator
      case operator.arith.refl op =>
        simp only [SyntaxTree.node, Expr.ofTree, bind_eq_ok, pure_eq_ok] at hf
        obtain ⟨_, -, _, -, hf⟩ := hf
        cases hf
      all_goals cases hf
    | _ => cases hf

theorem means_column : Means Expression Expr.ofGrouping Column := by
  intro ws e
  constructor
  · intro h
    obtain ⟨⟨column⟩⟩ := h
    obtain ⟨tree, hsum, he⟩ := exists_tree_of_sum column
    obtain ⟨d⟩ := expression_of_sum hsum
    exact ⟨tree, ⟨d⟩, (ofGrouping_eq_ok (makes_expression _ _ d)).2 ⟨_, rfl, he⟩⟩
  · intro h
    obtain ⟨tree, ⟨d⟩, he⟩ := h
    obtain ⟨f, rfl, hf⟩ := (ofGrouping_eq_ok (makes_expression _ _ d)).1 he
    exact ((lowers_expression _ _ d).operand _ hf).map .mk

end Meaning

end SqlGuard
