import SqlGuard.Proofs.Grammar.ParsedQuery
import SqlGuard.Proofs.Lowering.Written
import SqlGuard.Proofs.Token.Scanned

/-!
# Lowering the expressions that were read

Trees of expressions are lowered to operands and predicates, whose names and literals are among the
tokens that were read, in their order. Main statements: `ExprTree.ofTree` and
`ExprTree.ofPredicateAt`.
-/

namespace SqlGuard

open Reader Grammar

/-- Whether the token is a name or a literal. -/
def Token.hasText : Token → Bool
  | .ident _ | .number _ | .string _ => true
  | _ => false

/-- The names and literals among the first tokens are among the second ones, in the same order. -/
def DrawnFrom (ts ws : List Token) : Prop := (ts.filter Token.hasText).Sublist ws

namespace DrawnFrom

variable {ts us ws vs : List Token} {t : Token}

theorem append (hts : DrawnFrom ts ws) (hus : DrawnFrom us vs) :
    DrawnFrom (ts ++ us) (ws ++ vs) := by
  unfold DrawnFrom
  rw [List.filter_append]
  exact List.Sublist.append hts hus

/-- A token that is no name and no literal is not drawn from anywhere. -/
theorem cons (noText : t.hasText = false) (h : DrawnFrom ts ws) : DrawnFrom (t :: ts) ws := by
  unfold DrawnFrom
  rw [List.filter_cons_of_neg (by simp [noText])]
  exact h

theorem nil : DrawnFrom [] ws := List.nil_sublist ws

theorem of_filter (h : ts.filter Token.hasText = ws) : DrawnFrom ts ws := by
  unfold DrawnFrom
  rw [h]

theorem mono (h : DrawnFrom ts ws) (hsub : ws.Sublist vs) : DrawnFrom ts vs := h.trans hsub

theorem enclosed (parentheses : Bool) (h : DrawnFrom ts ws) :
    DrawnFrom (enclosedTokens parentheses ts) ws := by
  cases parentheses with
  | false => exact h
  | true =>
    have hclose : DrawnFrom [.mark .rparen] [] := of_filter rfl
    have happend := (h.append hclose).cons (t := .mark .lparen) rfl
    rw [List.append_nil] at happend
    exact happend

end DrawnFrom

/-! ### Expressions -/

theorem numberTokens_negative (text : String) :
    numberTokens ("-" ++ text) = [.mark .minus, .number text] := by
  have htext : ("-" ++ text).toList = '-' :: text.toList := String.toList_append
  rw [numberTokens, htext]
  simp only [String.ofList_toList]

theorem Token.IsNumber.numberTokens {text : String} (h : Token.IsNumber text) :
    numberTokens text = [.number text] := by
  obtain ⟨digits, fraction, suffix, htext, hne, hdigits, -, -⟩ := h
  unfold SqlGuard.numberTokens
  split
  · rename_i more hsign
    cases digits with
    | nil => exact absurd rfl hne
    | cons c digits =>
      rw [htext] at hsign
      cases hsign
      cases hdigits
  · rfl

theorem ofTree_numberLiteral (text : String) :
    ∃ kind, Expr.ofTree (numberLiteral text) = .ok (.literal kind text) := by
  unfold numberLiteral
  split <;> exact ⟨_, rfl⟩

/-- A number is lowered to an operand with its text. -/
theorem ofTree_numberLiteral_eq_ok {text : String} {e : Expr}
    (h : Expr.ofTree (numberLiteral text) = .ok e) :
    e.IsOperand ∧ e.tokens = numberTokens text := by
  obtain ⟨kind, hkind⟩ := ofTree_numberLiteral text
  rw [hkind] at h
  cases h
  refine ⟨.number hkind, ?_⟩
  cases kind with
  | int => rfl
  | float => rfl
  | string => exact absurd rfl (numberLiteral_kind hkind)

/-- The kinds of nodes that expressions are read as. -/
def Tag.isExpr : Tag → Bool
  | .column | .starCall | .qualified | .arith _ | .compare _ | .conjunction | .disjunction
  | .number | .bigintLiteral | .smallintLiteral | .tinyintLiteral | .decimalLiteral
  | .stringLiteral | .other _ => true
  | _ => false

theorem Tag.ne_identifier_of_isExpr {tag : Tag} (h : tag.isExpr = true) : tag ≠ .identifier := by
  rintro rfl
  cases h

namespace Grammar

theorem isExpr_numberLiteral (text : String) : (numberLiteral text).tag.isExpr = true := by
  have hall : ∀ tag ∈ [Tag.decimalLiteral, .bigintLiteral, .smallintLiteral, .tinyintLiteral,
      .number], tag.isExpr = true := by decide
  exact hall _ (numberLiteral_tag text)

theorem ExprTree.isExpr {tree : SyntaxTree} {ws : List Token} (h : ExprTree tree ws) :
    tree.tag.isExpr = true := by
  cases h with
  | number text => exact isExpr_numberLiteral text
  | negative text => exact isExpr_numberLiteral _
  | string text => rfl
  | column name => rfl
  | qualified qualifier name => rfl
  | starCall name => rfl
  | call name arguments ws => rfl
  | negated tree ws => rfl
  | @operator tag left right ws us isOperator hleft hright =>
    show tag.isExpr = true
    cases tag <;> first | rfl | cases isOperator

/-- Trees of expressions are lowered to operands. -/
theorem ExprTree.ofTree {tree : SyntaxTree} {ws : List Token} (h : ExprTree tree ws)
    (scanned : ∀ t ∈ ws, t.IsScanned) {e : Expr} (he : Expr.ofTree tree = .ok e) :
    e.IsOperand ∧ DrawnFrom e.tokens ws := by
  induction h generalizing e with
  | number text =>
    obtain ⟨shape, htokens⟩ := ofTree_numberLiteral_eq_ok he
    have number : Token.IsNumber text := scanned _ List.mem_cons_self
    rw [htokens, number.numberTokens]
    exact ⟨shape, .of_filter rfl⟩
  | negative text =>
    obtain ⟨shape, htokens⟩ := ofTree_numberLiteral_eq_ok he
    rw [htokens, numberTokens_negative]
    exact ⟨shape, .of_filter rfl⟩
  | string text =>
    cases he
    exact ⟨.string text, .of_filter rfl⟩
  | column name =>
    cases he
    exact ⟨.field "" name, .of_filter rfl⟩
  | qualified qualifier name =>
    cases he
    refine ⟨.field qualifier name, ?_⟩
    rw [Expr.tokens]
    split
    · exact List.sublist_cons_self _ _
    · exact .of_filter rfl
  | starCall name =>
    cases he
    exact ⟨.starCall name, .of_filter rfl⟩
  | call name arguments ws => cases he
  | negated tree ws => cases he
  | @operator tag left right ws us isOperator hleft hright ihl ihr =>
    rw [List.forall_mem_append] at scanned
    cases tag <;> cases isOperator
    case operator.arith.refl op =>
      simp only [SyntaxTree.node, Expr.ofTree, bind_eq_ok] at he
      obtain ⟨left', hl, right', hr, he⟩ := he
      cases he
      obtain ⟨shapel, drawnl⟩ := ihl scanned.1 hl
      obtain ⟨shaper, drawnr⟩ := ihr scanned.2 hr
      refine ⟨.arith op shapel shaper, ?_⟩
      exact (drawnl.enclosed _).append ((drawnr.enclosed _).cons rfl)
    all_goals cases he

/-- A comparison has two operands. -/
theorem ExprTree.ofComparison {tree : SyntaxTree} {ws : List Token} (h : ExprTree tree ws)
    (scanned : ∀ t ∈ ws, t.IsScanned) {op : CompareOp} (htag : tree.tag = .compare op) {e : Expr}
    (he : Expr.ofComparison op tree.children = .ok e) :
    ∃ left right, e = .compare op left right ∧ left.IsOperand ∧ right.IsOperand ∧
      DrawnFrom e.tokens ws := by
  cases h with
  | @operator tag left right us vs isOperator hleft hright =>
    rw [List.forall_mem_append] at scanned
    simp only [SyntaxTree.node, SyntaxTree.children, Expr.ofComparison, bind_eq_ok] at he
    obtain ⟨left', hl, right', hr, he⟩ := he
    cases he
    obtain ⟨shapel, drawnl⟩ := hleft.ofTree scanned.1 hl
    obtain ⟨shaper, drawnr⟩ := hright.ofTree scanned.2 hr
    exact ⟨left', right', rfl, shapel, shaper, drawnl.append (drawnr.cons rfl)⟩
  | number text => exact absurd htag (ne_of_mem_of_not_mem (numberLiteral_tag _) (by simp))
  | negative text => exact absurd htag (ne_of_mem_of_not_mem (numberLiteral_tag _) (by simp))
  | _ => cases htag

theorem ExprTree.ofPredicateAt {tree : SyntaxTree} {ws : List Token} (h : ExprTree tree ws)
    (scanned : ∀ t ∈ ws, t.IsScanned) {place : Construct} {e : Expr}
    (he : Expr.ofPredicateAt place tree = .ok e) : e.IsPredicate ∧ DrawnFrom e.tokens ws := by
  unfold Expr.ofPredicateAt at he
  split at he
  · rename_i op htag
    obtain ⟨left, right, rfl, shapel, shaper, drawn⟩ := h.ofComparison scanned htag he
    exact ⟨.compare op shapel shaper, drawn⟩
  · cases he

theorem tablesAt_of_isExpr {place : Construct} {tree : SyntaxTree} (h : tree.tag.isExpr = true)
    (chain : TableChain) : tablesAt place tree ≠ .ok chain := by
  obtain ⟨tag, text, children⟩ := tree
  intro hchain
  cases tag <;> first | cases hchain | cases h

/-- The condition of a join is an equality. -/
theorem ExprTree.ofCondition {tree : SyntaxTree} {ws : List Token} (h : ExprTree tree ws)
    (scanned : ∀ t ∈ ws, t.IsScanned) {part : JoinPart}
    (hpart : JoinPart.ofTree tree (tablesAt .join tree) = .ok part) :
    ∃ e : Expr, part = .condition e ∧ e.IsEquality ∧ DrawnFrom e.tokens ws := by
  unfold JoinPart.ofTree at hpart
  split at hpart
  · rename_i htag
    rw [map_eq_ok] at hpart
    obtain ⟨e, he, rfl⟩ := hpart
    obtain ⟨left, right, rfl, shapel, shaper, drawn⟩ := h.ofComparison scanned htag he
    exact ⟨_, rfl, .eq shapel shaper, drawn⟩
  · cases hpart
  · rw [map_eq_ok] at hpart
    obtain ⟨chain, hchain, -⟩ := hpart
    exact absurd hchain (tablesAt_of_isExpr h.isExpr chain)

/-- Rows are grouped by columns. -/
theorem ExprTree.ofGrouping {tree : SyntaxTree} {ws : List Token} (h : ExprTree tree ws)
    (scanned : ∀ t ∈ ws, t.IsScanned) {e : Expr} (he : Expr.ofGrouping tree = .ok e) :
    e.IsColumn ∧ DrawnFrom e.tokens ws := by
  unfold Expr.ofGrouping at he
  split at he
  · rename_i htag
    refine ⟨?_, (h.ofTree scanned he).2⟩
    have noNumber : ∀ text, ¬ ((numberLiteral text).tag = .column ∨
        (numberLiteral text).tag = .qualified) := by
      intro text
      rw [not_or]
      exact ⟨ne_of_mem_of_not_mem (numberLiteral_tag text) (by decide),
        ne_of_mem_of_not_mem (numberLiteral_tag text) (by decide)⟩
    cases h with
    | column name =>
      cases he
      exact .field "" name
    | qualified qualifier name =>
      cases he
      exact .field qualifier name
    | number text => exact absurd htag (noNumber text)
    | negative text => exact absurd htag (noNumber _)
    | operator isOperator => rcases htag with rfl | rfl <;> cases isOperator
    | _ => rcases htag with htag | htag <;> cases htag
  · cases he

end Grammar

end SqlGuard
