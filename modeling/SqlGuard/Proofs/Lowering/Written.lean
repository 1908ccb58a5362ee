import SqlGuard.Proofs.Grammar.Query
import SqlGuard.Proofs.Lowering.Nodes

/-!
# Lowering the trees of statements

The tree of an expression or a query of the right shape is lowered to the expression or the query
itself. Main statement: `Query.IsShaped.ofTree_tree`.
-/

namespace SqlGuard

open Grammar

/-! ### Expressions -/

/-- A number is a leaf of one of the kinds of numbers. -/
theorem numberLiteral_tag (text : String) :
    (numberLiteral text).tag ∈ [Tag.decimalLiteral, .bigintLiteral, .smallintLiteral,
      .tinyintLiteral, .number] := by
  unfold numberLiteral
  split
  · exact List.mem_cons_self
  · exact List.mem_cons_of_mem _ List.mem_cons_self
  · exact List.mem_cons_of_mem _ (List.mem_cons_of_mem _ List.mem_cons_self)
  · simp [SyntaxTree.leaf, SyntaxTree.tag]
  · simp [SyntaxTree.leaf, SyntaxTree.tag]

theorem Expr.tree_tag_ne_identifier (e : Expr) : e.tree.tag ≠ .identifier := by
  have hnumber : ∀ text, (numberLiteral text).tag ≠ .identifier := by
    intro text h
    have hmem := numberLiteral_tag text
    rw [h] at hmem
    revert hmem
    decide
  cases e with
  | field f =>
    unfold Expr.tree
    split <;> exact Tag.noConfusion
  | literal kind text =>
    cases kind with
    | int => exact hnumber text
    | float => exact hnumber text
    | string => exact Tag.noConfusion
  | starCall name => exact Tag.noConfusion
  | arith op left right note => exact Tag.noConfusion
  | compare op left right => exact Tag.noConfusion

theorem Expr.IsOperand.ofTree_tree {e : Expr} (shape : e.IsOperand) :
    Expr.ofTree e.tree = .ok e := by
  induction shape with
  | field qualifier name =>
    unfold Expr.tree
    by_cases hq : (Field.unresolved qualifier name).qualifier.isEmpty = true
    · have hempty : qualifier = "" := String.isEmpty_iff.1 hq
      rw [if_pos hq, hempty]
      rfl
    · rw [if_neg hq]
      rfl
  | @number kind text assigned =>
    cases kind with
    | int => exact assigned
    | float => exact assigned
    | string => exact absurd rfl (numberLiteral_kind assigned)
  | string text => rfl
  | starCall name => rfl
  | arith op _ _ ihl ihr =>
    simp only [Expr.tree, SyntaxTree.node, Expr.ofTree, ihl, ihr]
    rfl

theorem Expr.IsPredicate.ofPredicateAt_tree {e : Expr} (shape : e.IsPredicate)
    (place : Construct) : Expr.ofPredicateAt place e.tree = .ok e := by
  cases shape with
  | compare op hleft hright =>
    simp only [Expr.tree, SyntaxTree.node, Expr.ofPredicateAt, SyntaxTree.tag, SyntaxTree.children,
      Expr.ofComparison, hleft.ofTree_tree, hright.ofTree_tree]
    rfl

theorem Expr.IsColumn.ofGrouping_tree {e : Expr} (shape : e.IsColumn) :
    Expr.ofGrouping e.tree = .ok e := by
  cases shape with
  | field qualifier name =>
    have htag : (Expr.field (.unresolved qualifier name)).tree.tag = .column ∨
        (Expr.field (.unresolved qualifier name)).tree.tag = .qualified := by
      unfold Expr.tree
      split
      · exact .inl rfl
      · exact .inr rfl
    rw [Expr.ofGrouping, if_pos htag]
    exact (Expr.IsOperand.field qualifier name).ofTree_tree

theorem Expr.IsEquality.ofTree_condition {e : Expr} (shape : e.IsEquality)
    (side : Lowered TableChain) : JoinPart.ofTree e.tree side = .ok (.condition e) := by
  cases shape with
  | eq hleft hright =>
    simp only [Expr.tree, SyntaxTree.node, JoinPart.ofTree, SyntaxTree.tag, SyntaxTree.children,
      Expr.ofComparison, hleft.ofTree_tree, hright.ofTree_tree]
    rfl

theorem SelectItem.ofTree_tree {item : SelectItem} (shape : item.expr.IsOperand) :
    SelectItem.ofTree item.tree = .ok item := by
  rw [SelectItem.tree, SelectItem.ofTree_node item.expr.tree_tag_ne_identifier, shape.ofTree_tree]
  rfl

theorem mapM_map_eq_ok {ε α β : Type} {f : β → Except ε α} {g : α → β} {xs : List α}
    (h : ∀ x ∈ xs, f (g x) = .ok x) : (xs.map g).mapM f = .ok xs := by
  rw [mapM_eq_ok, List.forall₂_map_left_iff]
  exact List.forall₂_same.2 h

/-! ### FROM clauses -/

theorem TableRef.sourceTree_tag (t : TableRef) : t.sourceTree.tag.isTables = true := by
  obtain ⟨source, alias?, join?⟩ := t
  cases source <;> rw [TableRef.sourceTree, Source.tree] <;> rfl

/-- The source of a reference is lowered to the reference without its join. -/
theorem TableRef.tablesAt_sourceTree {t : TableRef} (place : Construct)
    (views : ∀ view, t.source = .view view →
      Query.ofTree (view.tree tempDestination) = .ok view) :
    tablesAt place t.sourceTree = .ok [{ t with join? := none }] := by
  obtain ⟨source, alias?, join?⟩ := t
  cases source with
  | table name =>
    rw [TableRef.sourceTree, Source.tree]
    exact tablesAt_tableRef place name alias?
  | view view =>
    have hquery : (view.tree tempDestination).tag = .query := by
      obtain ⟨items, where?, groupBy, tables⟩ := view
      rw [Query.tree]
      rfl
    rw [TableRef.sourceTree, Source.tree, tablesAt_subquery place hquery, views view rfl]
    rfl

/-- References that are joined one after the other to those before them. -/
theorem tablesAt_joinTree {tables : List TableRef}
    (sources : ∀ t ∈ tables, ∀ place, tablesAt place t.sourceTree = .ok [{ t with join? := none }])
    {first : SyntaxTree} {chain : TableChain} (hfirst : tablesAt .join first = .ok chain)
    (isTables : first.tag.isTables = true) (some_ : chain ≠ [])
    (joined : ∀ (k : Nat) t, tables[k]? = some t → ∃ join, t.join? = some join ∧
      join.left = chain.length - 1 + k ∧ ∀ e, join.on? = some e → e.IsEquality) :
    tablesAt .join (joinTree first (linkSteps tables)) = .ok (chain ++ tables) := by
  induction tables generalizing first chain with
  | nil => rw [linkSteps, List.append_nil]; exact hfirst
  | cons t ts ih =>
    rw [List.forall_mem_cons] at sources
    obtain ⟨⟨op, on?, left⟩, hjoin, hleft, hon⟩ := joined 0 t rfl
    have hparts : ((on?.map Expr.tree).toList.mapM fun on =>
        JoinPart.ofTree on (tablesAt .join on)) = .ok (on?.toList.map .condition) := by
      cases on? with
      | none => rfl
      | some e =>
        simp only [Option.map_some, Option.toList_some, List.mapM_cons, List.mapM_nil,
          (hon e rfl).ofTree_condition]
        rfl
    have hlength : 0 < chain.length := List.length_pos_iff.2 some_
    have hstep : tablesAt .join
        (.node (.join op) (first :: t.sourceTree :: (on?.map Expr.tree).toList)) =
          .ok (chain ++ [t]) := by
      rw [tablesAt_join isTables t.sourceTree_tag, hfirst, sources.1]
      simp only [bind, Except.bind, hparts]
      rw [TableChain.ofJoinParts_single some_ rfl, TableChain.joinedTo]
      obtain ⟨source, alias?, join?⟩ := t
      cases hjoin
      cases hleft
      rfl
    rw [linkSteps, hjoin]
    have hmore := ih sources.2 hstep rfl (by simp) (by
      intro k u hk
      obtain ⟨join, hjoin, hleft, hon⟩ := joined (k + 1) u hk
      refine ⟨join, hjoin, ?_, hon⟩
      rw [hleft, List.length_append, List.length_singleton]
      omega)
    rw [List.append_assoc] at hmore
    exact hmore

theorem IsChain.tablesOf_tree {tables : List TableRef} (chain : IsChain tables)
    (sources : ∀ t ∈ tables, ∀ place,
      tablesAt place t.sourceTree = .ok [{ t with join? := none }]) :
    tablesOf? (fromTree? tables) = .ok tables := by
  cases tables with
  | nil => rfl
  | cons t ts =>
    rw [List.forall_mem_cons] at sources
    have hnone : t.join? = none := chain.first t rfl
    have hsame : ({ t with join? := none } : TableRef) = t := by
      obtain ⟨source, alias?, join?⟩ := t
      cases hnone
      rfl
    have hfirst : tablesAt .join t.sourceTree = .ok [t] := by
      rw [sources.1, hsame]
    have hjoined := tablesAt_joinTree sources.2 hfirst t.sourceTree_tag (List.cons_ne_nil t []) (by
      intro k u hk
      obtain ⟨join, hjoin, hleft, hon⟩ := chain.later k u hk
      exact ⟨join, hjoin, by simp [hleft], hon⟩)
    rw [fromTree?]
    exact tablesAt_place .fromClause hjoined

/-! ### Queries -/

/-- The tree of a query of the right shape is lowered to the query. -/
theorem Query.IsShaped.ofTree_tree {query : Query} (shaped : query.IsShaped)
    (destination : SyntaxTree) : Query.ofTree (query.tree destination) = .ok query := by
  induction shaped generalizing destination with
  | @intro query _ items condition grouping chain _ ih =>
    obtain ⟨selected, where?, groupBy, tables⟩ := query
    have htables := chain.tablesOf_tree fun t ht place =>
      TableRef.tablesAt_sourceTree place fun view hs => ih t ht view hs tempDestination
    have hitems : (selected.map SelectItem.tree).mapM SelectItem.ofTree = .ok selected :=
      mapM_map_eq_ok fun item hitem => SelectItem.ofTree_tree (items item hitem)
    have hwhere : conditionOf? (where?.map Expr.tree) = .ok where? := by
      cases where? with
      | none => rfl
      | some e =>
        simp only [Option.map_some, conditionOf?, (condition e rfl).ofPredicateAt_tree]
        rfl
    have hgroup : ((groupTrees? groupBy).getD []).mapM Expr.ofGrouping = .ok groupBy := by
      unfold groupTrees?
      cases groupBy with
      | nil => rfl
      | cons e es => exact mapM_map_eq_ok fun x hx => (grouping x hx).ofGrouping_tree
    rw [Query.tree, Query.ofTree_queryNode, htables, hitems, hwhere, hgroup]
    rfl

end SqlGuard
