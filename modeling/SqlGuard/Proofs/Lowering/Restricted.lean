import SqlGuard.Lowering.Statement
import SqlGuard.Proofs.Lowering.Levels

/-!
# Statements that trees have

A tree, whoever made it, is lowered to a query or to a `LOAD` that overwrites its table. At every
level of the query comparisons stand in WHERE and ON only, where they are not part of anything, and
no column and no arithmetic has a note. Writing a statement relies on it: comparisons have no
parentheses around them. Main statement: `Statement.ofTree_isRestricted`.
-/

namespace SqlGuard

/-- The expression holds no comparison, and nothing in it has a note. -/
def Expr.IsTerm : Expr → Prop
  | .field f => f.type = .unknown ∧ f.isProtected = false
  | .literal _ _ | .starCall _ => True
  | .arith _ left right type => left.IsTerm ∧ right.IsTerm ∧ type = .unknown
  | .compare _ _ _ => False

/-- The expression compares two terms. -/
def Expr.ComparesTerms (op : CompareOp) (e : Expr) : Prop :=
  ∃ left right : Expr, left.IsTerm ∧ right.IsTerm ∧ e = .compare op left right

/-- What each clause of a query may hold, apart from the views of its FROM clause. -/
structure Query.IsRestricted (query : Query) : Prop where
  items : ∀ item ∈ query.items, item.expr.IsTerm
  condition : ∀ e, query.where? = some e → ∃ op, e.ComparesTerms op
  joinConditions : ∀ t ∈ query.tables, ∀ e, t.on? = some e → e.ComparesTerms .eq
  grouping : ∀ e ∈ query.groupBy, e.IsTerm ∧ ∃ f, e = .field f

/-- A query that is restricted at every level, or a `LOAD` that overwrites its table. -/
inductive Statement.IsRestricted : Statement → Prop
  | select {query : Query} (levels : ∀ inner, query.Contains inner → inner.IsRestricted) :
      IsRestricted (.select query)
  | load (path table : String) : IsRestricted (.load path table true)

/-! ### Expressions -/

theorem Field.isTerm_ofQualified? {trees : List SyntaxTree} {f : Field}
    (h : Field.ofQualified? trees = some f) : (Expr.field f).IsTerm := by
  unfold Field.ofQualified? at h
  split at h
  · split at h
    · obtain ⟨qualifier, -, rfl⟩ := Option.map_eq_some_iff.1 h
      exact ⟨rfl, rfl⟩
    · cases h
  · cases h

namespace Expr

variable {tree : SyntaxTree} {e : Expr}

theorem isTerm_ofAtom (h : ofAtom tree = .ok e) : e.IsTerm := by
  obtain ⟨tag, text, children⟩ := tree
  unfold ofAtom at h
  cases tag with
  | qualified =>
    dsimp only [SyntaxTree.tag] at h
    split at h
    · rename_i f hf
      cases h
      exact Field.isTerm_ofQualified? hf
    · cases h
  | column =>
    dsimp only [SyntaxTree.tag] at h
    split at h
    · cases h
      exact ⟨rfl, rfl⟩
    · cases h
  | starCall =>
    dsimp only [SyntaxTree.tag] at h
    split at h
    · cases h
      trivial
    · cases h
  | number | bigintLiteral | smallintLiteral | tinyintLiteral | decimalLiteral | stringLiteral =>
    cases h
    trivial
  | _ => cases h

/-- An operand is a term. -/
theorem isTerm_ofTree (tree : SyntaxTree) {e : Expr} (h : ofTree tree = .ok e) : e.IsTerm := by
  induction tree using ofTree.induct generalizing e with
  | case1 op text left right ihl ihr =>
    simp only [ofTree, bind_eq_ok, pure_eq_ok] at h
    obtain ⟨l, hl, r, hr, rfl⟩ := h
    exact ⟨ihl hl, ihr hr, rfl⟩
  | case2 op text operands hcount =>
    rw [ofTree] at h
    · cases h
    · exact hcount
  | case3 tree hpair harith =>
    rw [ofTree] at h
    · exact isTerm_ofAtom h
    · exact hpair
    · exact harith

theorem comparesTerms_ofComparison {op : CompareOp} {operands : List SyntaxTree}
    (h : ofComparison op operands = .ok e) : e.ComparesTerms op := by
  unfold ofComparison at h
  split at h
  · simp only [bind_eq_ok, pure_eq_ok] at h
    obtain ⟨left, hleft, right, hright, rfl⟩ := h
    exact ⟨left, right, isTerm_ofTree _ hleft, isTerm_ofTree _ hright, rfl⟩
  · cases h

theorem comparesTerms_ofPredicateAt {place : Construct} (h : ofPredicateAt place tree = .ok e) :
    ∃ op, e.ComparesTerms op := by
  unfold ofPredicateAt at h
  split at h
  · exact ⟨_, comparesTerms_ofComparison h⟩
  · cases h

/-- What groups rows is a column. -/
theorem exists_field_ofGrouping (h : ofGrouping tree = .ok e) : ∃ f, e = .field f := by
  obtain ⟨tag, text, children⟩ := tree
  unfold ofGrouping at h
  split at h
  · rename_i htag
    rcases htag with htag | htag
    · cases htag
      cases children with
      | nil => cases h
      | cons name more =>
        cases h
        exact ⟨_, rfl⟩
    · cases htag
      rw [ofTree, ofAtom] at h
      · dsimp only [SyntaxTree.tag] at h
        split at h
        · cases h
          exact ⟨_, rfl⟩
        · cases h
      · nofun
      · nofun
  · cases h

theorem isTerm_ofGrouping (h : ofGrouping tree = .ok e) : e.IsTerm := by
  unfold ofGrouping at h
  split at h
  · exact isTerm_ofTree tree h
  · cases h

end Expr

/-! ### Clauses -/

theorem SelectItem.isTerm_ofTree {tree : SyntaxTree} {item : SelectItem}
    (h : SelectItem.ofTree tree = .ok item) : item.expr.IsTerm := by
  unfold SelectItem.ofTree at h
  split at h
  · obtain ⟨parts, hparts, h⟩ := bind_eq_ok.1 h
    split at h
    · rename_i expr hexpr
      cases h
      obtain ⟨part, hpart, isExpr⟩ := lastSome?_eq_some hexpr
      obtain ⟨child, -, hchild⟩ := exists_of_mem_mapM hparts hpart
      unfold ItemPart.ofTree at hchild
      split at hchild
      · cases hchild
        cases isExpr
      · obtain ⟨e, he, rfl⟩ := map_eq_ok.1 hchild
        cases isExpr
        exact Expr.isTerm_ofTree child he
    · cases h
  · cases h

/-- What a clause says of a selection fits the place it has there. -/
structure Clause.IsRestricted (clause : Clause) : Prop where
  items : ∀ items, clause.items? = some items → ∀ item ∈ items, item.expr.IsTerm
  condition : ∀ e, clause.condition? = some (some e) → ∃ op, e.ComparesTerms op
  grouping : ∀ es, clause.grouping? = some es → ∀ e ∈ es, e.IsTerm ∧ ∃ f, e = .field f

theorem Clause.isRestricted_ofTree {tree : SyntaxTree} {clause : Clause}
    (h : Clause.ofTree tree = .ok clause) : clause.IsRestricted := by
  unfold Clause.ofTree at h
  split at h
  · obtain ⟨items, hitems, rfl⟩ := map_eq_ok.1 h
    refine ⟨?_, nofun, nofun⟩
    intro _ hsome item hitem
    cases hsome
    obtain ⟨child, -, hchild⟩ := exists_of_mem_mapM hitems hitem
    exact SelectItem.isTerm_ofTree hchild
  · obtain ⟨es, hes, h⟩ := bind_eq_ok.1 h
    cases h
    refine ⟨nofun, ?_, nofun⟩
    intro e hsome
    have he : e ∈ es := List.mem_of_getLast? (Option.some.inj hsome)
    obtain ⟨child, -, hchild⟩ := exists_of_mem_mapM hes he
    exact Expr.comparesTerms_ofPredicateAt hchild
  · obtain ⟨es, hes, rfl⟩ := map_eq_ok.1 h
    refine ⟨nofun, nofun, ?_⟩
    intro _ hsome e he
    cases hsome
    obtain ⟨child, -, hchild⟩ := exists_of_mem_mapM hes he
    exact ⟨Expr.isTerm_ofGrouping hchild, Expr.exists_field_ofGrouping hchild⟩
  · cases h
    exact ⟨nofun, nofun, nofun⟩
  · cases h

/-- The condition of a join that a reference carries is the last that a tree states for it. -/
theorem TableChain.comparesTerms_on? {tree : SyntaxTree} {chain : TableChain}
    (accepted : TableChain.ofTree tree = .ok chain) {t : TableRef} (reference : t ∈ chain)
    {e : Expr} (stated : t.on? = some e) : e.ComparesTerms .eq := by
  rw [TableChain.ofTree, map_eq_ok] at accepted
  obtain ⟨chains, hchains, rfl⟩ := accepted
  -- where a join was noted over another one, its own condition took the place of the other
  have noted := SyntaxTree.noted_fromElements tree.children hchains
  rw [SyntaxTree.Noted, ← notes_concat, notes_eq_map] at noted
  obtain ⟨join, hjoin, hon⟩ := Option.bind_eq_some_iff.1 stated
  have carried : (join.op, join.on?) ∈ ((concat chains).filterMap TableRef.join?).map
      fun join => (join.op, join.on?) :=
    List.mem_map_of_mem (List.mem_filterMap.2 ⟨t, reference, hjoin⟩)
  obtain ⟨node, -, last⟩ := forall₂_mem_right noted carried
  obtain ⟨es, hes, hlast⟩ := last.on
  have he : e ∈ es := List.mem_of_getLast? (hlast.symm.trans hon)
  obtain ⟨condition, -, hcondition⟩ := exists_of_mem_mapM hes he
  exact Expr.comparesTerms_ofComparison hcondition

/-! ### Queries and statements -/

/-- What holds of each of several lists holds of the last one that is found, if there is any. -/
theorem forall_mem_getD_lastSome? {α β : Type} {f : α → Option (List β)} {xs : List α}
    {P : β → Prop} (each : ∀ x ∈ xs, ∀ ys, f x = some ys → ∀ y ∈ ys, P y) :
    ∀ y ∈ (lastSome? f xs).getD [], P y := by
  cases hlast : lastSome? f xs with
  | none => exact nofun
  | some ys =>
    obtain ⟨x, hx, hys⟩ := lastSome?_eq_some hlast
    exact each x hx ys hys

theorem Query.isRestricted_ofTree {tree : SyntaxTree} {query : Query}
    (accepted : Query.ofTree tree = .ok query) : query.IsRestricted := by
  obtain ⟨insert, -, -, hselection⟩ := exists_insertClause accepted
  obtain ⟨clauses, hclauses, hselection⟩ := map_eq_ok.1 hselection
  obtain ⟨hitems, hwhere, hgroup⟩ := Selection.mk.inj hselection
  have restricted : ∀ clause ∈ clauses, clause.IsRestricted := by
    intro clause hclause
    obtain ⟨child, -, hchild⟩ := exists_of_mem_mapM hclauses hclause
    exact Clause.isRestricted_ofTree hchild
  refine ⟨?_, ?_, ?_, ?_⟩
  · rw [← hitems]
    exact forall_mem_getD_lastSome? fun clause hclause => (restricted clause hclause).items
  · intro e stated
    rw [← hwhere, Option.join_eq_some_iff] at stated
    obtain ⟨clause, hclause, states⟩ := lastSome?_eq_some stated
    exact (restricted clause hclause).condition e states
  · intro t reference e stated
    rcases exists_fromClause accepted with hnone | ⟨clause, -, -, hclause⟩
    · rw [hnone] at reference
      cases reference
    · exact TableChain.comparesTerms_on? hclause reference stated
  · rw [← hgroup]
    exact forall_mem_getD_lastSome? fun clause hclause => (restricted clause hclause).grouping

/-- Whatever tree a statement is lowered from, it is a restricted query or a `LOAD` that
    overwrites. -/
theorem Statement.ofTree_isRestricted {tree : SyntaxTree} {s : Statement}
    (accepted : Statement.ofTree tree = .ok s) : s.IsRestricted := by
  unfold Statement.ofTree at accepted
  split at accepted
  · obtain ⟨query, hquery, rfl⟩ := map_eq_ok.1 accepted
    refine .select fun inner inside => ?_
    obtain ⟨node, -, hnode⟩ := Query.exists_node hquery inside
    exact Query.isRestricted_ofTree hnode
  · rename_i htag
    rw [Statement.loadOfTree, if_pos htag] at accepted
    obtain ⟨parts, -, h⟩ := bind_eq_ok.1 accepted
    split at h
    · cases h
      exact .load _ _
    · cases h
  · cases accepted

/-- A tree that no text has: two selections, two expressions of an item and two predicates of
    WHERE, over a view that is joined with a join. -/
theorem Statement.ofTree_isRestricted_doubled :
    let column (name : String) : SyntaxTree := Grammar.columnNode name
    let field (name : String) : Expr := .field (.unresolved "" name)
    let item (parts : List SyntaxTree) : SyntaxTree := .node .selectItem parts
    let clause (elements : List SyntaxTree) : SyntaxTree := .node .fromClause elements
    let equal : SyntaxTree := .node (.compare .eq) [column "a", column "b"]
    let table : SyntaxTree := .node .tableRef [.node .tableName [Grammar.nameLeaf "t"]]
    let inner : SyntaxTree := .node .query [
      .node .insertClause [.node .selectClause [item [column "a"]], .node .destination []],
      clause [.node (.join .cross) [table, table]]]
    let view : SyntaxTree := .node .subquery [inner, Grammar.nameLeaf "v"]
    let tree : SyntaxTree := .node .query [
      clause [.node (.join .inner) [equal, view, .node (.join .leftOuter) [table, table, equal]]],
      .node .insertClause [.node .selectClause [item [column "x"]]],
      .node .insertClause [
        .node .groupByClause [Grammar.qualifiedNode "t" "a"],
        .node .whereClause [equal, .node (.compare .lt) [column "b", .leaf .number "5"]],
        .node .selectClause [item [column "a", .node (.arith .mul) [column "a", column "b"]]]]]
    let lowered : Query := {
      items := [⟨.arith .mul (field "a") (field "b") .unknown, none⟩]
      where? := some (.compare .lt (field "b") (.literal .int "5"))
      groupBy := [.field (.unresolved "t" "a")]
      tables := [
        ⟨.view { items := [⟨field "a", none⟩], tables :=
          [⟨.table "t", none, none⟩, ⟨.table "t", none, some ⟨.cross, none, 0⟩⟩] },
          some "v", none⟩,
        ⟨.table "t", none, none⟩,
        ⟨.table "t", none, some ⟨.inner, some (.compare .eq (field "a") (field "b")), 1⟩⟩] }
    Statement.ofTree tree = .ok (.select lowered) ∧
      (Statement.select lowered).IsRestricted := by
  intro column field item clause equal table inner view tree lowered
  have accepted : Statement.ofTree tree = .ok (.select lowered) := rfl
  exact ⟨accepted, Statement.ofTree_isRestricted accepted⟩

end SqlGuard
