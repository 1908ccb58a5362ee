import SqlGuard.Grammar.Statement
import SqlGuard.Lowering.Statement
import SqlGuard.Proofs.Outcome

/-!
# Lowering the nodes of the grammar

What the lowering of a node that the grammar makes comes down to, in terms of its children: a node
of the grammar has each part once, and its parts in order. Main statements: `Query.ofTree_queryNode`
and `tablesAt_join`.
-/

namespace SqlGuard

open Grammar

/-! ### Items and sources -/

theorem SelectItem.ofTree_node {tree : SyntaxTree} (noName : tree.tag ≠ .identifier)
    (alias? : Option String) :
    SelectItem.ofTree (.node .selectItem (tree :: aliasLeaves alias?)) =
      (fun expr => ⟨expr, alias?⟩) <$> Expr.ofTree tree := by
  have hpart : ItemPart.ofTree tree = .expr <$> Expr.ofTree tree := if_neg noName
  cases alias? with
  | none =>
    simp only [SelectItem.ofTree, SyntaxTree.node, SyntaxTree.tag, SyntaxTree.children, if_true,
      aliasLeaves, Option.toList_none, List.map_nil, List.mapM_cons, List.mapM_nil, hpart]
    cases Expr.ofTree tree <;> rfl
  | some name =>
    have hname : ItemPart.ofTree (nameLeaf name) = .ok (.alias name) := rfl
    simp only [SelectItem.ofTree, SyntaxTree.node, SyntaxTree.tag, SyntaxTree.children, if_true,
      aliasLeaves, Option.toList_some, List.map_cons, List.map_nil, List.mapM_cons, List.mapM_nil,
      hpart, hname]
    cases Expr.ofTree tree <;> rfl

/-- A table by its name alone. -/
theorem tablesAt_tableRef (place : Construct) (name : String) (alias? : Option String) :
    tablesAt place (.node .tableRef (.node .tableName [nameLeaf name] :: aliasLeaves alias?)) =
      .ok [{ source := .table name, alias? }] := by
  cases alias? <;> rfl

/-- A table behind the name of its database is refused. -/
theorem tablesAt_qualifiedTableRef (place : Construct) (database name : String)
    (alias? : Option String) :
    tablesAt place (.node .tableRef (.node .tableName [nameLeaf database, nameLeaf name] ::
      aliasLeaves alias?)) =
      refuseTree .tableName (.node .tableName [nameLeaf database, nameLeaf name]) := by
  cases alias? <;> rfl

theorem tablesAt_subquery (place : Construct) {tree : SyntaxTree} (isQuery : tree.tag = .query)
    (alias? : Option String) :
    tablesAt place (.node .subquery (tree :: aliasLeaves alias?)) =
      (fun query => [{ source := .view query, alias? }]) <$> Query.ofTree tree := by
  obtain ⟨tag, text, children⟩ := tree
  cases isQuery
  have hquery : Query.ofTree (.mk .query text children) = queryParts children >>= Query.ofParts :=
    rfl
  have hpart : viewPart (.mk .query text children) =
      .query <$> (queryParts children >>= Query.ofParts) := rfl
  cases alias? with
  | none =>
    simp only [SyntaxTree.node, aliasLeaves, Option.toList_none, List.map_nil, tablesAt, viewParts,
      hpart, hquery]
    cases queryParts children >>= Query.ofParts <;> rfl
  | some name =>
    have hname : viewPart (nameLeaf name) = .ok (.alias name) := rfl
    simp only [SyntaxTree.node, aliasLeaves, Option.toList_some, List.map_cons, List.map_nil,
      tablesAt, viewParts, hpart, hquery, hname]
    cases queryParts children >>= Query.ofParts <;> rfl

/-! ### Chains -/

theorem TableRef.moved_zero (t : TableRef) : t.moved 0 = t := by
  obtain ⟨source, alias?, join?⟩ := t
  cases join? <;> rfl

theorem TableRef.moved_of_join?_none {t : TableRef} (h : t.join? = none) (n : Nat) :
    t.moved n = t := by
  obtain ⟨source, alias?, join?⟩ := t
  cases h
  rfl

namespace TableChain

theorem nil_followedBy (chain : TableChain) : followedBy [] chain = chain := by
  have hmoved : TableRef.moved 0 = id := funext TableRef.moved_zero
  simp [followedBy, hmoved]

theorem concat_singleton (chain : TableChain) : concat [chain] = chain :=
  nil_followedBy chain

/-- The reference is noted as joined with the last one of the chain before it. -/
def joinedTo (chain : TableChain) (op : JoinOp) (on? : Option Expr) (t : TableRef) : TableChain :=
  chain ++ [{ t with join? := some ⟨op, on?, chain.length - 1⟩ }]

/-- A join whose right side is a single reference. -/
theorem ofJoinParts_single {chain : TableChain} {t : TableRef} (some_ : chain ≠ [])
    (bare : t.join? = none) (op : JoinOp) (on? : Option Expr) :
    ofJoinParts op (JoinPart.tables chain :: .tables [t] :: on?.toList.map .condition) =
      .ok (chain.joinedTo op on? t) := by
  have hconcat : concat [chain, [t]] = chain ++ [t] := by
    show followedBy (followedBy [] chain) [t] = chain ++ [t]
    rw [nil_followedBy, followedBy, List.map_singleton, TableRef.moved_of_join?_none bare]
  have hlength : 0 < chain.length := List.length_pos_iff.2 some_
  have htables : (JoinPart.tables chain :: .tables [t] :: on?.toList.map .condition).filterMap
      JoinPart.tables? = [chain, [t]] := by
    cases on? <;> rfl
  have hon : lastSome? JoinPart.condition?
      (JoinPart.tables chain :: .tables [t] :: on?.toList.map .condition) = on? := by
    cases on? <;> rfl
  rw [ofJoinParts, htables, hconcat, hon]
  simp only [List.length_append, List.length_singleton]
  rw [if_neg (by omega), joinLast, List.getLast?_append_of_ne_nil _ (by simp)]
  simp [joinedTo]

end TableChain

/-! ### Joins -/

/-- The kinds of nodes that stand for references of a FROM clause. -/
def Tag.isTables : Tag → Bool
  | .tableRef | .subquery | .join _ => true
  | _ => false

theorem JoinPart.ofTree_tables {tree : SyntaxTree} (h : tree.tag.isTables = true)
    (side : Lowered TableChain) : JoinPart.ofTree tree side = .tables <$> side := by
  unfold JoinPart.ofTree
  split
  · rename_i htag
    rw [htag] at h
    cases h
  · rename_i htag
    rw [htag] at h
    cases h
  · rfl

theorem tablesAt_join {left right : SyntaxTree} (hleft : left.tag.isTables = true)
    (hright : right.tag.isTables = true) (place : Construct) (op : JoinOp)
    (on? : Option SyntaxTree) :
    tablesAt place (.node (.join op) (left :: right :: on?.toList)) = (do
      let chain ← tablesAt .join left
      let more ← tablesAt .join right
      let parts ← on?.toList.mapM fun on => JoinPart.ofTree on (tablesAt .join on)
      TableChain.ofJoinParts op (.tables chain :: .tables more :: parts)) := by
  cases on? with
  | none =>
    simp only [SyntaxTree.node, Option.toList_none, List.mapM_nil, tablesAt, joinParts,
      JoinPart.ofTree_tables hleft, JoinPart.ofTree_tables hright]
    cases tablesAt .join left with
    | error e => rfl
    | ok chain => cases tablesAt .join right <;> rfl
  | some on =>
    simp only [SyntaxTree.node, Option.toList_some, List.mapM_cons, List.mapM_nil, tablesAt,
      joinParts, JoinPart.ofTree_tables hleft, JoinPart.ofTree_tables hright]
    cases tablesAt .join left with
    | error e => rfl
    | ok chain =>
      cases tablesAt .join right with
      | error e => rfl
      | ok more => cases JoinPart.ofTree on (tablesAt .join on) <;> rfl

/-- References are lowered to the same at every place. -/
theorem tablesAt_place {place : Construct} (place' : Construct) {tree : SyntaxTree}
    {chain : TableChain} (h : tablesAt place tree = .ok chain) :
    tablesAt place' tree = .ok chain := by
  obtain ⟨tag, text, children⟩ := tree
  cases tag <;> first | exact h | cases h

/-! ### Queries -/

/-- The references of a FROM clause that may be left out. -/
def tablesOf? : Option SyntaxTree → Lowered TableChain
  | none => .ok []
  | some element => tablesAt .fromClause element

/-- The predicate of a WHERE clause that may be left out. -/
def conditionOf? : Option SyntaxTree → Lowered (Option Expr)
  | none => .ok none
  | some tree => some <$> Expr.ofPredicateAt .whereClause tree

theorem Clause.ofTree_selectClause (items : List SyntaxTree) :
    Clause.ofTree (.node .selectClause items) = .items <$> items.mapM SelectItem.ofTree := rfl

theorem Clause.ofTree_whereClause (tree : SyntaxTree) :
    Clause.ofTree (.node .whereClause [tree]) =
      (fun e => .condition (some e)) <$> Expr.ofPredicateAt .whereClause tree := by
  simp only [Clause.ofTree, SyntaxTree.node, SyntaxTree.tag, SyntaxTree.children, List.mapM_cons,
    List.mapM_nil]
  cases Expr.ofPredicateAt .whereClause tree <;> rfl

theorem Clause.ofTree_groupByClause (trees : List SyntaxTree) :
    Clause.ofTree (.node .groupByClause trees) = .grouping <$> trees.mapM Expr.ofGrouping := rfl

/-- The clauses of a selection, each at most once. -/
theorem Selection.ofTrees_clauses (destination : SyntaxTree) (items : List SyntaxTree)
    (where? : Option SyntaxTree) (group? : Option (List SyntaxTree)) :
    Selection.ofTrees ([.node .destination [destination], .node .selectClause items] ++
        (where?.toList.map fun condition => .node .whereClause [condition]) ++
        group?.toList.map (.node .groupByClause)) = do
      let items ← items.mapM SelectItem.ofTree
      let where? ← conditionOf? where?
      let groupBy ← (group?.getD []).mapM Expr.ofGrouping
      return ⟨items, where?, groupBy⟩ := by
  have hdestination : Clause.ofTree (.node .destination [destination]) = .ok .destination := rfl
  unfold Selection.ofTrees
  simp only [List.cons_append, List.nil_append, List.mapM_cons, hdestination,
    Clause.ofTree_selectClause]
  cases items.mapM SelectItem.ofTree with
  | error e => rfl
  | ok items =>
    cases where? with
    | none =>
      cases group? with
      | none => rfl
      | some group =>
        simp only [Option.toList_none, Option.toList_some, List.map_nil, List.map_cons,
          List.nil_append, List.mapM_cons, List.mapM_nil, Clause.ofTree_groupByClause,
          Option.getD_some]
        cases group.mapM Expr.ofGrouping <;> rfl
    | some condition =>
      simp only [Option.toList_some, List.map_nil, List.map_cons, List.cons_append, List.nil_append,
        List.mapM_cons, Clause.ofTree_whereClause, conditionOf?]
      cases Expr.ofPredicateAt .whereClause condition with
      | error e => rfl
      | ok e =>
        cases group? with
        | none => rfl
        | some group =>
          simp only [Option.toList_some, List.map_nil, List.map_cons, List.mapM_cons,
            List.mapM_nil, Clause.ofTree_groupByClause, Option.getD_some]
          cases group.mapM Expr.ofGrouping <;> rfl

/-- A query has each of its clauses once, its tables before the others. -/
theorem Query.ofTree_queryNode (destination : SyntaxTree) (items : List SyntaxTree)
    (from? where? : Option SyntaxTree) (group? : Option (List SyntaxTree)) :
    Query.ofTree (queryNode destination items from? where? group?) = do
      let tables ← tablesOf? from?
      let items ← items.mapM SelectItem.ofTree
      let where? ← conditionOf? where?
      let groupBy ← (group?.getD []).mapM Expr.ofGrouping
      return ⟨items, where?, groupBy, tables⟩ := by
  have hselection : ∀ clauses, queryPart (.node .insertClause clauses) =
      .selection <$> Selection.ofTrees clauses := fun _ => rfl
  have htables : ∀ element, queryPart (.node .fromClause [element]) =
      .tables <$> tablesAt .fromClause element := by
    intro element
    simp only [SyntaxTree.node, queryPart, fromElements]
    cases tablesAt .fromClause element with
    | error e => rfl
    | ok chain =>
      show Except.ok (QueryPart.tables (TableChain.concat [chain])) = _
      rw [TableChain.concat_singleton]
      rfl
  have hquery : ∀ parts, Query.ofTree (.node .query parts) = queryParts parts >>= Query.ofParts :=
    fun _ => rfl
  have hclauses := Selection.ofTrees_clauses destination items where? group?
  rw [queryNode, hquery]
  generalize [.node .destination [destination], .node .selectClause items] ++
    (where?.toList.map fun condition => SyntaxTree.node .whereClause [condition]) ++
    group?.toList.map (.node .groupByClause) = clauses at hclauses ⊢
  cases from? with
  | none =>
    simp only [Option.toList_none, List.map_nil, List.nil_append, queryParts, hselection, hclauses,
      tablesOf?]
    cases items.mapM SelectItem.ofTree with
    | error e => rfl
    | ok items =>
      cases conditionOf? where? with
      | error e => rfl
      | ok where? => cases (group?.getD []).mapM Expr.ofGrouping <;> rfl
  | some element =>
    simp only [Option.toList_some, List.map_cons, List.map_nil, List.cons_append, List.nil_append,
      queryParts, hselection, htables, hclauses, tablesOf?]
    cases tablesAt .fromClause element with
    | error e => rfl
    | ok chain =>
      cases items.mapM SelectItem.ofTree with
      | error e => rfl
      | ok items =>
        cases conditionOf? where? with
        | error e => rfl
        | ok where? => cases (group?.getD []).mapM Expr.ofGrouping <;> rfl

end SqlGuard
