import SqlGuard.Proofs.Lowering.Sources
import SqlGuard.Proofs.Statement.Occurrence

/-!
# Levels of a tree

A query that a tree is lowered to holds further queries, as views of its FROM clause and to any
depth. Each of them is what a node of the tree is lowered to, and its tables are those of a FROM
clause under that node, so what is known of the tables of one FROM clause is known at every level.
Main statements: `Query.exists_node` and `TableChain.joined_ofTree`.
-/

namespace SqlGuard

theorem lastSome?_eq_some {α β : Type} {f : α → Option β} {xs : List α} {y : β}
    (h : lastSome? f xs = some y) : ∃ x ∈ xs, f x = some y :=
  List.mem_filterMap.1 (List.mem_of_getLast? h)

namespace SyntaxTree

variable {node tree : SyntaxTree}

/-- The node is the tree itself or stands below its root. -/
inductive Within (node : SyntaxTree) : SyntaxTree → Prop
  | self : Within node node
  | child {tree child : SyntaxTree} (isChild : child ∈ tree.children)
      (inside : Within node child) : Within node tree

theorem Within.trans {middle : SyntaxTree} (h : node.Within middle) (outer : middle.Within tree) :
    node.Within tree := by
  induction outer with
  | self => exact h
  | child isChild _ ih => exact .child isChild ih

mutual

/-- The tables and views of an element are nodes of its tree. -/
theorem within_of_mem_sources : ∀ tree : SyntaxTree, node ∈ tree.sources →
    node.Within tree ∧ (node.tag = .tableRef ∨ node.tag = .subquery)
  | .mk tag text children, h => by
    cases tag with
    | join op =>
      rw [sources] at h
      obtain ⟨child, isChild, inside, htag⟩ := within_of_mem_sourcesAmong children h
      exact ⟨.child isChild inside, htag⟩
    | tableRef =>
      cases List.mem_singleton.1 h
      exact ⟨.self, .inl rfl⟩
    | subquery =>
      cases List.mem_singleton.1 h
      exact ⟨.self, .inr rfl⟩
    | _ => cases h

theorem within_of_mem_sourcesAmong : ∀ trees : List SyntaxTree, node ∈ sourcesAmong trees →
    ∃ tree ∈ trees, node.Within tree ∧ (node.tag = .tableRef ∨ node.tag = .subquery)
  | [], h => by cases h
  | tree :: trees, h => by
    rw [sourcesAmong, List.mem_append] at h
    rcases h with h | h
    · exact ⟨tree, List.mem_cons_self, within_of_mem_sources tree h⟩
    · obtain ⟨other, hother, inside⟩ := within_of_mem_sourcesAmong trees h
      exact ⟨other, List.mem_cons_of_mem tree hother, inside⟩

end

/-! ### The parts that a node is lowered from -/

theorem forall₂_queryParts : ∀ (trees : List SyntaxTree) {parts : List QueryPart},
    queryParts trees = .ok parts →
      List.Forall₂ (fun tree part => queryPart tree = .ok part) trees parts
  | [], parts, h => by
    rw [queryParts] at h
    cases h
    exact .nil
  | tree :: trees, parts, h => by
    simp only [queryParts, bind_eq_ok, pure_eq_ok] at h
    obtain ⟨part, hpart, more, hmore, rfl⟩ := h
    exact .cons hpart (forall₂_queryParts trees hmore)

theorem forall₂_viewParts : ∀ (trees : List SyntaxTree) {parts : List ViewPart},
    viewParts trees = .ok parts →
      List.Forall₂ (fun tree part => viewPart tree = .ok part) trees parts
  | [], parts, h => by
    rw [viewParts] at h
    cases h
    exact .nil
  | tree :: trees, parts, h => by
    simp only [viewParts, bind_eq_ok, pure_eq_ok] at h
    obtain ⟨part, hpart, more, hmore, rfl⟩ := h
    exact .cons hpart (forall₂_viewParts trees hmore)

/-- The query among the parts of a view is what its tree is lowered to. -/
theorem ofTree_of_viewPart {part : ViewPart} {query : Query} (h : viewPart tree = .ok part)
    (isQuery : part.query? = some query) : Query.ofTree tree = .ok query := by
  obtain ⟨tag, text, children⟩ := tree
  cases tag with
  | query =>
    rw [viewPart, map_eq_ok] at h
    obtain ⟨inner, hinner, rfl⟩ := h
    cases isQuery
    exact hinner
  | identifier =>
    cases h
    cases isQuery
  | _ => cases h

/-- The tables among the parts of a query are those of a FROM clause. -/
theorem ofTree_of_queryPart {part : QueryPart} {chain : TableChain} (h : queryPart tree = .ok part)
    (isTables : part.tables? = some chain) :
    tree.tag = .fromClause ∧ TableChain.ofTree tree = .ok chain := by
  obtain ⟨tag, text, children⟩ := tree
  cases tag with
  | fromClause =>
    simp only [queryPart, bind_eq_ok, pure_eq_ok] at h
    obtain ⟨chains, hchains, rfl⟩ := h
    cases isTables
    exact ⟨rfl, map_eq_ok.2 ⟨chains, hchains, rfl⟩⟩
  | insertClause =>
    rw [queryPart, map_eq_ok] at h
    obtain ⟨selection, -, rfl⟩ := h
    cases isTables
  | _ => cases h

theorem ofTrees_of_queryPart {part : QueryPart} {selection : Selection}
    (h : queryPart tree = .ok part) (isSelection : part.selection? = some selection) :
    tree.tag = .insertClause ∧ Selection.ofTrees tree.children = .ok selection := by
  obtain ⟨tag, text, children⟩ := tree
  cases tag with
  | fromClause =>
    simp only [queryPart, bind_eq_ok, pure_eq_ok] at h
    obtain ⟨chains, -, rfl⟩ := h
    cases isSelection
  | insertClause =>
    rw [queryPart, map_eq_ok] at h
    obtain ⟨inner, hinner, rfl⟩ := h
    cases isSelection
    exact ⟨rfl, hinner⟩
  | _ => cases h

/-- A reference to a view has the query that a child of its node is lowered to. -/
theorem exists_query_of_tablesAt {place : Construct} {t : TableRef} {view : Query}
    (isSource : node.tag = .tableRef ∨ node.tag = .subquery)
    (h : tablesAt place node = .ok [t]) (source : t.source = .view view) :
    ∃ child ∈ node.children, Query.ofTree child = .ok view := by
  obtain ⟨tag, text, children⟩ := node
  rcases of_tablesAt h with ⟨op, parts, rfl, -, -⟩ | ⟨-, name, alias?, hsingle⟩ |
    ⟨-, parts, query, alias?, hparts, hquery, hsingle⟩
  · rcases isSource with htag | htag <;> cases htag
  · cases hsingle
    cases source
  · cases hsingle
    cases source
    obtain ⟨part, hpart, isQuery⟩ := lastSome?_eq_some hquery
    obtain ⟨child, isChild, hchild⟩ := forall₂_mem_right (forall₂_viewParts children hparts) hpart
    exact ⟨child, isChild, ofTree_of_viewPart hchild isQuery⟩

end SyntaxTree

open SyntaxTree

/-- The query of a view in a FROM clause is what a node of the clause is lowered to. -/
theorem TableChain.exists_node {tree : SyntaxTree} {chain : TableChain}
    (accepted : TableChain.ofTree tree = .ok chain) {t : TableRef} (reference : t ∈ chain)
    {view : Query} (source : t.source = .view view) :
    ∃ node, node.Within tree ∧ Query.ofTree node = .ok view := by
  have unjoined : t.unjoined ∈ chain.map TableRef.unjoined := List.mem_map_of_mem reference
  obtain ⟨node, hnode, standsFor⟩ := forall₂_mem_right (linedUp_ofTree accepted).references unjoined
  obtain ⟨element, isChild, inside, isSource⟩ := within_of_mem_sourcesAmong tree.children hnode
  obtain ⟨child, isPart, hview⟩ := exists_query_of_tablesAt isSource standsFor source
  have within : child.Within node := .child isPart .self
  exact ⟨child, within.trans (.child isChild inside), hview⟩

namespace Query

variable {tree : SyntaxTree} {query : Query}

/-- The parts that a query is made of are those of its clauses. -/
theorem exists_parts (accepted : Query.ofTree tree = .ok query) :
    ∃ parts, List.Forall₂ (fun clause part => queryPart clause = .ok part) tree.children parts ∧
      lastSome? QueryPart.selection? parts = some ⟨query.items, query.where?, query.groupBy⟩ ∧
      query.tables = (lastSome? QueryPart.tables? parts).getD [] := by
  unfold Query.ofTree at accepted
  split at accepted
  · obtain ⟨parts, hparts, h⟩ := bind_eq_ok.1 accepted
    unfold Query.ofParts at h
    split at h
    · rename_i hselection
      cases h
      exact ⟨parts, forall₂_queryParts tree.children hparts, hselection, rfl⟩
    · cases h
  · cases accepted

/-- The tables of a query are those of one of its FROM clauses, if it has any. -/
theorem exists_fromClause (accepted : Query.ofTree tree = .ok query) :
    query.tables = [] ∨ ∃ clause ∈ tree.children, clause.tag = .fromClause ∧
      TableChain.ofTree clause = .ok query.tables := by
  obtain ⟨parts, hparts, -, htables⟩ := exists_parts accepted
  cases hlast : lastSome? QueryPart.tables? parts with
  | none =>
    rw [hlast] at htables
    exact .inl htables
  | some chain =>
    rw [hlast] at htables
    obtain ⟨part, hpart, isTables⟩ := lastSome?_eq_some hlast
    obtain ⟨clause, isChild, hclause⟩ := forall₂_mem_right hparts hpart
    exact .inr ⟨clause, isChild, htables ▸ ofTree_of_queryPart hclause isTables⟩

/-- What a query selects is what one of its clauses that select says. -/
theorem exists_insertClause (accepted : Query.ofTree tree = .ok query) :
    ∃ clause ∈ tree.children, clause.tag = .insertClause ∧
      Selection.ofTrees clause.children = .ok ⟨query.items, query.where?, query.groupBy⟩ := by
  obtain ⟨parts, hparts, hselection, -⟩ := exists_parts accepted
  obtain ⟨part, hpart, isSelection⟩ := lastSome?_eq_some hselection
  obtain ⟨clause, isChild, hclause⟩ := forall₂_mem_right hparts hpart
  exact ⟨clause, isChild, ofTrees_of_queryPart hclause isSelection⟩

/-- A query inside the one that a tree is lowered to is what a node of the tree is lowered to. -/
theorem exists_node {inner : Query} (accepted : Query.ofTree tree = .ok query)
    (inside : query.Contains inner) : ∃ node, node.Within tree ∧ Query.ofTree node = .ok inner := by
  -- one view after the other, from the query inwards: each is lowered from a node of its own
  induction inside generalizing tree with
  | self => exact ⟨tree, .self, accepted⟩
  | view reference source _ ih =>
    rcases exists_fromClause accepted with hnone | ⟨clause, isChild, -, hclause⟩
    · rw [hnone] at reference
      cases reference
    · obtain ⟨node, hnode, hview⟩ := TableChain.exists_node hclause reference source
      obtain ⟨deeper, hdeeper, hinner⟩ := ih hview
      exact ⟨deeper, hdeeper.trans (hnode.trans (.child isChild .self)), hinner⟩

end Query

namespace TableChain

variable {tree : SyntaxTree} {chain : TableChain}

/-- Each join of a chain is with the reference before its own, and each join of the tree has
    references of the chain that stand together, two at least. -/
structure Joined (tree : SyntaxTree) (chain : TableChain) : Prop where
  first : ∀ t, chain[0]? = some t → t.join? = none
  left : ∀ (i : Nat) (t : TableRef) (join : Join), chain[i]? = some t → t.join? = some join →
    1 ≤ i ∧ join.left = i - 1 ∧ ∃ before, chain[i - 1]? = some before ∧ chain.left? i = some before
  sides : ∀ node ∈ joinNodesAmong tree.children, ∃ side, side <:+: chain ∧ 2 ≤ side.length ∧
    StandFor node.sources side

/-- References that are lined up are joined. -/
theorem joined_of_linedUp (linedUp : LinedUp tree.children chain) : Joined tree chain where
  first _ := linedUp.linked.first
  left i t join reference hjoin := by
    obtain ⟨hi, hleft⟩ := linedUp.linked i t join reference hjoin
    exact ⟨hi, hleft, linedUp.linked.left? reference hjoin⟩
  sides node hnode := by
    have together := sources_infix_of_mem_among tree.children hnode
    obtain ⟨side, inside, standFor⟩ := linedUp.references.consecutive together
    have two := linedUp.joins node hnode
    rw [standFor.length_eq, List.length_map] at two
    exact ⟨side, inside, two, standFor⟩

/-- The references of a FROM clause are joined, each with the one before it, and so are those of
    the queries inside its views, whatever joins the tree nests. -/
theorem joined_ofTree (accepted : TableChain.ofTree tree = .ok chain) :
    Joined tree chain ∧
      ∀ t ∈ chain, ∀ view, t.source = .view view → ∀ inner, view.Contains inner →
        inner.tables = [] ∨ ∃ clause, clause.Within tree ∧ clause.tag = .fromClause ∧
          TableChain.ofTree clause = .ok inner.tables ∧ Joined clause inner.tables := by
  refine ⟨joined_of_linedUp (linedUp_ofTree accepted), ?_⟩
  intro t reference view source inner inside
  obtain ⟨node, hnode, hview⟩ := exists_node accepted reference source
  obtain ⟨deeper, hdeeper, hinner⟩ := Query.exists_node hview inside
  rcases Query.exists_fromClause hinner with hnone | ⟨clause, isChild, htag, hclause⟩
  · exact .inl hnone
  · have within : clause.Within deeper := .child isChild .self
    exact .inr ⟨clause, (within.trans hdeeper).trans hnode, htag, hclause,
      joined_of_linedUp (linedUp_ofTree hclause)⟩

/-- A join to the right, whose view joins two tables of its own, behind another reference. -/
theorem joined_ofTree_nested :
    let table (name : String) : SyntaxTree :=
      .node .tableRef [.node .tableName [Grammar.nameLeaf name]]
    let clause : SyntaxTree := .node .fromClause [.node (.join .cross) [table "d", table "e"]]
    let view : SyntaxTree := .node .subquery
      [.node .query [clause, .node .insertClause []], Grammar.nameLeaf "v"]
    let right : SyntaxTree := .node (.join .leftOuter) [table "b", view]
    let tree : SyntaxTree := .node .fromClause
      [table "z", .node (.join .fullOuter) [.node (.join .inner) [table "a", right], table "c"]]
    let inner : Query := { items := [], tables :=
      [⟨.table "d", none, none⟩, ⟨.table "e", none, some ⟨.cross, none, 0⟩⟩] }
    let chain : TableChain := [⟨.table "z", none, none⟩, ⟨.table "a", none, none⟩,
      ⟨.table "b", none, none⟩, ⟨.view inner, some "v", some ⟨.inner, none, 2⟩⟩,
      ⟨.table "c", none, some ⟨.fullOuter, none, 3⟩⟩]
    TableChain.ofTree tree = .ok chain ∧ (joinNodesAmong tree.children).length = 3 ∧
      Joined tree chain ∧ ∃ clause, clause.Within tree ∧ clause.tag = .fromClause ∧
        TableChain.ofTree clause = .ok inner.tables ∧ Joined clause inner.tables := by
  intro table clause view right tree inner chain
  have accepted : TableChain.ofTree tree = .ok chain := rfl
  obtain ⟨hchain, views⟩ := joined_ofTree accepted
  have reference : ⟨.view inner, some "v", some ⟨.inner, none, 2⟩⟩ ∈ chain := by simp [chain]
  rcases views _ reference inner rfl inner (.self inner) with hnone | hinner
  · cases hnone
  · exact ⟨accepted, rfl, hchain, hinner⟩

end TableChain

end SqlGuard
