import SqlGuard.Proofs.Lowering.Nodes
import SqlGuard.Proofs.Statement.Links

/-!
# Tables and views of a FROM clause

The references that a tree stands for: its tables and views from left to right, whatever joins they
stand under. Each join has two of them at least, and the references are linked. Main statements:
`SyntaxTree.linedUp_tablesAt` and `SyntaxTree.linedUp_fromElements`.
-/

namespace SqlGuard

namespace SyntaxTree

open TableChain

mutual

/-- The tables and views of an element of a FROM clause or of a side of a join, from left to
    right. -/
def sources : SyntaxTree → List SyntaxTree
  | .mk (.join _) _ children => sourcesAmong children
  | .mk .tableRef text children => [.mk .tableRef text children]
  | .mk .subquery text children => [.mk .subquery text children]
  | _ => []

/-- The tables and views of elements. -/
def sourcesAmong : List SyntaxTree → List SyntaxTree
  | [] => []
  | t :: ts => t.sources ++ sourcesAmong ts

end

mutual

/-- The joins of an element: the element itself, and those of its sides. -/
def joinNodes : SyntaxTree → List SyntaxTree
  | .mk (.join op) text children => .mk (.join op) text children :: joinNodesAmong children
  | _ => []

/-- The joins of elements. -/
def joinNodesAmong : List SyntaxTree → List SyntaxTree
  | [] => []
  | t :: ts => t.joinNodes ++ joinNodesAmong ts

end

/-- The references are those of the nodes, one by one and whatever they are joined with. -/
abbrev StandFor (nodes : List SyntaxTree) (chain : TableChain) : Prop :=
  List.Forall₂ (fun node t => tablesAt .fromClause node = .ok [t]) nodes
    (chain.map TableRef.unjoined)

/-- The chain is linked and lists the tables and views of the elements, and each join of the
    elements has two of these at least. -/
structure LinedUp (elements : List SyntaxTree) (chain : TableChain) : Prop where
  linked : chain.IsLinked
  references : StandFor (sourcesAmong elements) chain
  joins : ∀ node ∈ joinNodesAmong elements, 2 ≤ node.sources.length

theorem sourcesAmong_singleton (tree : SyntaxTree) : sourcesAmong [tree] = tree.sources := by
  rw [sourcesAmong, sourcesAmong, List.append_nil]

theorem joinNodesAmong_singleton (tree : SyntaxTree) : joinNodesAmong [tree] = tree.joinNodes := by
  rw [joinNodesAmong, joinNodesAmong, List.append_nil]

mutual

/-- The tables and views of a join stand together among those of its element. -/
theorem sources_infix_of_mem {node : SyntaxTree} : ∀ tree : SyntaxTree, node ∈ tree.joinNodes →
    node.sources <:+: tree.sources
  | .mk tag text children, h => by
    cases tag with
    | join op =>
      rw [joinNodes, List.mem_cons] at h
      rcases h with rfl | h
      · exact List.infix_rfl
      · rw [sources]
        exact sources_infix_of_mem_among children h
    | _ => cases h

theorem sources_infix_of_mem_among {node : SyntaxTree} : ∀ trees : List SyntaxTree,
    node ∈ joinNodesAmong trees → node.sources <:+: sourcesAmong trees
  | [], h => by cases h
  | tree :: trees, h => by
    rw [joinNodesAmong, List.mem_append] at h
    rw [sourcesAmong]
    rcases h with h | h
    · exact (sources_infix_of_mem tree h).trans (List.prefix_append _ _).isInfix
    · exact (sources_infix_of_mem_among trees h).trans (List.suffix_append _ _).isInfix

end

/-- Nodes that stand together have references that do. -/
theorem StandFor.consecutive {nodes part : List SyntaxTree} {chain : TableChain}
    (h : StandFor nodes chain) (together : part <:+: nodes) :
    ∃ side, side <:+: chain ∧ StandFor part side := by
  obtain ⟨before, after, rfl⟩ := together
  refine ⟨(chain.drop before.length).take part.length, ?_, ?_⟩
  · exact (List.take_prefix _ _).isInfix.trans (List.drop_suffix _ _).isInfix
  · rw [StandFor, List.append_assoc] at h
    have behind := List.forall₂_drop before.length h
    rw [List.drop_left] at behind
    have standFor := List.forall₂_take part.length behind
    rw [List.take_left] at standFor
    rw [StandFor, List.map_take, List.map_drop]
    exact standFor

/-! ### Elements one behind the other -/

theorem linedUp_nil : LinedUp [] [] where
  linked := isLinked_nil
  references := .nil
  joins := nofun

/-- A condition stands for no references. -/
theorem LinedUp.skip {tree : SyntaxTree} {trees : List SyntaxTree} {chain : TableChain}
    (isCondition : tree.isCondition = true) (more : LinedUp trees chain) :
    LinedUp (tree :: trees) chain := by
  obtain ⟨tag, text, children⟩ := tree
  rw [SyntaxTree.isCondition, beq_iff_eq] at isCondition
  cases isCondition
  exact ⟨more.linked, more.references, more.joins⟩

/-- The chains of elements, each of which is lined up, are lined up together. -/
theorem linedUp_concat_cons {tree : SyntaxTree} {trees : List SyntaxTree} {chain : TableChain}
    {chains : List TableChain} (first : LinedUp [tree] chain)
    (linked : ∀ chain ∈ chains, chain.IsLinked) (more : LinedUp trees (concat chains)) :
    LinedUp (tree :: trees) (concat (chain :: chains)) where
  linked := isLinked_concat (List.forall_mem_cons.2 ⟨first.linked, linked⟩)
  references := by
    have hfirst := first.references
    have hmore := more.references
    rw [StandFor, sourcesAmong_singleton] at hfirst
    rw [StandFor, map_unjoined_concat] at hmore
    rw [StandFor, sourcesAmong, map_unjoined_concat, List.flatMap_cons]
    exact List.rel_append hfirst hmore
  joins := by
    have hfirst := first.joins
    rw [joinNodesAmong_singleton] at hfirst
    rw [joinNodesAmong, List.forall_mem_append]
    exact ⟨hfirst, more.joins⟩

/-! ### What lowering lines up -/

/-- A table or a view stands for itself. -/
theorem linedUp_single {place : Construct} {tree : SyntaxTree} {t : TableRef}
    (h : tablesAt place tree = .ok [t]) (bare : t.join? = none) (isSource : tree.sources = [tree])
    (noJoin : tree.joinNodes = []) : LinedUp [tree] [t] where
  linked := isLinked_singleton bare
  references := by
    have hbare : t.unjoined = t := by
      cases t
      cases bare
      rfl
    rw [StandFor, sourcesAmong_singleton, isSource, List.map_singleton, hbare]
    exact .cons (tablesAt_place .fromClause h) .nil
  joins := by
    rw [joinNodesAmong_singleton, noJoin]
    exact nofun

/-- A join has the references of its sides. -/
theorem linedUp_join {op : JoinOp} {text : String} {children : List SyntaxTree}
    {parts : List JoinPart} {chain : TableChain}
    (sides : LinedUp children (concat (parts.filterMap JoinPart.tables?)))
    (h : TableChain.ofJoinParts op parts = .ok chain) :
    LinedUp [.mk (.join op) text children] chain := by
  obtain ⟨two, rfl⟩ := of_ofJoinParts h
  refine ⟨isLinked_joinLast sides.linked two _ _, ?_, ?_⟩
  · rw [StandFor, sourcesAmong_singleton, sources, map_unjoined_joinLast]
    exact sides.references
  · have hsources := sides.references.length_eq
    rw [List.length_map] at hsources
    rw [joinNodesAmong_singleton, joinNodes, List.forall_mem_cons, sources, hsources]
    exact ⟨two, sides.joins⟩

mutual

/-- The references that a tree stands for are lined up. -/
theorem linedUp_tablesAt (place : Construct) : ∀ (tree : SyntaxTree) {chain : TableChain},
    tablesAt place tree = .ok chain → LinedUp [tree] chain
  | .mk tag text children, chain, h => by
    rcases of_tablesAt h with ⟨op, parts, rfl, hparts, hjoin⟩ | ⟨rfl, name, alias?, rfl⟩ |
      ⟨rfl, parts, view, alias?, -, -, rfl⟩
    · exact linedUp_join (linedUp_joinParts children hparts).2 hjoin
    · exact linedUp_single h rfl rfl rfl
    · exact linedUp_single h rfl rfl rfl

/-- Those of the sides of a join are lined up together. -/
theorem linedUp_joinParts : ∀ (trees : List SyntaxTree) {parts : List JoinPart},
    joinParts trees = .ok parts →
      (∀ chain ∈ parts.filterMap JoinPart.tables?, chain.IsLinked) ∧
        LinedUp trees (concat (parts.filterMap JoinPart.tables?))
  | [], parts, h => by
    rw [joinParts] at h
    cases h
    exact ⟨List.forall_mem_nil _, linedUp_nil⟩
  | tree :: trees, parts, h => by
    simp only [joinParts, bind_eq_ok, pure_eq_ok] at h
    obtain ⟨part, hpart, more, hmore, rfl⟩ := h
    obtain ⟨linked, lined⟩ := linedUp_joinParts trees hmore
    -- a condition may stand anywhere among the sides, and adds no chain
    rcases JoinPart.of_ofTree hpart with ⟨hcondition, e, -, rfl⟩ | ⟨-, chain, hchain, rfl⟩
    · exact ⟨linked, lined.skip hcondition⟩
    · have first := linedUp_tablesAt .join tree hchain
      exact ⟨List.forall_mem_cons.2 ⟨first.linked, linked⟩,
        linedUp_concat_cons first linked lined⟩

end

/-- The references of a FROM clause are lined up. -/
theorem linedUp_fromElements : ∀ (elements : List SyntaxTree) {chains : List TableChain},
    fromElements elements = .ok chains →
      (∀ chain ∈ chains, chain.IsLinked) ∧ LinedUp elements (concat chains)
  | [], chains, h => by
    rw [fromElements] at h
    cases h
    exact ⟨List.forall_mem_nil _, linedUp_nil⟩
  | element :: elements, chains, h => by
    simp only [fromElements, bind_eq_ok, pure_eq_ok] at h
    obtain ⟨chain, hchain, more, hmore, rfl⟩ := h
    obtain ⟨linked, lined⟩ := linedUp_fromElements elements hmore
    have first := linedUp_tablesAt .fromClause element hchain
    exact ⟨List.forall_mem_cons.2 ⟨first.linked, linked⟩, linedUp_concat_cons first linked lined⟩

theorem linedUp_ofTree {tree : SyntaxTree} {chain : TableChain}
    (accepted : TableChain.ofTree tree = .ok chain) : LinedUp tree.children chain := by
  rw [TableChain.ofTree, map_eq_ok] at accepted
  obtain ⟨chains, hchains, rfl⟩ := accepted
  exact (linedUp_fromElements tree.children hchains).2

end SyntaxTree

end SqlGuard
