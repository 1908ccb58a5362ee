import Mathlib.Data.List.Induction
import SqlGuard.Grammar.Query
import SqlGuard.Lowering.Tables
import SqlGuard.Proofs.Lowering.Replaced

/-!
# Joins of a FROM clause

Which joins of a tree are noted at its references. A join is noted at the last of its references,
where it takes the place of a join that was noted there before: that of a side which stands last.
Of several conditions a join notes the last. Main statement: `TableChain.notesAll_iff`, no join and
no condition is lost if and only if no side that stands last is a join and no join has two
conditions.
-/

namespace SqlGuard

/-- Whether the tree is the condition of the join that it stands under. -/
def SyntaxTree.isCondition (tree : SyntaxTree) : Bool := tree.tag == .compare .eq

/-- The equality of two operands that a tree is. -/
def Expr.ofEquality (tree : SyntaxTree) : Lowered Expr := ofComparison .eq tree.children

/-- What the node of a join says: its operator and its conditions. -/
structure JoinNode where
  op : JoinOp
  conditions : List SyntaxTree

namespace JoinNode

/-- The join is the one of the node, on its condition, or on none where it has none. -/
structure NotedBy (node : JoinNode) (join : Join) : Prop where
  op : join.op = node.op
  on : node.conditions.mapM Expr.ofEquality = .ok join.on?.toList

/-- The join is the one of the node, on the last of its conditions. -/
structure LastNotedBy (node : JoinNode) (op : JoinOp) (on? : Option Expr) : Prop where
  op : op = node.op
  on : ∃ es, node.conditions.mapM Expr.ofEquality = .ok es ∧ on? = es.getLast?

end JoinNode

namespace SyntaxTree

mutual

/-- The joins of an element of a FROM clause or of a side of a join, those of its own sides first.
    The join of a side that stands last is replaced by the one around it. -/
def joinPieces (standsLast : Bool) : SyntaxTree → List (Piece JoinNode)
  | .mk (.join op) _ children =>
    sidePieces children ++ [⟨⟨op, children.filter isCondition⟩, standsLast⟩]
  | _ => []

/-- The joins of the sides of a join. -/
def sidePieces : List SyntaxTree → List (Piece JoinNode)
  | [] => []
  | t :: ts => t.joinPieces (ts.all isCondition) ++ sidePieces ts

end

/-- The joins of a FROM clause. -/
def joins (tree : SyntaxTree) : List (Piece JoinNode) := tree.children.flatMap (joinPieces false)

end SyntaxTree

/-! ### What references are lowered from -/

/-- A part of a join is its condition, or the references of a side. -/
theorem JoinPart.of_ofTree {tree : SyntaxTree} {side : Lowered TableChain} {part : JoinPart}
    (h : JoinPart.ofTree tree side = .ok part) :
    (tree.isCondition = true ∧ ∃ e, Expr.ofEquality tree = .ok e ∧ part = .condition e) ∨
      (tree.isCondition = false ∧ ∃ chain, side = .ok chain ∧ part = .tables chain) := by
  unfold JoinPart.ofTree at h
  split at h
  case h_1 htag =>
    obtain ⟨e, he, rfl⟩ := map_eq_ok.1 h
    exact .inl ⟨beq_iff_eq.2 htag, e, he, rfl⟩
  case h_2 => cases h
  case h_3 hnoEq _ =>
    obtain ⟨chain, hchain, rfl⟩ := map_eq_ok.1 h
    exact .inr ⟨beq_eq_false_iff_ne.2 hnoEq, chain, hchain, rfl⟩

/-- A join has two references at least, and is noted at the last one. -/
theorem TableChain.of_ofJoinParts {op : JoinOp} {parts : List JoinPart} {chain : TableChain}
    (h : TableChain.ofJoinParts op parts = .ok chain) :
    2 ≤ (concat (parts.filterMap JoinPart.tables?)).length ∧
      chain = (concat (parts.filterMap JoinPart.tables?)).joinLast op
        (lastSome? JoinPart.condition? parts) := by
  unfold TableChain.ofJoinParts at h
  dsimp only at h
  split at h
  case isTrue => cases h
  case isFalse hlength =>
    cases h
    exact ⟨Nat.not_lt.1 hlength, rfl⟩

/-- References stand for a join, for a table, or for a view with the last of its queries. -/
theorem of_tablesAt {place : Construct} {tag : Tag} {text : String} {children : List SyntaxTree}
    {chain : TableChain} (h : tablesAt place (.mk tag text children) = .ok chain) :
    (∃ op parts, tag = .join op ∧ joinParts children = .ok parts ∧
        TableChain.ofJoinParts op parts = .ok chain) ∨
      (tag = .tableRef ∧ ∃ name alias?, chain = [⟨.table name, alias?, none⟩]) ∨
      (tag = .subquery ∧ ∃ parts view alias?, viewParts children = .ok parts ∧
        lastSome? ViewPart.query? parts = some view ∧ chain = [⟨.view view, alias?, none⟩]) := by
  cases tag with
  | join op =>
    rw [tablesAt, bind_eq_ok] at h
    obtain ⟨parts, hparts, h⟩ := h
    exact .inl ⟨op, parts, rfl, hparts, h⟩
  | tableRef =>
    simp only [tablesAt, TableRef.ofBaseTree, bind_eq_ok, pure_eq_ok] at h
    obtain ⟨t, ⟨parts, -, ht⟩, rfl⟩ := h
    split at ht
    · cases ht
      exact .inr (.inl ⟨rfl, _, _, rfl⟩)
    · cases ht
  | subquery =>
    simp only [tablesAt, bind_eq_ok, pure_eq_ok] at h
    obtain ⟨parts, hparts, t, ht, rfl⟩ := h
    unfold TableRef.ofViewParts at ht
    split at ht
    · rename_i view hview
      cases ht
      exact .inr (.inr ⟨rfl, parts, view, _, hparts, hview, rfl⟩)
    · cases ht
  | _ => cases h

/-! ### The joins that references carry -/

namespace TableChain

/-- The operators and conditions of the joins that references carry, in order. -/
def notes (chain : TableChain) : List (JoinOp × Option Expr) :=
  chain.filterMap fun t => t.join?.map fun join => (join.op, join.on?)

theorem notes_append (chain more : TableChain) :
    notes (chain ++ more) = notes chain ++ notes more := List.filterMap_append

/-- Where a chain is put does not change what its joins say. -/
theorem notes_moved (chain : TableChain) (n : Nat) :
    notes (chain.map (TableRef.moved n)) = notes chain := by
  rw [notes, notes, List.filterMap_map]
  congr 1
  funext t
  obtain ⟨source, alias?, join?⟩ := t
  cases join? <;> rfl

theorem notes_followedBy (chain more : TableChain) :
    notes (chain.followedBy more) = notes chain ++ notes more := by
  rw [followedBy, notes_append, notes_moved]

theorem concat_concat (chains : List TableChain) (chain : TableChain) :
    concat (chains ++ [chain]) = (concat chains).followedBy chain := by
  rw [concat, List.foldl_append]
  rfl

theorem notes_concat (chains : List TableChain) : notes (concat chains) = chains.flatMap notes := by
  induction chains using List.reverseRecOn with
  | nil => rfl
  | append_singleton chains chain ih =>
    rw [concat_concat, notes_followedBy, ih, List.flatMap_append, List.flatMap_singleton]

theorem notes_dropLast_concat (chains : List TableChain) {chain : TableChain} (hne : chain ≠ []) :
    notes (concat (chains ++ [chain])).dropLast = chains.flatMap notes ++ notes chain.dropLast := by
  have hmoved : chain.map (TableRef.moved (concat chains).length) ≠ [] := by
    simpa only [ne_eq, List.map_eq_nil_iff] using hne
  rw [concat_concat, followedBy, List.dropLast_append_of_ne_nil hmoved, notes_append, notes_concat,
    ← List.map_dropLast, notes_moved]

/-- The last reference of several chains is that of the last one. -/
theorem notes_dropLast_concat_cons {chain : TableChain} {chains : List TableChain}
    (hne : ∀ c ∈ chain :: chains, c ≠ []) :
    notes (concat (chain :: chains)).dropLast =
      notes (if chains.isEmpty then chain.dropLast else chain) ++
        notes (concat chains).dropLast := by
  rcases List.eq_nil_or_concat chains with rfl | ⟨before, last, rfl⟩
  · have hchain := notes_dropLast_concat [] (hne chain List.mem_cons_self)
    exact hchain.trans (List.append_nil _).symm
  · have hlast : last ≠ [] := hne last (by simp)
    have hsome : (before ++ [last]).isEmpty = false := by simp
    rw [List.concat_eq_append] at *
    rw [hsome, if_neg Bool.false_ne_true, ← List.cons_append, notes_dropLast_concat _ hlast,
      notes_dropLast_concat _ hlast, List.flatMap_cons, List.append_assoc]

/-- A join is noted at the last reference alone. -/
theorem notes_joinLast {chain : TableChain} (hne : chain ≠ []) (op : JoinOp) (on? : Option Expr) :
    notes (chain.joinLast op on?).dropLast = notes chain.dropLast ∧
      notes (chain.joinLast op on?) = notes chain.dropLast ++ [(op, on?)] := by
  rw [joinLast, List.getLast?_eq_some_getLast hne]
  dsimp only
  rw [List.dropLast_concat, notes_append]
  exact ⟨rfl, rfl⟩

end TableChain

/-! ### What lowering notes -/

namespace SyntaxTree

open TableChain

/-- The chain notes the joins, in order, each on the last of its conditions. -/
abbrev Noted (nodes : List (Piece JoinNode)) (notes : List (JoinOp × Option Expr)) : Prop :=
  List.Forall₂ (fun node note => JoinNode.LastNotedBy node note.1 note.2) (Piece.kept nodes) notes

/-- The chain that a tree stands for notes the joins of the tree, with or without the one that its
    last reference carries. -/
structure NotedAt (tree : SyntaxTree) (chain : TableChain) : Prop where
  some_ : chain ≠ []
  noted : ∀ standsLast : Bool,
    Noted (tree.joinPieces standsLast) (notes (if standsLast then chain.dropLast else chain))

/-- The chains of the sides of a join note the joins of the sides. -/
structure NotedAmong (trees : List SyntaxTree) (parts : List JoinPart) : Prop where
  some_ : ∀ chain ∈ parts.filterMap JoinPart.tables?, chain ≠ []
  noSides : (parts.filterMap JoinPart.tables?).isEmpty = trees.all isCondition
  conditions : (trees.filter isCondition).mapM Expr.ofEquality =
    .ok (parts.filterMap JoinPart.condition?)
  noted : Noted (sidePieces trees) (notes (concat (parts.filterMap JoinPart.tables?)).dropLast)

theorem joinPieces_of_isCondition {tree : SyntaxTree} (h : tree.isCondition = true)
    (standsLast : Bool) : tree.joinPieces standsLast = [] := by
  obtain ⟨tag, text, children⟩ := tree
  rw [isCondition, beq_iff_eq] at h
  cases h
  rfl

theorem notedAt_single {t : TableRef} (bare : t.join? = none) {tree : SyntaxTree}
    (noJoin : ∀ standsLast, tree.joinPieces standsLast = []) : tree.NotedAt [t] where
  some_ := List.cons_ne_nil t []
  noted standsLast := by
    have hnotes : notes (if standsLast then [t].dropLast else [t]) = [] := by
      cases standsLast with
      | true => rfl
      | false => simp [notes, bare]
    rw [noJoin, hnotes]
    exact .nil

/-- The join of a node is noted at the last reference of its sides. -/
theorem notedAt_join {op : JoinOp} {text : String} {children : List SyntaxTree}
    {parts : List JoinPart} {chain : TableChain} (sides : NotedAmong children parts)
    (h : TableChain.ofJoinParts op parts = .ok chain) :
    (mk (.join op) text children).NotedAt chain := by
  obtain ⟨two, rfl⟩ := of_ofJoinParts h
  have hne : concat (parts.filterMap JoinPart.tables?) ≠ [] := by
    apply List.length_pos_iff.1
    omega
  obtain ⟨hbefore, hall⟩ := notes_joinLast hne op (lastSome? JoinPart.condition? parts)
  refine ⟨?_, fun standsLast => ?_⟩
  · intro hnil
    rw [hnil] at hall
    simp [notes] at hall
  · rw [joinPieces, Noted, Piece.kept_append]
    cases standsLast with
    | true =>
      have hreplaced : ∀ node : JoinNode, Piece.kept [⟨node, true⟩] = [] := fun _ => rfl
      rw [if_pos rfl, hbefore, hreplaced, List.append_nil]
      exact sides.noted
    | false =>
      rw [if_neg Bool.false_ne_true, hall]
      exact List.rel_append sides.noted (.cons ⟨rfl, _, sides.conditions, rfl⟩ .nil)

theorem notedAmong_cons {tree : SyntaxTree} {trees : List SyntaxTree} {part : JoinPart}
    {parts : List JoinPart} (hpart : JoinPart.ofTree tree (tablesAt .join tree) = .ok part)
    (each : ∀ chain, tablesAt .join tree = .ok chain → tree.NotedAt chain)
    (more : NotedAmong trees parts) : NotedAmong (tree :: trees) (part :: parts) := by
  rcases JoinPart.of_ofTree hpart with ⟨hcondition, e, he, rfl⟩ | ⟨hside, chain, hchain, rfl⟩
  · have htables : (JoinPart.condition e :: parts).filterMap JoinPart.tables? =
      parts.filterMap JoinPart.tables? := rfl
    refine ⟨htables ▸ more.some_, ?_, ?_, ?_⟩
    · rw [htables, List.all_cons, hcondition, Bool.true_and, more.noSides]
    · rw [List.filter_cons_of_pos hcondition, List.mapM_cons, he, more.conditions]
      rfl
    · rw [htables, sidePieces, joinPieces_of_isCondition hcondition, List.nil_append]
      exact more.noted
  · have hnoted := each chain hchain
    have htables : (JoinPart.tables chain :: parts).filterMap JoinPart.tables? =
      chain :: parts.filterMap JoinPart.tables? := rfl
    have hsome : ∀ c ∈ chain :: parts.filterMap JoinPart.tables?, c ≠ [] :=
      List.forall_mem_cons.2 ⟨hnoted.some_, more.some_⟩
    refine ⟨htables ▸ hsome, ?_, ?_, ?_⟩
    · rw [htables, List.all_cons, hside]
      rfl
    · rw [List.filter_cons_of_neg (by simp [hside])]
      exact more.conditions
    · rw [htables, sidePieces, Noted, Piece.kept_append, notes_dropLast_concat_cons hsome,
        more.noSides]
      exact List.rel_append (hnoted.noted _) more.noted

mutual

/-- The references that a tree stands for note its joins. -/
theorem notedAt_tablesAt (place : Construct) : ∀ (tree : SyntaxTree) {chain : TableChain},
    tablesAt place tree = .ok chain → tree.NotedAt chain
  | .mk tag text children, chain, h => by
    rcases of_tablesAt h with ⟨op, parts, rfl, hparts, h⟩ | ⟨rfl, name, alias?, rfl⟩ |
      ⟨rfl, parts, view, alias?, -, -, rfl⟩
    · exact notedAt_join (notedAmong_joinParts children hparts) h
    · exact notedAt_single rfl fun _ => rfl
    · exact notedAt_single rfl fun _ => rfl

/-- The sides of a join note theirs. -/
theorem notedAmong_joinParts : ∀ (trees : List SyntaxTree) {parts : List JoinPart},
    joinParts trees = .ok parts → NotedAmong trees parts
  | [], parts, h => by
    rw [joinParts] at h
    cases h
    exact ⟨nofun, rfl, rfl, .nil⟩
  | tree :: trees, parts, h => by
    simp only [joinParts, bind_eq_ok, pure_eq_ok] at h
    obtain ⟨part, hpart, more, hmore, rfl⟩ := h
    exact notedAmong_cons hpart (fun _ hchain => notedAt_tablesAt .join tree hchain)
      (notedAmong_joinParts trees hmore)

end

/-- The references of a FROM clause note its joins. -/
theorem noted_fromElements : ∀ (elements : List SyntaxTree) {chains : List TableChain},
    fromElements elements = .ok chains →
      Noted (elements.flatMap (joinPieces false)) (chains.flatMap notes)
  | [], chains, h => by
    rw [fromElements] at h
    cases h
    exact .nil
  | element :: elements, chains, h => by
    simp only [fromElements, bind_eq_ok, pure_eq_ok] at h
    obtain ⟨chain, hchain, more, hmore, rfl⟩ := h
    rw [Noted, List.flatMap_cons, List.flatMap_cons, Piece.kept_append]
    exact List.rel_append ((notedAt_tablesAt .fromClause element hchain).noted false)
      (noted_fromElements elements hmore)

end SyntaxTree

namespace JoinNode

variable {node : JoinNode} {join : Join}

/-- A join has room for one condition. -/
theorem NotedBy.conditions_le (h : node.NotedBy join) : node.conditions.length ≤ 1 := by
  have hlength := (mapM_eq_ok.1 h.on).length_eq
  rw [hlength]
  cases join.on? with
  | none => exact Nat.zero_le 1
  | some e => exact Nat.le_refl 1

/-- The last of at most one condition is the only one. -/
theorem LastNotedBy.notedBy (h : node.LastNotedBy join.op join.on?)
    (single : node.conditions.length ≤ 1) : node.NotedBy join := by
  obtain ⟨es, hes, hlast⟩ := h.on
  have hlength : es.length ≤ 1 := by
    rw [← (mapM_eq_ok.1 hes).length_eq]
    exact single
  refine ⟨h.op, ?_⟩
  rw [hes, hlast]
  match es, hlength with
  | [], _ => rfl
  | [e], _ => rfl

end JoinNode

namespace TableChain

theorem notes_eq_map (chain : TableChain) :
    chain.notes = (chain.filterMap TableRef.join?).map fun join => (join.op, join.on?) := by
  rw [notes, List.map_filterMap]

/-- Each of the joins is noted at a reference of its own, with the condition it has. -/
def NotesAll (chain : TableChain) (nodes : List JoinNode) : Prop :=
  ∃ joins, joins.Perm (chain.filterMap TableRef.join?) ∧ List.Forall₂ JoinNode.NotedBy nodes joins

/-- The references of a FROM clause note, in order, the joins that stay, each on the last of its
    conditions. So no join and no condition is lost if and only if no side that stands last is a
    join and no join has two conditions. -/
theorem notesAll_iff {tree : SyntaxTree} {chain : TableChain}
    (accepted : TableChain.ofTree tree = .ok chain) :
    List.Forall₂ (fun node join => node.LastNotedBy join.op join.on?) (Piece.kept tree.joins)
        (chain.filterMap TableRef.join?) ∧
      (chain.NotesAll (tree.joins.map Piece.val) ↔
        ∀ p ∈ tree.joins, p.isReplaced = false ∧ p.val.conditions.length ≤ 1) := by
  rw [TableChain.ofTree, map_eq_ok] at accepted
  obtain ⟨chains, hchains, rfl⟩ := accepted
  have noted : List.Forall₂ (fun node join => node.LastNotedBy join.op join.on?)
      (Piece.kept tree.joins) ((concat chains).filterMap TableRef.join?) := by
    have hnotes := SyntaxTree.noted_fromElements tree.children hchains
    rwa [SyntaxTree.Noted, ← notes_concat, notes_eq_map, List.forall₂_map_right_iff] at hnotes
  refine ⟨noted, ?_, ?_⟩
  · intro given
    obtain ⟨joins, perm, places⟩ := given
    intro p hp
    obtain ⟨join, -, hjoin⟩ := forall₂_mem_left places (List.mem_map_of_mem hp)
    exact ⟨Piece.stay_of_forall₂_perm noted perm places p hp, hjoin.conditions_le⟩
  · intro single
    have conditions : ∀ node ∈ tree.joins.map Piece.val, node.conditions.length ≤ 1 :=
      List.forall_mem_map.2 fun p hp => (single p hp).2
    rw [Piece.kept_eq_of_forall fun p hp => (single p hp).1] at noted
    have both := (List.forall₂_and_left _ _).2 ⟨conditions, noted⟩
    exact ⟨_, .refl _, both.imp fun node join h => h.2.notedBy h.1⟩

/-- Joins that stand to the left keep their conditions. -/
theorem notesAll_left_deep :
    let table (name : String) : SyntaxTree :=
      .node .tableRef [.node .tableName [Grammar.nameLeaf name]]
    let equal (left right : SyntaxTree) : SyntaxTree := .node (.compare .eq) [left, right]
    let field (qualifier name : String) : Expr := .field (.unresolved qualifier name)
    let inner : SyntaxTree := .node (.join .leftOuter) [table "a", table "b",
      equal (Grammar.qualifiedNode "a" "x") (Grammar.qualifiedNode "b" "y")]
    let tree : SyntaxTree := .node .fromClause [.node (.join .inner) [inner, table "c",
      equal (Grammar.qualifiedNode "b" "z") (Grammar.qualifiedNode "c" "w")]]
    let chain : TableChain := [⟨.table "a", none, none⟩,
      ⟨.table "b", none,
        some ⟨.leftOuter, some (.compare .eq (field "a" "x") (field "b" "y")), 0⟩⟩,
      ⟨.table "c", none, some ⟨.inner, some (.compare .eq (field "b" "z") (field "c" "w")), 1⟩⟩]
    TableChain.ofTree tree = .ok chain ∧ tree.joins.length = 2 ∧
      chain.NotesAll (tree.joins.map Piece.val) := by
  intro table equal field inner tree chain
  have accepted : TableChain.ofTree tree = .ok chain := rfl
  exact ⟨accepted, rfl, (notesAll_iff accepted).2.2 (by decide)⟩

/-- The join of a side that stands last is lost, and so is the first of two conditions. -/
theorem not_notesAll_right_nested :
    let table (name : String) : SyntaxTree :=
      .node .tableRef [.node .tableName [Grammar.nameLeaf name]]
    let equal (left right : SyntaxTree) : SyntaxTree := .node (.compare .eq) [left, right]
    let field (qualifier name : String) : Expr := .field (.unresolved qualifier name)
    let inner : SyntaxTree := .node (.join .leftOuter) [table "b", table "c",
      equal (Grammar.qualifiedNode "b" "y") (Grammar.qualifiedNode "c" "y")]
    let nested : SyntaxTree := .node .fromClause [.node (.join .inner) [table "a", inner,
      equal (Grammar.qualifiedNode "a" "x") (Grammar.qualifiedNode "b" "x")]]
    let doubled : SyntaxTree := .node .fromClause [.node (.join .inner) [table "a", table "b",
      equal (Grammar.qualifiedNode "a" "x") (Grammar.qualifiedNode "b" "x"),
      equal (Grammar.qualifiedNode "a" "y") (Grammar.qualifiedNode "b" "y")]]
    let chain : TableChain := [⟨.table "a", none, none⟩, ⟨.table "b", none, none⟩,
      ⟨.table "c", none, some ⟨.inner, some (.compare .eq (field "a" "x") (field "b" "x")), 1⟩⟩]
    let pair : TableChain := [⟨.table "a", none, none⟩,
      ⟨.table "b", none, some ⟨.inner, some (.compare .eq (field "a" "y") (field "b" "y")), 0⟩⟩]
    (TableChain.ofTree nested = .ok chain ∧ ¬ chain.NotesAll (nested.joins.map Piece.val)) ∧
      TableChain.ofTree doubled = .ok pair ∧ ¬ pair.NotesAll (doubled.joins.map Piece.val) := by
  intro table equal field inner nested doubled chain pair
  refine ⟨⟨rfl, ?_⟩, rfl, ?_⟩
  · intro notes
    obtain ⟨joins, perm, places⟩ := notes
    have hlength : 2 = 1 := places.length_eq.trans perm.length_eq
    cases hlength
  · intro notes
    obtain ⟨joins, perm, places⟩ := notes
    obtain ⟨join, -, hjoin⟩ := forall₂_mem_left places List.mem_cons_self
    have hconditions : 2 ≤ 1 := hjoin.conditions_le
    omega

end TableChain

end SqlGuard
