import SqlGuard.Lowering.Statement
import SqlGuard.Proofs.LetterCase.Folding

/-!
# Letter case of what trees are lowered to

A tree in lower case is lowered to what the tree as it is is lowered to, up to letter case, or it is
refused for the same element. Main statement: `Statement.ofTree_folded`.
-/

namespace SqlGuard

/-- Both are lowered to the same up to letter case, or refused for the same. -/
abbrev LoweredAlike {α β : Type} (fold : α → β) (x y : Lowered α) : Prop :=
  Mirrors LoweringError.folded (fun a b => fold a = fold b) x y

namespace Mirrors

variable {α β : Type} {fold : α → β}

theorem refuseTag (place : Construct) (tag : Tag) :
    LoweredAlike fold (refuseTag place tag) (SqlGuard.refuseTag place tag) := .error rfl

theorem refuseTree (place : Construct) (tree : SyntaxTree) :
    LoweredAlike fold (refuseTree place tree) (SqlGuard.refuseTree place tree.folded) := by
  refine .error ?_
  rw [LoweringError.folded, LoweringError.folded,
    Text.folded_eq_iff.2 (SyntaxTree.asciiFold_render_folded tree)]

theorem refuseOperands (place : Construct) (tag : Tag) (operands : List SyntaxTree) :
    LoweredAlike fold (refuseOperands place tag operands.length)
      (SqlGuard.refuseOperands place tag (operands.map SyntaxTree.folded).length) := by
  rw [List.length_map]
  exact .error rfl

end Mirrors

namespace SyntaxTree

theorem folded_text (tree : SyntaxTree) : Text.folded tree.folded.text = Text.folded tree.text := by
  cases tree with
  | mk tag text children =>
    show Text.folded (if tag.hasLetters then Text.folded text else text) = Text.folded text
    split
    · exact Text.folded_folded text
    · rfl

theorem text_folded {tree : SyntaxTree} (letters : tree.tag.hasLetters = true) :
    tree.folded.text = Text.folded tree.text := by
  cases tree with
  | mk tag text children => exact if_pos letters

theorem text_folded_of_noLetters {tree : SyntaxTree} (noLetters : tree.tag.hasLetters = false) :
    tree.folded.text = tree.text := by
  cases tree with
  | mk tag text children =>
    show (if tag.hasLetters then Text.folded text else text) = text
    rw [show tag.hasLetters = false from noLetters]
    rfl

theorem map_folded_firstChildText? (tree : SyntaxTree) :
    tree.firstChildText?.map Text.folded = tree.folded.firstChildText?.map Text.folded := by
  unfold firstChildText?
  rw [children_folded]
  cases tree.children with
  | nil => rfl
  | cons t _ => simp [folded_text]

end SyntaxTree

/-! ### Expressions -/

theorem Field.map_folded_ofQualified? (trees : List SyntaxTree) :
    (ofQualified? trees).map folded =
      (ofQualified? (trees.map SyntaxTree.folded)).map folded := by
  match trees with
  | [] | [_] | _ :: _ :: _ :: _ => rfl
  | [table, column] =>
    have htable := table.map_folded_firstChildText?
    simp only [List.map_cons, List.map_nil, ofQualified?, SyntaxTree.tag_folded]
    split
    · rw [Option.map_map, Option.map_map]
      revert htable
      cases table.firstChildText? <;> cases table.folded.firstChildText? <;> intro htable <;>
        simp_all [folded, unresolved, SyntaxTree.folded_text]
    · rfl

namespace Expr

theorem folded_literal_of_noString {kind : LiteralKind} (noString : kind ≠ .string)
    {text text' : String} (same : Text.folded text = Text.folded text') :
    (literal kind text).folded = (literal kind text').folded := by
  cases kind with
  | int | float => simp only [folded, same]
  | string => exact absurd rfl noString

theorem ofAtom_folded (tree : SyntaxTree) :
    LoweredAlike folded (ofAtom tree) (ofAtom tree.folded) := by
  have hfield := Field.map_folded_ofQualified? tree.children
  have hchild := tree.map_folded_firstChildText?
  have htext := tree.folded_text.symm
  rw [map_eq_map_iff] at hfield hchild
  unfold ofAtom
  rw [SyntaxTree.tag_folded, SyntaxTree.children_folded]
  cases htag : tree.tag
  case qualified =>
    rcases hfield with ⟨hnone, hnone'⟩ | ⟨f, g, hsome, hsome', hfg⟩
    · simp only [hnone, hnone']
      exact .refuseTree _ tree
    · simp only [hsome, hsome']
      exact .ok (by rw [folded, folded, hfg])
  case column =>
    rcases hchild with ⟨hnone, hnone'⟩ | ⟨name, name', hsome, hsome', hname⟩
    · simp only [hnone, hnone']
      exact .refuseTag _ _
    · simp only [hsome, hsome']
      exact .ok (by simp only [folded, Field.folded, Field.unresolved, hname])
  case starCall =>
    rcases hchild with ⟨hnone, hnone'⟩ | ⟨name, name', hsome, hsome', hname⟩
    · simp only [hnone, hnone']
      exact .refuseTag _ _
    · simp only [hsome, hsome']
      exact .ok (by rw [folded, folded, hname])
  case number =>
    have hkind : LiteralKind.ofNumber tree.folded.text = .ofNumber tree.text := by
      rw [SyntaxTree.text_folded (by rw [htag]; rfl), LiteralKind.ofNumber_folded]
    have noString : LiteralKind.ofNumber tree.text ≠ .string := by
      unfold LiteralKind.ofNumber
      split <;> decide
    rw [hkind]
    exact .ok (folded_literal_of_noString noString htext)
  case bigintLiteral | smallintLiteral | tinyintLiteral | decimalLiteral =>
    exact .ok (folded_literal_of_noString (by decide) htext)
  case stringLiteral =>
    rw [SyntaxTree.text_folded_of_noLetters (by rw [htag]; rfl)]
    exact .ok rfl
  all_goals exact .refuseTag _ _

theorem ofTree_folded : ∀ tree : SyntaxTree,
    LoweredAlike folded (ofTree tree) (ofTree tree.folded)
  | .mk tag text children => by
    have hatom := ofAtom_folded (.mk tag text children)
    rw [SyntaxTree.folded_mk] at hatom ⊢
    cases tag with
    | arith op =>
      match children with
      | [left, right] =>
        rw [List.map_cons, List.map_cons, List.map_nil, ofTree, ofTree]
        refine (ofTree_folded left).bind fun l l' hl => ?_
        refine (ofTree_folded right).bind fun r r' hr => .ok ?_
        rw [folded, folded, hl, hr]
      | [] | [_] => exact .refuseOperands _ _ _
      | t :: u :: v :: ts => exact .refuseOperands _ _ (t :: u :: v :: ts)
    | _ => exact hatom

theorem ofComparison_folded (op : CompareOp) (operands : List SyntaxTree) :
    LoweredAlike folded (ofComparison op operands)
      (ofComparison op (operands.map SyntaxTree.folded)) := by
  match operands with
  | [left, right] =>
    refine (ofTree_folded left).bind fun l l' hl => (ofTree_folded right).bind fun r r' hr => .ok ?_
    rw [folded, folded, hl, hr]
  | [] | [_] => exact .refuseOperands _ _ _
  | t :: u :: v :: ts => exact .refuseOperands _ _ (t :: u :: v :: ts)

theorem ofPredicateAt_folded (place : Construct) (tree : SyntaxTree) :
    LoweredAlike folded (ofPredicateAt place tree) (ofPredicateAt place tree.folded) := by
  unfold ofPredicateAt
  rw [SyntaxTree.tag_folded, SyntaxTree.children_folded]
  split
  · exact ofComparison_folded _ _
  · exact .refuseTag _ _

theorem ofGrouping_folded (tree : SyntaxTree) :
    LoweredAlike folded (ofGrouping tree) (ofGrouping tree.folded) := by
  unfold ofGrouping
  rw [SyntaxTree.tag_folded]
  split
  · exact ofTree_folded tree
  · exact .refuseTag _ _

end Expr

/-! ### Clauses -/

section Found

variable {α β : Type} {fold : α → α} {fold' : β → β}

/-- What is found in lists that agree up to letter case agrees up to letter case. -/
theorem map_filterMap_congr {f : α → Option β} (commutes : ∀ a, f (fold a) = (f a).map fold')
    {xs ys : List α} (same : xs.map fold = ys.map fold) :
    (xs.filterMap f).map fold' = (ys.filterMap f).map fold' := by
  have hmap : f ∘ fold = fun a => (f a).map fold' := funext commutes
  rw [List.map_filterMap, List.map_filterMap, ← hmap, ← List.filterMap_map, ← List.filterMap_map,
    same]

theorem map_lastSome?_congr {f : α → Option β} (commutes : ∀ a, f (fold a) = (f a).map fold')
    {xs ys : List α} (same : xs.map fold = ys.map fold) :
    (lastSome? f xs).map fold' = (lastSome? f ys).map fold' := by
  rw [lastSome?, lastSome?, ← List.getLast?_map, ← List.getLast?_map,
    map_filterMap_congr commutes same]

theorem map_getD_congr {xs? ys? : Option (List β)}
    (same : xs?.map (List.map fold') = ys?.map (List.map fold')) :
    (xs?.getD []).map fold' = (ys?.getD []).map fold' := by
  rw [← Option.getD_map (List.map fold'), ← Option.getD_map (List.map fold'), same]

end Found

/-- The part, its names and numbers in lower case. -/
def ItemPart.folded : ItemPart → ItemPart
  | .expr e => .expr e.folded
  | .alias name => .alias (Text.folded name)

theorem ItemPart.ofTree_folded (tree : SyntaxTree) :
    LoweredAlike folded (ofTree tree) (ofTree tree.folded) := by
  unfold ofTree
  rw [SyntaxTree.tag_folded]
  split
  · exact .ok (by rw [folded, folded, tree.folded_text])
  · exact (Expr.ofTree_folded tree).map fun e e' he => by rw [folded, folded, he]

theorem SelectItem.ofTree_folded (tree : SyntaxTree) :
    LoweredAlike folded (ofTree tree) (ofTree tree.folded) := by
  unfold ofTree
  rw [SyntaxTree.tag_folded, SyntaxTree.children_folded]
  split
  · refine (Mirrors.mapM fun part _ => ItemPart.ofTree_folded part).bind fun ps qs hpq => ?_
    have hexpr : (lastSome? ItemPart.expr? ps).map Expr.folded =
        (lastSome? ItemPart.expr? qs).map Expr.folded :=
      map_lastSome?_congr (fun part => by cases part <;> rfl) hpq
    have halias : (lastSome? ItemPart.alias? ps).map Text.folded =
        (lastSome? ItemPart.alias? qs).map Text.folded :=
      map_lastSome?_congr (fun part => by cases part <;> rfl) hpq
    rcases map_eq_map_iff.1 hexpr with ⟨hnone, hnone'⟩ | ⟨e, e', hsome, hsome', he⟩
    · simp only [hnone, hnone']
      exact .refuseTree _ tree
    · simp only [hsome, hsome']
      exact .ok (by rw [folded, folded, he, halias])
  · exact .refuseTag _ _

/-- The clause, its names and numbers in lower case. -/
def Clause.folded : Clause → Clause
  | .items selected => .items (selected.map SelectItem.folded)
  | .condition predicate? => .condition (predicate?.map Expr.folded)
  | .grouping exprs => .grouping (exprs.map Expr.folded)
  | .destination => .destination

theorem Clause.ofTree_folded (tree : SyntaxTree) :
    LoweredAlike folded (ofTree tree) (ofTree tree.folded) := by
  unfold ofTree
  rw [SyntaxTree.tag_folded, SyntaxTree.children_folded]
  split
  · refine (Mirrors.mapM fun item _ => SelectItem.ofTree_folded item).map fun is js hij => ?_
    rw [folded, folded, hij]
  · refine (Mirrors.mapM fun e _ => Expr.ofPredicateAt_folded _ e).bind fun es es' hes => .ok ?_
    rw [folded, folded, ← List.getLast?_map, ← List.getLast?_map, hes]
  · refine (Mirrors.mapM fun e _ => Expr.ofGrouping_folded e).map fun es es' hes => ?_
    rw [folded, folded, hes]
  · exact .ok rfl
  · exact .refuseTag _ _

/-- The selection, its names and numbers in lower case. -/
def Selection.folded (clauses : Selection) : Selection where
  items := clauses.items.map SelectItem.folded
  where? := clauses.where?.map Expr.folded
  groupBy := clauses.groupBy.map Expr.folded

theorem Selection.ofTrees_folded (trees : List SyntaxTree) :
    LoweredAlike folded (ofTrees trees) (ofTrees (trees.map SyntaxTree.folded)) := by
  refine (Mirrors.mapM fun clause _ => Clause.ofTree_folded clause).map fun cs ds hcd => ?_
  have hitems : (lastSome? Clause.items? cs).map (List.map SelectItem.folded) =
      (lastSome? Clause.items? ds).map (List.map SelectItem.folded) :=
    map_lastSome?_congr (fun clause => by cases clause <;> rfl) hcd
  have hcondition : (lastSome? Clause.condition? cs).map (Option.map Expr.folded) =
      (lastSome? Clause.condition? ds).map (Option.map Expr.folded) :=
    map_lastSome?_congr (fun clause => by cases clause <;> rfl) hcd
  have hgrouping : (lastSome? Clause.grouping? cs).map (List.map Expr.folded) =
      (lastSome? Clause.grouping? ds).map (List.map Expr.folded) :=
    map_lastSome?_congr (fun clause => by cases clause <;> rfl) hcd
  simp only [folded, ofClauses, ← Option.join_map_eq_map_join, map_getD_congr hitems, hcondition,
    map_getD_congr hgrouping]

/-! ### Chains of references -/

theorem TableRef.folded_moved (n : Nat) (t : TableRef) : (t.moved n).folded = t.folded.moved n := by
  obtain ⟨source, alias?, join?⟩ := t
  cases join? <;> rfl

namespace TableChain

theorem map_folded_followedBy (chain more : TableChain) :
    (followedBy chain more).map TableRef.folded =
      followedBy (chain.map TableRef.folded) (more.map TableRef.folded) := by
  simp [followedBy, Function.comp_def, TableRef.folded_moved]

theorem map_folded_concat (chains : List TableChain) :
    (concat chains).map TableRef.folded = concat (chains.map (List.map TableRef.folded)) := by
  have hfrom : ∀ before : TableChain, (chains.foldl followedBy before).map TableRef.folded =
      (chains.map (List.map TableRef.folded)).foldl followedBy (before.map TableRef.folded) := by
    induction chains with
    | nil => exact fun _ => rfl
    | cons chain chains ih =>
      intro before
      rw [List.map_cons, List.foldl_cons, List.foldl_cons, ih, map_folded_followedBy]
  exact hfrom []

theorem map_folded_joinLast (op : JoinOp) (on? : Option Expr) (chain : TableChain) :
    (joinLast op on? chain).map TableRef.folded =
      joinLast op (on?.map Expr.folded) (chain.map TableRef.folded) := by
  unfold joinLast
  rw [List.getLast?_map]
  cases chain.getLast? with
  | none => rfl
  | some last =>
    obtain ⟨source, alias?, join?⟩ := last
    simp [TableRef.folded, Join.folded]

end TableChain

/-- The part, its names and numbers in lower case. -/
def JoinPart.folded : JoinPart → JoinPart
  | .tables chain => .tables (chain.map TableRef.folded)
  | .condition predicate => .condition predicate.folded

theorem TableChain.ofJoinParts_folded (op : JoinOp) {parts parts' : List JoinPart}
    (same : parts.map JoinPart.folded = parts'.map JoinPart.folded) :
    LoweredAlike (List.map TableRef.folded) (ofJoinParts op parts) (ofJoinParts op parts') := by
  have hchains : (parts.filterMap JoinPart.tables?).map (List.map TableRef.folded) =
      (parts'.filterMap JoinPart.tables?).map (List.map TableRef.folded) :=
    map_filterMap_congr (fun part => by cases part <;> rfl) same
  have hchain : (concat (parts.filterMap JoinPart.tables?)).map TableRef.folded =
      (concat (parts'.filterMap JoinPart.tables?)).map TableRef.folded := by
    rw [map_folded_concat, map_folded_concat, hchains]
  have hon : (lastSome? JoinPart.condition? parts).map Expr.folded =
      (lastSome? JoinPart.condition? parts').map Expr.folded :=
    map_lastSome?_congr (fun part => by cases part <;> rfl) same
  have hlength := congrArg List.length hchain
  rw [List.length_map, List.length_map] at hlength
  unfold ofJoinParts
  dsimp only
  rw [hlength]
  split
  · exact .error rfl
  · exact .ok (by rw [map_folded_joinLast, map_folded_joinLast, hon, hchain])

/-! ### References and queries -/

theorem tableNameOfTree_folded (tree : SyntaxTree) :
    LoweredAlike Text.folded (tableNameOfTree tree) (tableNameOfTree tree.folded) := by
  unfold tableNameOfTree
  rw [SyntaxTree.tag_folded, SyntaxTree.children_folded]
  generalize tree.children = children
  cases tree.tag with
  | tableName =>
    match children with
    | [name] => exact .ok name.folded_text.symm
    | [] | _ :: _ :: _ => exact .refuseTree _ tree
  | _ => exact .refuseTree _ tree

/-- The part, its name in lower case. -/
def BasePart.folded : BasePart → BasePart
  | .table name => .table (Text.folded name)
  | .alias name => .alias (Text.folded name)

theorem BasePart.ofTree_folded (tree : SyntaxTree) :
    LoweredAlike folded (ofTree tree) (ofTree tree.folded) := by
  unfold ofTree
  rw [SyntaxTree.tag_folded]
  split
  · exact (tableNameOfTree_folded tree).map fun name name' hname => by rw [folded, folded, hname]
  · exact .ok (by rw [folded, folded, tree.folded_text])
  · exact .refuseTag _ _

theorem TableRef.ofBaseTree_folded (tree : SyntaxTree) :
    LoweredAlike folded (ofBaseTree tree) (ofBaseTree tree.folded) := by
  unfold ofBaseTree
  rw [SyntaxTree.children_folded]
  refine (Mirrors.mapM fun part _ => BasePart.ofTree_folded part).bind fun ps qs hpq => ?_
  have htable : (lastSome? BasePart.table? ps).map Text.folded =
      (lastSome? BasePart.table? qs).map Text.folded :=
    map_lastSome?_congr (fun part => by cases part <;> rfl) hpq
  have halias : (lastSome? BasePart.alias? ps).map Text.folded =
      (lastSome? BasePart.alias? qs).map Text.folded :=
    map_lastSome?_congr (fun part => by cases part <;> rfl) hpq
  rcases map_eq_map_iff.1 htable with ⟨hnone, hnone'⟩ | ⟨name, name', hsome, hsome', hname⟩
  · simp only [hnone, hnone']
    exact .refuseTree _ tree
  · simp only [hsome, hsome']
    exact .ok (by simp only [folded, Source.folded, hname, halias, Option.map_none])

/-- The part, its names and numbers in lower case. -/
def ViewPart.folded : ViewPart → ViewPart
  | .query inner => .query inner.folded
  | .alias name => .alias (Text.folded name)

theorem TableRef.ofViewParts_folded (tree : SyntaxTree) {parts parts' : List ViewPart}
    (same : parts.map ViewPart.folded = parts'.map ViewPart.folded) :
    LoweredAlike folded (ofViewParts tree parts) (ofViewParts tree.folded parts') := by
  have hquery : (lastSome? ViewPart.query? parts).map Query.folded =
      (lastSome? ViewPart.query? parts').map Query.folded :=
    map_lastSome?_congr (fun part => by cases part <;> rfl) same
  have halias : (lastSome? ViewPart.alias? parts).map Text.folded =
      (lastSome? ViewPart.alias? parts').map Text.folded :=
    map_lastSome?_congr (fun part => by cases part <;> rfl) same
  unfold ofViewParts
  rcases map_eq_map_iff.1 hquery with ⟨hnone, hnone'⟩ | ⟨query, query', hsome, hsome', hq⟩
  · simp only [hnone, hnone']
    exact .refuseTree _ tree
  · simp only [hsome, hsome']
    exact .ok (by simp only [folded, Source.folded, hq, halias, Option.map_none])

/-- The part, its names and numbers in lower case. -/
def QueryPart.folded : QueryPart → QueryPart
  | .tables chain => .tables (chain.map TableRef.folded)
  | .selection clauses => .selection clauses.folded

theorem Query.ofParts_folded {parts parts' : List QueryPart}
    (same : parts.map QueryPart.folded = parts'.map QueryPart.folded) :
    LoweredAlike folded (ofParts parts) (ofParts parts') := by
  have hselection : (lastSome? QueryPart.selection? parts).map Selection.folded =
      (lastSome? QueryPart.selection? parts').map Selection.folded :=
    map_lastSome?_congr (fun part => by cases part <;> rfl) same
  have htables : (lastSome? QueryPart.tables? parts).map (List.map TableRef.folded) =
      (lastSome? QueryPart.tables? parts').map (List.map TableRef.folded) :=
    map_lastSome?_congr (fun part => by cases part <;> rfl) same
  unfold ofParts
  rcases map_eq_map_iff.1 hselection with ⟨hnone, hnone'⟩ | ⟨s, s', hsome, hsome', hs⟩
  · simp only [hnone, hnone']
    exact .error rfl
  · simp only [hsome, hsome']
    obtain ⟨items, where?, groupBy⟩ := s
    obtain ⟨items', where?', groupBy'⟩ := s'
    simp only [Selection.folded, Selection.mk.injEq] at hs
    obtain ⟨hitems, hwhere, hgroup⟩ := hs
    refine .ok ?_
    simp only [folded, foldedTables_eq_map, hitems, hwhere, hgroup, map_getD_congr htables]

theorem JoinPart.ofTree_folded (tree : SyntaxTree) {side side' : Lowered TableChain}
    (hside : LoweredAlike (List.map TableRef.folded) side side') :
    LoweredAlike folded (ofTree tree side) (ofTree tree.folded side') := by
  unfold ofTree
  rw [SyntaxTree.tag_folded, SyntaxTree.children_folded]
  split
  · exact (Expr.ofComparison_folded _ _).map fun e e' he => by rw [folded, folded, he]
  · refine .error ?_
    rw [LoweringError.folded, LoweringError.folded,
      Text.folded_eq_iff.2 (SyntaxTree.asciiFold_render_folded tree)]
  · exact hside.map fun chain chain' hchain => by rw [folded, folded, hchain]

open SyntaxTree (foldedAll)

/- By the recursion of the lowering itself: a list of children is lowered in order, so the first one
   that is refused is the same in any letter case. -/
mutual

theorem queryParts_folded : ∀ trees : List SyntaxTree,
    LoweredAlike (List.map QueryPart.folded) (queryParts trees) (queryParts (foldedAll trees))
  | [] => .ok rfl
  | tree :: trees => by
    rw [foldedAll, queryParts, queryParts]
    refine (queryPart_folded tree).bind fun part part' hpart => ?_
    refine (queryParts_folded trees).bind fun parts parts' hparts => .ok ?_
    rw [List.map_cons, List.map_cons, hpart, hparts]

theorem queryPart_folded : ∀ tree : SyntaxTree,
    LoweredAlike QueryPart.folded (queryPart tree) (queryPart tree.folded)
  | .mk tag text children => by
    cases tag with
    | fromClause =>
      refine (fromElements_folded children).bind fun chains chains' hchains => .ok ?_
      rw [QueryPart.folded, QueryPart.folded, TableChain.map_folded_concat,
        TableChain.map_folded_concat, hchains]
    | insertClause =>
      rw [SyntaxTree.folded_mk, queryPart, queryPart]
      refine (Selection.ofTrees_folded children).map fun s s' hs => ?_
      rw [QueryPart.folded, QueryPart.folded, hs]
    | _ => exact .refuseTag _ _

theorem fromElements_folded : ∀ trees : List SyntaxTree,
    LoweredAlike (List.map (List.map TableRef.folded)) (fromElements trees)
      (fromElements (foldedAll trees))
  | [] => .ok rfl
  | tree :: trees => by
    rw [foldedAll, fromElements, fromElements]
    refine (tablesAt_folded .fromClause tree).bind fun chain chain' hchain => ?_
    refine (fromElements_folded trees).bind fun chains chains' hchains => .ok ?_
    rw [List.map_cons, List.map_cons, hchain, hchains]

theorem tablesAt_folded (place : Construct) : ∀ tree : SyntaxTree,
    LoweredAlike (List.map TableRef.folded) (tablesAt place tree) (tablesAt place tree.folded)
  | .mk tag text children => by
    cases tag with
    | join op =>
      exact (joinParts_folded children).bind fun parts parts' hparts =>
        TableChain.ofJoinParts_folded op hparts
    | tableRef =>
      refine (TableRef.ofBaseTree_folded (.mk .tableRef text children)).bind fun t t' ht => .ok ?_
      rw [List.map_singleton, List.map_singleton, ht]
    | subquery =>
      refine (viewParts_folded children).bind fun parts parts' hparts => ?_
      refine (TableRef.ofViewParts_folded (.mk .subquery text children) hparts).bind
        fun t t' ht => .ok ?_
      rw [List.map_singleton, List.map_singleton, ht]
    | _ => exact .refuseTag _ _

theorem joinParts_folded : ∀ trees : List SyntaxTree,
    LoweredAlike (List.map JoinPart.folded) (joinParts trees) (joinParts (foldedAll trees))
  | [] => .ok rfl
  | tree :: trees => by
    rw [foldedAll, joinParts, joinParts]
    refine (JoinPart.ofTree_folded tree (tablesAt_folded .join tree)).bind
      fun part part' hpart => ?_
    refine (joinParts_folded trees).bind fun parts parts' hparts => .ok ?_
    rw [List.map_cons, List.map_cons, hpart, hparts]

theorem viewParts_folded : ∀ trees : List SyntaxTree,
    LoweredAlike (List.map ViewPart.folded) (viewParts trees) (viewParts (foldedAll trees))
  | [] => .ok rfl
  | tree :: trees => by
    rw [foldedAll, viewParts, viewParts]
    refine (viewPart_folded tree).bind fun part part' hpart => ?_
    refine (viewParts_folded trees).bind fun parts parts' hparts => .ok ?_
    rw [List.map_cons, List.map_cons, hpart, hparts]

theorem viewPart_folded : ∀ tree : SyntaxTree,
    LoweredAlike ViewPart.folded (viewPart tree) (viewPart tree.folded)
  | .mk tag text children => by
    cases tag with
    | query =>
      have hview : LoweredAlike Query.folded (queryParts children >>= Query.ofParts)
          (queryParts (foldedAll children) >>= Query.ofParts) :=
        (queryParts_folded children).bind fun parts parts' => Query.ofParts_folded
      refine hview.map fun query query' hquery => ?_
      rw [ViewPart.folded, ViewPart.folded, hquery]
    | identifier => exact .ok (congrArg ViewPart.alias (Text.folded_folded text).symm)
    | _ => exact .refuseTag _ _

end

/-! ### Statements -/

theorem Query.ofTree_folded (tree : SyntaxTree) :
    LoweredAlike folded (ofTree tree) (ofTree tree.folded) := by
  have hparts := queryParts_folded tree.children
  rw [SyntaxTree.foldedAll_eq_map, ← SyntaxTree.children_folded] at hparts
  unfold ofTree
  rw [SyntaxTree.tag_folded]
  split
  · exact hparts.bind fun parts parts' => ofParts_folded
  · exact .error rfl

/-- The part, its names in lower case. -/
def LoadPart.folded : LoadPart → LoadPart
  | .path file => .path file
  | .table name => .table (Text.folded name)
  | .flag => .flag

theorem LoadPart.ofTree_folded (tree : SyntaxTree) :
    LoweredAlike folded (ofTree tree) (ofTree tree.folded) := by
  unfold ofTree
  rw [SyntaxTree.tag_folded, SyntaxTree.children_folded]
  cases htag : tree.tag
  case stringLiteral =>
    rw [SyntaxTree.text_folded_of_noLetters (by rw [htag]; rfl)]
    exact .ok rfl
  case targetTable =>
    match tree.children with
    | [name] =>
      refine (tableNameOfTree_folded name).map fun table table' htable => ?_
      rw [folded, folded, htable]
    | [] | _ :: _ :: _ => exact .refuseTree _ tree
  case localFlag | overwriteFlag => exact .ok rfl
  all_goals exact .refuseTag _ _

theorem Statement.loadOfTree_folded (tree : SyntaxTree) :
    LoweredAlike folded (loadOfTree tree) (loadOfTree tree.folded) := by
  unfold loadOfTree
  rw [SyntaxTree.tag_folded, SyntaxTree.children_folded]
  split
  · refine (Mirrors.mapM fun part _ => LoadPart.ofTree_folded part).bind fun ps qs hpq => ?_
    have hpath : (lastSome? LoadPart.path? ps).map id = (lastSome? LoadPart.path? qs).map id :=
      map_lastSome?_congr (fun part => by cases part <;> rfl) hpq
    have htable : (lastSome? LoadPart.table? ps).map Text.folded =
        (lastSome? LoadPart.table? qs).map Text.folded :=
      map_lastSome?_congr (fun part => by cases part <;> rfl) hpq
    rw [Option.map_id, id, id] at hpath
    rw [hpath]
    cases lastSome? LoadPart.path? qs with
    | none => exact .refuseTree _ tree
    | some path =>
      rcases map_eq_map_iff.1 htable with ⟨hnone, hnone'⟩ | ⟨name, name', hsome, hsome', hname⟩
      · simp only [hnone, hnone']
        exact .refuseTree _ tree
      · simp only [hsome, hsome']
        exact .ok (by rw [folded, folded, hname])
  · exact .error rfl

/-- A tree in lower case is lowered to the same statement up to letter case. -/
theorem Statement.ofTree_folded (tree : SyntaxTree) :
    LoweredAlike folded (ofTree tree) (ofTree tree.folded) := by
  unfold ofTree
  rw [SyntaxTree.tag_folded]
  split
  · exact (Query.ofTree_folded tree).map fun query query' hquery => by rw [folded, folded, hquery]
  · exact loadOfTree_folded tree
  · exact .error rfl

end SqlGuard
