import SqlGuard.Lowering.Statement
import SqlGuard.Proofs.Lowering.Restricted
import SqlGuard.Proofs.Messages.Trees
import SqlGuard.Proofs.Outcome
import SqlGuard.Proofs.Statement.Occurrence

/-!
# Lowering trees on one line

A tree without line breaks is refused with a message on one line, or it is lowered to a statement
whose names have no line breaks. Main statement: `Statement.onLine_ofTree`.
-/

namespace SqlGuard

/-! ### Statements -/

/-- No column in the expression has a line break in its names. -/
def Expr.IsLine (e : Expr) : Prop :=
  ∀ f ∈ e.fields, Text.IsLine f.qualifier ∧ Text.IsLine f.name

mutual

/-- No column and no table of the query, at any level, has a line break in its names. -/
inductive Query.IsLine : Query → Prop
  | intro {query : Query} (items : ∀ item ∈ query.items, item.expr.IsLine)
      (condition : ∀ e ∈ query.where?, e.IsLine) (grouping : ∀ e ∈ query.groupBy, e.IsLine)
      (tables : ∀ t ∈ query.tables, t.IsLine) : query.IsLine

/-- The same for a reference. -/
inductive TableRef.IsLine : TableRef → Prop
  | intro {t : TableRef} (source : t.source.IsLine) (on : ∀ e ∈ t.on?, e.IsLine) : t.IsLine

/-- The same for a source. -/
inductive Source.IsLine : Source → Prop
  | table {name : String} (line : Text.IsLine name) : Source.IsLine (.table name)
  | view {query : Query} (line : query.IsLine) : Source.IsLine (.view query)

end

/-- The same for a statement. -/
inductive Statement.IsLine : Statement → Prop
  | select {query : Query} (line : query.IsLine) : IsLine (.select query)
  | load {table : String} (path : String) (line : Text.IsLine table) (overwrite : Bool) :
      IsLine (.load path table overwrite)

/-! ### Refusals -/

/-- The tree is refused with a message on one line, or is lowered to an answer of some kind. -/
abbrev OnLine {α : Type} (P : α → Prop) (x : Lowered α) : Prop :=
  Meets (fun e => Text.IsLine e.message) P x

section Refusals

variable {α : Type} {P : α → Prop} {tree : SyntaxTree}

theorem LoweringError.isLine_unsupportedConstruct (place : Construct) {element : String}
    (line : Text.IsLine element) : Text.IsLine (unsupportedConstruct place element).message := by
  have hplace : Text.IsLine place.label := by cases place <;> decide
  exact ((Text.IsLine.append (by decide) hplace).append (by decide)).append line

theorem onLine_refuseTag (place : Construct) {tag : Tag} (kind : Text.IsLine tag.name) :
    OnLine P (refuseTag place tag) :=
  .error (LoweringError.isLine_unsupportedConstruct place kind)

theorem onLine_refuseTree (place : Construct) (line : tree.IsLine) :
    OnLine P (refuseTree place tree) :=
  .error (LoweringError.isLine_unsupportedConstruct place line.render)

theorem onLine_refuseOperands (place : Construct) {tag : Tag} (kind : Text.IsLine tag.name)
    (count : Nat) : OnLine P (refuseOperands place tag count) := by
  refine .error (LoweringError.isLine_unsupportedConstruct place ?_)
  exact ((kind.append (by decide)).append (Text.isLine_natToString count)).append (by decide)

end Refusals

/-- What holds of whatever is found in a list holds of what is found last. -/
theorem forall_mem_lastSome? {α β : Type} {f : α → Option β} {xs : List α} {P : β → Prop}
    (each : ∀ x ∈ xs, ∀ y ∈ f x, P y) : ∀ y ∈ lastSome? f xs, P y := by
  intro y hlast
  obtain ⟨x, hx, hy⟩ := lastSome?_eq_some hlast
  exact each x hx y hy

/-! ### Expressions -/

namespace Expr

variable {tree : SyntaxTree}

theorem isLine_ofQualified? {trees : List SyntaxTree} (each : ∀ tree ∈ trees, tree.IsLine) :
    ∀ f ∈ Field.ofQualified? trees, (field f).IsLine := by
  intro f hf
  unfold Field.ofQualified? at hf
  split at hf
  · rename_i table column
    simp only [List.forall_mem_cons] at each
    obtain ⟨htable, hcolumn, -⟩ := each
    split at hf
    · obtain ⟨qualifier, hqualifier, rfl⟩ := Option.map_eq_some_iff.1 hf
      exact List.forall_mem_singleton.2 ⟨htable.firstChildText? _ hqualifier, hcolumn.text⟩
    · cases hf
  · cases hf

theorem onLine_ofAtom (line : tree.IsLine) : OnLine IsLine (ofAtom tree) := by
  have noFields : ∀ e : Expr, e.fields = [] → e.IsLine := by
    intro e he
    rw [IsLine, he]
    exact List.forall_mem_nil _
  unfold ofAtom
  split
  · split
    · rename_i f hf
      exact .ok (isLine_ofQualified? line.each f hf)
    · exact onLine_refuseTree _ line
  · split
    · rename_i name hname
      refine .ok (List.forall_mem_singleton.2 ⟨?_, line.firstChildText? _ hname⟩)
      show Text.IsLine ""
      decide
    · exact onLine_refuseTag _ line.kind
  iterate 6 exact .ok (noFields _ rfl)
  · split
    · exact .ok (noFields _ rfl)
    · exact onLine_refuseTag _ line.kind
  · exact onLine_refuseTag _ line.kind

theorem isLine_append {e left right : Expr} (h : e.fields = left.fields ++ right.fields)
    (hleft : left.IsLine) (hright : right.IsLine) : e.IsLine := by
  rw [IsLine, h]
  exact List.forall_mem_append.2 ⟨hleft, hright⟩

theorem onLine_ofTree (tree : SyntaxTree) (line : tree.IsLine) : OnLine IsLine (ofTree tree) := by
  induction tree using ofTree.induct with
  | case1 op text left right ihl ihr =>
    have each := line.each
    simp only [SyntaxTree.children, List.forall_mem_cons] at each
    rw [ofTree]
    exact (ihl each.1).bind fun l hl => (ihr each.2.1).bind fun r hr =>
      .ok (isLine_append rfl hl hr)
  | case2 op text operands hcount =>
    rw [ofTree]
    · exact onLine_refuseOperands _ line.kind _
    · exact hcount
  | case3 tree hpair harith =>
    rw [ofTree]
    · exact onLine_ofAtom line
    · exact hpair
    · exact harith

theorem onLine_ofComparison (op : CompareOp) {operands : List SyntaxTree}
    (each : ∀ operand ∈ operands, operand.IsLine) : OnLine IsLine (ofComparison op operands) := by
  unfold ofComparison
  split
  · simp only [List.forall_mem_cons] at each
    exact (onLine_ofTree _ each.1).bind fun l hl => (onLine_ofTree _ each.2.1).bind fun r hr =>
      .ok (isLine_append rfl hl hr)
  · exact onLine_refuseOperands _ (by cases op <;> decide) _

theorem onLine_ofPredicateAt (place : Construct) (line : tree.IsLine) :
    OnLine IsLine (ofPredicateAt place tree) := by
  unfold ofPredicateAt
  split
  · exact onLine_ofComparison _ line.each
  · exact onLine_refuseTag _ line.kind

theorem onLine_ofGrouping (line : tree.IsLine) : OnLine IsLine (ofGrouping tree) := by
  unfold ofGrouping
  split
  · exact onLine_ofTree tree line
  · exact onLine_refuseTag _ line.kind

end Expr

/-! ### Clauses -/

theorem SelectItem.onLine_ofTree {tree : SyntaxTree} (line : tree.IsLine) :
    OnLine (fun item => item.expr.IsLine) (ofTree tree) := by
  unfold ofTree
  split
  · have hparts : OnLine (fun parts => ∀ part ∈ parts, ∀ e ∈ part.expr?, e.IsLine)
        (tree.children.mapM ItemPart.ofTree) := by
      refine Meets.mapM fun child hchild => ?_
      unfold ItemPart.ofTree
      split
      · exact .ok nofun
      · refine (Expr.onLine_ofTree child (line.each child hchild)).map fun e he e' hpart => ?_
        cases hpart
        exact he
    refine hparts.bind fun parts hexprs => ?_
    split
    · rename_i e hlast
      exact .ok (forall_mem_lastSome? hexprs e hlast)
    · exact onLine_refuseTree _ line
  · exact onLine_refuseTag _ line.kind

/-- No column in the clause has a line break in its names. -/
structure Clause.IsLine (clause : Clause) : Prop where
  items : ∀ items ∈ clause.items?, ∀ item ∈ items, item.expr.IsLine
  condition : ∀ predicate? ∈ clause.condition?, ∀ e ∈ predicate?, e.IsLine
  grouping : ∀ es ∈ clause.grouping?, ∀ e ∈ es, e.IsLine

theorem Clause.onLine_ofTree {tree : SyntaxTree} (line : tree.IsLine) :
    OnLine IsLine (ofTree tree) := by
  unfold ofTree
  split
  · refine (Meets.mapM fun child hchild => SelectItem.onLine_ofTree (line.each child hchild)).map
      fun items hitems => ⟨?_, nofun, nofun⟩
    intro _ hsome
    cases hsome
    exact hitems
  · refine (Meets.mapM fun child hchild =>
      Expr.onLine_ofPredicateAt .whereClause (line.each child hchild)).bind
      fun es hes => .ok ⟨nofun, ?_, nofun⟩
    intro _ hsome e he
    cases hsome
    exact hes e (List.mem_of_getLast? he)
  · refine (Meets.mapM fun child hchild => Expr.onLine_ofGrouping (line.each child hchild)).map
      fun es hes => ⟨nofun, nofun, ?_⟩
    intro _ hsome
    cases hsome
    exact hes
  · exact .ok ⟨nofun, nofun, nofun⟩
  · exact onLine_refuseTag _ line.kind

/-- No column in the selection has a line break in its names. -/
structure Selection.IsLine (selection : Selection) : Prop where
  items : ∀ item ∈ selection.items, item.expr.IsLine
  condition : ∀ e ∈ selection.where?, e.IsLine
  grouping : ∀ e ∈ selection.groupBy, e.IsLine

theorem Selection.onLine_ofTrees {trees : List SyntaxTree} (each : ∀ tree ∈ trees, tree.IsLine) :
    OnLine IsLine (ofTrees trees) := by
  refine (Meets.mapM fun tree htree => Clause.onLine_ofTree (each tree htree)).map
    fun clauses hclauses => ⟨?_, ?_, ?_⟩
  · exact forall_mem_getD_lastSome? fun clause h => (hclauses clause h).items
  · intro e he
    have hlast := Option.join_eq_some_iff.1 he
    exact forall_mem_lastSome? (fun clause h => (hclauses clause h).condition) _ hlast e rfl
  · exact forall_mem_getD_lastSome? fun clause h => (hclauses clause h).grouping

/-! ### Chains of references -/

theorem TableRef.IsLine.moved {t : TableRef} (h : t.IsLine) (n : Nat) : (t.moved n).IsLine := by
  obtain ⟨source, alias?, join?⟩ := t
  cases h with
  | intro hsource hon => cases join? <;> exact .intro hsource hon

/-- No name in the chain has a line break. -/
def TableChain.IsLine (chain : TableChain) : Prop := ∀ t ∈ chain, t.IsLine

namespace TableChain

theorem IsLine.followedBy {chain more : TableChain} (h : chain.IsLine) (hmore : more.IsLine) :
    (followedBy chain more).IsLine := by
  refine List.forall_mem_append.2 ⟨h, fun t ht => ?_⟩
  obtain ⟨u, hu, rfl⟩ := List.mem_map.1 ht
  exact (hmore u hu).moved _

theorem isLine_concat {chains : List TableChain} (each : ∀ chain ∈ chains, chain.IsLine) :
    (concat chains).IsLine := by
  have hfrom : ∀ before : TableChain, before.IsLine →
      IsLine (chains.foldl TableChain.followedBy before) := by
    induction chains with
    | nil => exact fun _ => id
    | cons chain chains ih =>
      rw [List.forall_mem_cons] at each
      exact fun before h => ih each.2 _ (h.followedBy each.1)
  exact hfrom [] (List.forall_mem_nil _)

theorem IsLine.joinLast {chain : TableChain} (h : chain.IsLine) (op : JoinOp) {on? : Option Expr}
    (hon : ∀ e ∈ on?, e.IsLine) : (joinLast op on? chain).IsLine := by
  unfold TableChain.joinLast
  split
  · rename_i last hlast
    refine List.forall_mem_append.2 ⟨fun t ht => h t (List.mem_of_mem_dropLast ht), ?_⟩
    refine List.forall_mem_singleton.2 ?_
    cases h last (List.mem_of_getLast? hlast) with
    | intro hsource _ => exact .intro hsource hon
  · exact List.forall_mem_nil _

end TableChain

/-- No name in the part has a line break. -/
structure JoinPart.IsLine (part : JoinPart) : Prop where
  tables : ∀ chain ∈ part.tables?, chain.IsLine
  condition : ∀ e ∈ part.condition?, e.IsLine

theorem JoinPart.onLine_ofTree {tree : SyntaxTree} (line : tree.IsLine) {side : Lowered TableChain}
    (hside : OnLine TableChain.IsLine side) : OnLine IsLine (ofTree tree side) := by
  unfold ofTree
  split
  · refine (Expr.onLine_ofComparison .eq line.each).map fun e he => ⟨nofun, ?_⟩
    intro _ hsome
    cases hsome
    exact he
  · refine .error ?_
    exact (Text.IsLine.append (by decide) line.render).append (by decide)
  · refine hside.map fun chain hchain => ⟨?_, nofun⟩
    intro _ hsome
    cases hsome
    exact hchain

theorem TableChain.onLine_ofJoinParts (op : JoinOp) {parts : List JoinPart}
    (each : ∀ part ∈ parts, part.IsLine) : OnLine IsLine (ofJoinParts op parts) := by
  unfold ofJoinParts
  dsimp only
  split
  · refine .error ?_
    exact Text.IsLine.append (by decide) (Text.isLine_natToString _)
  · refine .ok (IsLine.joinLast (isLine_concat fun chain hchain => ?_) op ?_)
    · obtain ⟨part, hpart, htables⟩ := List.mem_filterMap.1 hchain
      exact (each part hpart).tables chain htables
    · exact forall_mem_lastSome? fun part hpart => (each part hpart).condition

/-! ### References and queries -/

theorem onLine_tableNameOfTree {tree : SyntaxTree} (line : tree.IsLine) :
    OnLine Text.IsLine (tableNameOfTree tree) := by
  unfold tableNameOfTree
  split
  · rename_i name _ hchildren
    have each := line.each
    rw [hchildren, List.forall_mem_singleton] at each
    exact .ok each.text
  · exact onLine_refuseTree _ line

theorem TableRef.onLine_ofBaseTree {tree : SyntaxTree} (line : tree.IsLine) :
    OnLine IsLine (ofBaseTree tree) := by
  have hparts : OnLine (fun parts => ∀ part ∈ parts, ∀ name ∈ part.table?, Text.IsLine name)
      (tree.children.mapM BasePart.ofTree) := by
    refine Meets.mapM fun child hchild => ?_
    unfold BasePart.ofTree
    split
    · refine (onLine_tableNameOfTree (line.each child hchild)).map fun name hname _ hsome => ?_
      cases hsome
      exact hname
    · exact .ok nofun
    · exact onLine_refuseTag _ (line.each child hchild).kind
  refine hparts.bind fun parts htables => ?_
  split
  · rename_i name hlast
    exact .ok (.intro (.table (forall_mem_lastSome? htables name hlast)) nofun)
  · exact onLine_refuseTree _ line

theorem TableRef.onLine_ofViewParts {tree : SyntaxTree} (line : tree.IsLine)
    {parts : List ViewPart} (each : ∀ part ∈ parts, ∀ query ∈ part.query?, query.IsLine) :
    OnLine IsLine (ofViewParts tree parts) := by
  unfold ofViewParts
  split
  · rename_i query hlast
    exact .ok (.intro (.view (forall_mem_lastSome? each query hlast)) nofun)
  · exact onLine_refuseTree _ line

/-- No name in the part has a line break. -/
structure QueryPart.IsLine (part : QueryPart) : Prop where
  tables : ∀ chain ∈ part.tables?, chain.IsLine
  selection : ∀ selection ∈ part.selection?, selection.IsLine

theorem Query.onLine_ofParts {parts : List QueryPart} (each : ∀ part ∈ parts, part.IsLine) :
    OnLine IsLine (ofParts parts) := by
  unfold ofParts
  split
  · rename_i items where? groupBy hlast
    have hselection := forall_mem_lastSome? (fun part h => (each part h).selection) _ hlast
    have htables := forall_mem_getD_lastSome? fun part h => (each part h).tables
    exact .ok (.intro hselection.items hselection.condition hselection.grouping htables)
  · exact .error (by decide)

mutual

theorem onLine_queryParts : ∀ trees : List SyntaxTree, (∀ tree ∈ trees, tree.IsLine) →
    OnLine (fun parts => ∀ part ∈ parts, part.IsLine) (queryParts trees)
  | [], _ => by
    rw [queryParts]
    exact .ok (List.forall_mem_nil _)
  | tree :: trees, each => by
    rw [List.forall_mem_cons] at each
    rw [queryParts]
    refine (onLine_queryPart tree each.1).bind fun part hpart =>
      (onLine_queryParts trees each.2).bind fun parts hparts => .ok ?_
    exact List.forall_mem_cons.2 ⟨hpart, hparts⟩

theorem onLine_queryPart : ∀ tree : SyntaxTree, tree.IsLine →
    OnLine QueryPart.IsLine (queryPart tree)
  | .mk tag text children, line => by
    cases tag with
    | fromClause =>
      rw [queryPart]
      refine (onLine_fromElements children line.each).bind fun chains hchains => .ok ⟨?_, nofun⟩
      intro _ hsome
      cases hsome
      exact TableChain.isLine_concat hchains
    | insertClause =>
      rw [queryPart]
      refine (Selection.onLine_ofTrees line.each).map fun selection hselection => ⟨nofun, ?_⟩
      intro _ hsome
      cases hsome
      exact hselection
    | _ => exact onLine_refuseTag _ line.kind

theorem onLine_fromElements : ∀ trees : List SyntaxTree, (∀ tree ∈ trees, tree.IsLine) →
    OnLine (fun chains => ∀ chain ∈ chains, chain.IsLine) (fromElements trees)
  | [], _ => by
    rw [fromElements]
    exact .ok (List.forall_mem_nil _)
  | tree :: trees, each => by
    rw [List.forall_mem_cons] at each
    rw [fromElements]
    refine (onLine_tablesAt .fromClause tree each.1).bind fun chain hchain =>
      (onLine_fromElements trees each.2).bind fun chains hchains => .ok ?_
    exact List.forall_mem_cons.2 ⟨hchain, hchains⟩

theorem onLine_tablesAt (place : Construct) : ∀ tree : SyntaxTree, tree.IsLine →
    OnLine TableChain.IsLine (tablesAt place tree)
  | .mk tag text children, line => by
    cases tag with
    | join op =>
      rw [tablesAt]
      exact (onLine_joinParts children line.each).bind fun parts hparts =>
        TableChain.onLine_ofJoinParts op hparts
    | tableRef =>
      rw [tablesAt]
      exact (TableRef.onLine_ofBaseTree line).bind fun t ht =>
        .ok (List.forall_mem_singleton.2 ht)
    | subquery =>
      rw [tablesAt]
      refine (onLine_viewParts children line.each).bind fun parts hparts =>
        (TableRef.onLine_ofViewParts line hparts).bind fun t ht => ?_
      exact .ok (List.forall_mem_singleton.2 ht)
    | _ => exact onLine_refuseTag _ line.kind

theorem onLine_joinParts : ∀ trees : List SyntaxTree, (∀ tree ∈ trees, tree.IsLine) →
    OnLine (fun parts => ∀ part ∈ parts, part.IsLine) (joinParts trees)
  | [], _ => by
    rw [joinParts]
    exact .ok (List.forall_mem_nil _)
  | tree :: trees, each => by
    rw [List.forall_mem_cons] at each
    rw [joinParts]
    have hside := onLine_tablesAt .join tree each.1
    refine (JoinPart.onLine_ofTree each.1 hside).bind fun part hpart =>
      (onLine_joinParts trees each.2).bind fun parts hparts => .ok ?_
    exact List.forall_mem_cons.2 ⟨hpart, hparts⟩

theorem onLine_viewParts : ∀ trees : List SyntaxTree, (∀ tree ∈ trees, tree.IsLine) →
    OnLine (fun parts => ∀ part ∈ parts, ∀ query ∈ part.query?, query.IsLine) (viewParts trees)
  | [], _ => by
    rw [viewParts]
    exact .ok (List.forall_mem_nil _)
  | tree :: trees, each => by
    rw [List.forall_mem_cons] at each
    rw [viewParts]
    refine (onLine_viewPart tree each.1).bind fun part hpart =>
      (onLine_viewParts trees each.2).bind fun parts hparts => .ok ?_
    exact List.forall_mem_cons.2 ⟨hpart, hparts⟩

theorem onLine_viewPart : ∀ tree : SyntaxTree, tree.IsLine →
    OnLine (fun part => ∀ query ∈ part.query?, query.IsLine) (viewPart tree)
  | .mk tag text children, line => by
    cases tag with
    | query =>
      rw [viewPart]
      refine ((onLine_queryParts children line.each).bind fun _ hparts =>
        Query.onLine_ofParts hparts).map fun query hquery _ hsome => ?_
      cases hsome
      exact hquery
    | identifier => exact .ok nofun
    | _ => exact onLine_refuseTag _ line.kind

end

theorem Query.onLine_ofTree {tree : SyntaxTree} (line : tree.IsLine) :
    OnLine IsLine (ofTree tree) := by
  unfold ofTree
  split
  · exact (onLine_queryParts tree.children line.each).bind fun _ hparts => onLine_ofParts hparts
  · exact .error (Text.IsLine.append (by decide) line.kind)

/-! ### Statements -/

namespace Statement

theorem onLine_loadOfTree {tree : SyntaxTree} (line : tree.IsLine) :
    OnLine IsLine (loadOfTree tree) := by
  unfold loadOfTree
  split
  · have hparts : OnLine (fun parts => ∀ part ∈ parts, ∀ name ∈ part.table?, Text.IsLine name)
        (tree.children.mapM LoadPart.ofTree) := by
      refine Meets.mapM fun child hchild => ?_
      have lineChild := line.each child hchild
      unfold LoadPart.ofTree
      split
      · exact .ok nofun
      · split
        · rename_i name hname
          have each := lineChild.each
          rw [hname, List.forall_mem_singleton] at each
          refine (onLine_tableNameOfTree each).map fun table htable _ hsome => ?_
          cases hsome
          exact htable
        · exact onLine_refuseTree _ lineChild
      · exact .ok nofun
      · exact .ok nofun
      · exact onLine_refuseTag _ lineChild.kind
    refine hparts.bind fun parts htables => ?_
    split
    · rename_i path table _ hlast
      exact .ok (.load path (forall_mem_lastSome? htables table hlast) true)
    · exact onLine_refuseTree _ line
  · exact .error (Text.IsLine.append (by decide) line.kind)

/-- A tree without line breaks is refused with a message on one line, or lowered to a statement
    whose names have no line breaks. -/
theorem onLine_ofTree {tree : SyntaxTree} (line : tree.IsLine) : OnLine IsLine (ofTree tree) := by
  unfold ofTree
  split
  · exact (Query.onLine_ofTree line).map fun query hquery => .select hquery
  · exact onLine_loadOfTree line
  · exact .error (Text.IsLine.append (by decide) line.kind)

end Statement

end SqlGuard
