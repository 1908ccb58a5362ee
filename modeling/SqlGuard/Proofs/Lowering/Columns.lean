import SqlGuard.Grammar.Query
import SqlGuard.Lowering.Tables
import SqlGuard.Proofs.Lowering.Replaced
import SqlGuard.Proofs.Statement.Occurrence

/-!
# Columns of a selection

Which columns of the clauses of a query are references of the query it is lowered to. A query has
room for one selection, a selection for one clause of each kind, WHERE for one predicate and an item
for one expression; of several the last one takes the place of the others. Main statement:
`Query.mentionsAll_iff`, no column is lost if and only if those that are replaced are mentioned
elsewhere.
-/

namespace SqlGuard

namespace SyntaxTree

/-- The column that a tree names. -/
inductive Names : SyntaxTree → Field → Prop
  | column {text : String} {name : SyntaxTree} {more : List SyntaxTree} :
      Names (.mk .column text (name :: more)) (.unresolved "" name.text)
  | qualified {text under : String} {qualifier name : SyntaxTree} {more : List SyntaxTree}
      (isName : name.tag = .identifier) :
      Names (.mk .qualified text [.mk .column under (qualifier :: more), name])
        (.unresolved qualifier.text name.text)

theorem names_columnNode {name : String} {f : Field} :
    (Grammar.columnNode name).Names f ↔ f = .unresolved "" name := by
  constructor
  · rintro ⟨⟩
    rfl
  · rintro rfl
    exact .column

mutual

/-- The columns of a tree that are reached through items, comparisons and arithmetic. -/
def columns : SyntaxTree → List SyntaxTree
  | .mk .column text children => [.mk .column text children]
  | .mk .qualified text children => [.mk .qualified text children]
  | .mk .selectItem _ children => columnsAmong children
  | .mk (.compare _) _ children => columnsAmong children
  | .mk (.arith _) _ children => columnsAmong children
  | _ => []

/-- The columns of trees. -/
def columnsAmong : List SyntaxTree → List SyntaxTree
  | [] => []
  | t :: ts => t.columns ++ columnsAmong ts

end

/-- The clauses of a selection that hold expressions. -/
def selectionTags : List Tag := [.selectClause, .whereClause, .groupByClause]

/-- The columns in the clauses of a query. -/
def queryColumns (query : SyntaxTree) : List SyntaxTree :=
  (query.children.filter (·.tag == .insertClause)).flatMap fun insert =>
    (insert.children.filter (selectionTags.contains ·.tag)).flatMap fun clause =>
      columnsAmong clause.children

/-! ### Which of them are replaced -/

/-- The parts of an item that say what is selected. -/
def itemParts : SyntaxTree → List (Piece SyntaxTree)
  | .mk .selectItem _ children => Piece.lastOf (·.tag != .identifier) children
  | tree => Piece.each [tree]

/-- The parts of a clause that its expressions are made of. -/
def clauseParts (clause : SyntaxTree) : List (Piece SyntaxTree) :=
  match clause.tag with
  | .selectClause => Piece.within (Piece.each clause.children) itemParts
  | .whereClause => Piece.lastOf (fun _ => true) clause.children
  | _ => Piece.each clause.children

/-- The columns of a clause. -/
def clausePieces (clause : SyntaxTree) : List (Piece SyntaxTree) :=
  Piece.within clause.clauseParts fun part => Piece.each part.columns

/-- The columns in the clauses of one kind. -/
def piecesIn (insert : SyntaxTree) (kind : Tag) : List (Piece SyntaxTree) :=
  Piece.within (Piece.lastOf (·.tag == kind) insert.children) clausePieces

/-- The columns in the clauses of a query, each with whether its selection, its clause or the part
    that it stands in is replaced. -/
def columnPieces (query : SyntaxTree) : List (Piece SyntaxTree) :=
  Piece.within (Piece.lastOf (·.tag == .insertClause) query.children) fun insert =>
    selectionTags.flatMap insert.piecesIn

theorem columnsAmong_eq (trees : List SyntaxTree) : columnsAmong trees = trees.flatMap columns := by
  induction trees with
  | nil => rw [columnsAmong, List.flatMap_nil]
  | cons t ts ih => rw [columnsAmong, List.flatMap_cons, ih]

theorem columns_eq_nil_of_identifier {tree : SyntaxTree} (h : tree.tag = .identifier) :
    tree.columns = [] := by
  obtain ⟨tag, text, children⟩ := tree
  cases h
  rfl

theorem flatMap_columns_itemParts (item : SyntaxTree) :
    (item.itemParts.map Piece.val).flatMap columns = item.columns := by
  unfold itemParts
  split
  case h_1 text children =>
    rw [Piece.vals_lastOf, columns, columnsAmong_eq]
    induction children with
    | nil => rfl
    | cons child children ih =>
      rw [List.flatMap_cons, ← ih]
      by_cases hname : child.tag = .identifier
      · rw [List.filter_cons_of_neg (by simp [hname]), columns_eq_nil_of_identifier hname]
        rfl
      · rw [List.filter_cons_of_pos (by simp [hname]), List.flatMap_cons]
  case h_2 => rw [Piece.vals_each, List.flatMap_singleton]

/-- The parts of a clause hold all of its columns. -/
theorem vals_clausePieces (clause : SyntaxTree) :
    clause.clausePieces.map Piece.val = columnsAmong clause.children := by
  simp only [clausePieces, Piece.vals_within, Piece.vals_each, columnsAmong_eq]
  unfold clauseParts
  split
  · rw [Piece.vals_within, Piece.vals_each, List.flatMap_assoc]
    simp only [flatMap_columns_itemParts]
  · rw [Piece.vals_lastOf, List.filter_true]
  · rw [Piece.vals_each]

/-- Every column in the clauses of a query is either replaced or stays. -/
theorem mem_queryColumns {query node : SyntaxTree} :
    node ∈ query.queryColumns ↔ ∃ p ∈ query.columnPieces, p.val = node := by
  rw [← List.mem_map]
  simp only [columnPieces, piecesIn, queryColumns, Piece.vals_within, Piece.vals_lastOf,
    List.map_flatMap, vals_clausePieces, List.mem_flatMap, List.mem_filter, beq_iff_eq,
    List.contains_iff_mem]
  constructor
  · rintro ⟨insert, hinsert, clause, ⟨hclause, hkind⟩, hnode⟩
    exact ⟨insert, hinsert, clause.tag, hkind, clause, ⟨hclause, rfl⟩, hnode⟩
  · rintro ⟨insert, hinsert, kind, hkind, clause, ⟨hclause, rfl⟩, hnode⟩
    exact ⟨insert, hinsert, clause, ⟨hclause, hkind⟩, hnode⟩

end SyntaxTree

/-! ### References of a selection -/

/-- The references in a selection, in the order of its clauses. -/
def Selection.fields (selection : Selection) : List Field :=
  selection.items.flatMap (·.expr.fields) ++ selection.where?.toList.flatMap Expr.fields ++
    selection.groupBy.flatMap Expr.fields

namespace Query

/-- The references in what a query selects from its tables. -/
def selectionFields (query : Query) : List Field :=
  Selection.fields { items := query.items, where? := query.where?, groupBy := query.groupBy }

/-- The field is a reference of the query or of a query nested in it. -/
def Mentions (query : Query) (f : Field) : Prop :=
  ∃ inner e n, query.Contains inner ∧ inner.Holds e n ∧ f ∈ e.fields

/-- Each of the columns is named by a reference of the query. -/
def MentionsAll (query : Query) (nodes : List SyntaxTree) : Prop :=
  ∀ node ∈ nodes, ∃ f, query.Mentions f ∧ node.Names f

theorem mentions_of_mem_selectionFields {query : Query} {f : Field}
    (h : f ∈ query.selectionFields) : query.Mentions f := by
  simp only [selectionFields, Selection.fields, List.mem_append, List.mem_flatMap,
    Option.mem_toList] at h
  rcases h with (⟨item, hitem, hf⟩ | ⟨e, he, hf⟩) | ⟨e, he, hf⟩
  · exact ⟨query, _, _, .self query, .item hitem, hf⟩
  · exact ⟨query, _, _, .self query, .condition he, hf⟩
  · exact ⟨query, _, _, .self query, .grouping he, hf⟩

end Query

/-! ### What lowering keeps -/

open SyntaxTree

/-- The fields are the columns, in order. -/
abbrev Stated (nodes : List SyntaxTree) (fields : List Field) : Prop :=
  List.Forall₂ Names nodes fields

theorem Field.names_ofQualified? {text : String} {children : List SyntaxTree} {f : Field}
    (h : Field.ofQualified? children = some f) : Names (.mk .qualified text children) f := by
  unfold Field.ofQualified? at h
  split at h
  case h_1 table column =>
    split at h
    · rename_i htags
      obtain ⟨tag, under, names⟩ := table
      obtain ⟨rfl, isName⟩ := htags
      cases names with
      | nil => cases h
      | cons name more =>
        cases h
        exact .qualified isName
    · cases h
  case h_2 => cases h

namespace Expr

theorem stated_ofAtom {tree : SyntaxTree} {e : Expr} (h : ofAtom tree = .ok e) :
    Stated tree.columns e.fields := by
  obtain ⟨tag, text, children⟩ := tree
  unfold ofAtom at h
  cases tag with
  | qualified =>
    dsimp only [SyntaxTree.tag, SyntaxTree.children] at h
    split at h
    · rename_i f hf
      cases h
      exact .cons (Field.names_ofQualified? hf) .nil
    · cases h
  | column =>
    cases children with
    | nil => cases h
    | cons name more =>
      cases h
      exact .cons .column .nil
  | starCall =>
    cases children with
    | nil => cases h
    | cons name more =>
      cases h
      exact .nil
  | number | bigintLiteral | smallintLiteral | tinyintLiteral | decimalLiteral | stringLiteral =>
    cases h
    exact .nil
  | _ => cases h

/-- The references of an operand are the columns of its tree, from left to right. -/
theorem stated_ofTree (tree : SyntaxTree) {e : Expr} (h : ofTree tree = .ok e) :
    Stated tree.columns e.fields := by
  induction tree using ofTree.induct generalizing e with
  | case1 op text left right ihl ihr =>
    simp only [ofTree, bind_eq_ok, pure_eq_ok] at h
    obtain ⟨l, hl, r, hr, rfl⟩ := h
    rw [columns, columnsAmong, columnsAmong, columnsAmong, List.append_nil]
    exact List.rel_append (ihl hl) (ihr hr)
  | case2 op text operands hcount =>
    rw [ofTree] at h
    · cases h
    · exact hcount
  | case3 tree hpair harith =>
    rw [ofTree] at h
    · exact stated_ofAtom h
    · exact hpair
    · exact harith

theorem stated_ofPredicateAt {place : Construct} {tree : SyntaxTree} {e : Expr}
    (h : ofPredicateAt place tree = .ok e) : Stated tree.columns e.fields := by
  obtain ⟨tag, text, children⟩ := tree
  unfold ofPredicateAt at h
  cases tag with
  | compare op =>
    dsimp only [SyntaxTree.tag, SyntaxTree.children] at h
    unfold ofComparison at h
    split at h
    · simp only [bind_eq_ok, pure_eq_ok] at h
      obtain ⟨l, hl, r, hr, rfl⟩ := h
      rw [columns, columnsAmong, columnsAmong, columnsAmong, List.append_nil]
      exact List.rel_append (stated_ofTree _ hl) (stated_ofTree _ hr)
    · cases h
  | _ => cases h

theorem stated_ofGrouping {tree : SyntaxTree} {e : Expr} (h : ofGrouping tree = .ok e) :
    Stated tree.columns e.fields := by
  unfold ofGrouping at h
  split at h
  · exact stated_ofTree tree h
  · cases h

end Expr

theorem Stated.flatMap {α β : Type} {xs : List α} {ys : List β} {nodes : α → List SyntaxTree}
    {fields : β → List Field}
    (h : List.Forall₂ (fun x y => Stated (nodes x) (fields y)) xs ys) :
    Stated (xs.flatMap nodes) (ys.flatMap fields) :=
  List.rel_flatMap h fun _ _ hxy => hxy

/-- What is found last in a list stands for the last part of the kind that it is found in. -/
theorem Piece.forall₂_lastOf {α β γ : Type} {R : α → β → Prop} {S : α → γ → Prop} {kind : α → Bool}
    {f : β → Option γ} {xs : List α} {ys : List β} (h : List.Forall₂ R xs ys)
    (found : ∀ x y, R x y → Option.Rel S (if kind x then some x else none) (f y)) :
    List.Forall₂ S (kept (lastOf kind xs)) (lastSome? f ys).toList := by
  have hkind := List.rel_filterMap (fun x y hxy => found x y hxy) h
  have hfilter : xs.filterMap (fun x => if kind x then some x else none) = xs.filter kind :=
    congrFun (List.filterMap_eq_filter (p := kind)) xs
  rw [hfilter] at hkind
  have hlast := List.rel_reverse hkind
  rw [kept_lastOf, lastSome?, List.getLast?_eq_head?_reverse, List.getLast?_eq_head?_reverse]
  generalize (xs.filter kind).reverse = before at hlast
  generalize (ys.filterMap f).reverse = after at hlast
  cases hlast with
  | nil => exact .nil
  | cons hxy _ => exact .cons hxy .nil

open Piece

theorem kept_columns (ps : List (Piece SyntaxTree)) :
    kept (within ps fun part => each part.columns) = (kept ps).flatMap columns := by
  simp only [kept_within, kept_each]

theorem SelectItem.stated_ofTree {tree : SyntaxTree} {item : SelectItem}
    (h : SelectItem.ofTree tree = .ok item) :
    Stated ((kept tree.itemParts).flatMap columns) item.expr.fields := by
  obtain ⟨tag, text, children⟩ := tree
  unfold SelectItem.ofTree at h
  split at h
  case isTrue htag =>
    cases htag
    rw [bind_eq_ok] at h
    obtain ⟨parts, hparts, h⟩ := h
    have hlast : List.Forall₂ (fun (tree : SyntaxTree) e => Stated tree.columns e.fields)
        (kept (lastOf (·.tag != .identifier) children))
        (lastSome? ItemPart.expr? parts).toList := by
      refine forall₂_lastOf (mapM_eq_ok.1 hparts) fun child part hpart => ?_
      unfold ItemPart.ofTree at hpart
      split at hpart
      · rename_i hname
        cases hpart
        rw [if_neg (by simp [hname])]
        exact .none
      · rename_i hname
        rw [map_eq_ok] at hpart
        obtain ⟨e, he, rfl⟩ := hpart
        rw [if_pos (by simp [hname])]
        exact .some (Expr.stated_ofTree child he)
    split at h
    · rename_i e he
      cases h
      rw [he] at hlast
      have hitem := Stated.flatMap hlast
      rwa [Option.toList_some, List.flatMap_singleton] at hitem
    · cases h
  case isFalse => cases h

/-- The references of a clause are the columns of the parts that stay. -/
def ClauseStated {α : Type} (fields : α → List Field) (clause : SyntaxTree) (lowered : α) : Prop :=
  Stated (kept clause.clausePieces) (fields lowered)

theorem Clause.stated_items {children : List SyntaxTree} {text : String} {items : List SelectItem}
    (h : children.mapM SelectItem.ofTree = .ok items) :
    ClauseStated (List.flatMap (·.expr.fields)) (.mk .selectClause text children) items := by
  have hitems := (mapM_eq_ok.1 h).imp fun tree item => SelectItem.stated_ofTree
  rw [ClauseStated, clausePieces, kept_columns, clauseParts]
  dsimp only [SyntaxTree.tag, SyntaxTree.children]
  rw [kept_within, kept_each, List.flatMap_assoc]
  exact Stated.flatMap hitems

theorem Clause.stated_condition {children : List SyntaxTree} {text : String} {es : List Expr}
    (h : children.mapM (Expr.ofPredicateAt .whereClause) = .ok es) :
    ClauseStated (List.flatMap Expr.fields ∘ Option.toList) (.mk .whereClause text children)
      es.getLast? := by
  have hlast : List.Forall₂ (fun (tree : SyntaxTree) e => Stated tree.columns e.fields)
      (kept (lastOf (fun _ => true) children)) (lastSome? some es).toList :=
    forall₂_lastOf (mapM_eq_ok.1 h) fun tree e he => .some (Expr.stated_ofPredicateAt he)
  rw [lastSome?, List.filterMap_some] at hlast
  rw [ClauseStated, clausePieces, kept_columns]
  exact Stated.flatMap hlast

theorem Clause.stated_grouping {children : List SyntaxTree} {text : String} {es : List Expr}
    (h : children.mapM Expr.ofGrouping = .ok es) :
    ClauseStated (List.flatMap Expr.fields) (.mk .groupByClause text children) es := by
  have hes := (mapM_eq_ok.1 h).imp fun tree e => Expr.stated_ofGrouping
  rw [ClauseStated, clausePieces, kept_columns, clauseParts]
  dsimp only [SyntaxTree.tag, SyntaxTree.children]
  rw [kept_each]
  exact Stated.flatMap hes

/-- What a clause says of its kind is what the columns of its tree are. -/
structure Clause.StatedBy (tree : SyntaxTree) (clause : Clause) : Prop where
  items : Option.Rel (ClauseStated (List.flatMap (·.expr.fields)))
    (if tree.tag == .selectClause then some tree else none) clause.items?
  condition : Option.Rel (ClauseStated (List.flatMap Expr.fields ∘ Option.toList))
    (if tree.tag == .whereClause then some tree else none) clause.condition?
  grouping : Option.Rel (ClauseStated (List.flatMap Expr.fields))
    (if tree.tag == .groupByClause then some tree else none) clause.grouping?

theorem Clause.statedBy_ofTree {tree : SyntaxTree} {clause : Clause}
    (h : Clause.ofTree tree = .ok clause) : Clause.StatedBy tree clause := by
  obtain ⟨tag, text, children⟩ := tree
  cases tag with
  | selectClause =>
    obtain ⟨items, hitems, rfl⟩ := map_eq_ok.1 h
    exact ⟨.some (Clause.stated_items hitems), .none, .none⟩
  | whereClause =>
    obtain ⟨es, hes, h⟩ := bind_eq_ok.1 h
    cases h
    exact ⟨.none, .some (Clause.stated_condition hes), .none⟩
  | groupByClause =>
    obtain ⟨es, hes, rfl⟩ := map_eq_ok.1 h
    exact ⟨.none, .none, .some (Clause.stated_grouping hes)⟩
  | destination =>
    cases h
    exact ⟨.none, .none, .none⟩
  | _ => cases h

/-- The last clause of a kind has the columns of the clauses of that kind that stay. -/
theorem stated_piecesIn {α : Type} {kind : Tag} {f : Clause → Option α} {fields : α → List Field}
    {insert : SyntaxTree} {clauses : List Clause}
    (lowered : List.Forall₂ Clause.StatedBy insert.children clauses)
    (found : ∀ tree clause, Clause.StatedBy tree clause →
      Option.Rel (ClauseStated fields) (if tree.tag == kind then some tree else none) (f clause)) :
    Stated (kept (insert.piecesIn kind)) ((lastSome? f clauses).toList.flatMap fields) := by
  rw [piecesIn, kept_within]
  exact Stated.flatMap (forall₂_lastOf lowered found)

/-- The columns of a selection. -/
def SelectionStated (insert : SyntaxTree) (selection : Selection) : Prop :=
  Stated (kept (selectionTags.flatMap insert.piecesIn)) selection.fields

theorem Selection.stated_ofTrees {text : String} {trees : List SyntaxTree} {selection : Selection}
    (h : Selection.ofTrees trees = .ok selection) :
    SelectionStated (.mk .insertClause text trees) selection := by
  obtain ⟨clauses, hclauses, rfl⟩ := map_eq_ok.1 h
  have lowered : List.Forall₂ Clause.StatedBy (SyntaxTree.mk .insertClause text trees).children
      clauses := (mapM_eq_ok.1 hclauses).imp fun tree clause => Clause.statedBy_ofTree
  have hitems : (Selection.ofClauses clauses).items.flatMap (·.expr.fields) =
      (lastSome? Clause.items? clauses).toList.flatMap (List.flatMap (·.expr.fields)) := by
    cases hlast : lastSome? Clause.items? clauses <;> simp [Selection.ofClauses, hlast]
  have hwhere : (Selection.ofClauses clauses).where?.toList.flatMap Expr.fields =
      (lastSome? Clause.condition? clauses).toList.flatMap
        (List.flatMap Expr.fields ∘ Option.toList) := by
    cases hlast : lastSome? Clause.condition? clauses <;> simp [Selection.ofClauses, hlast]
  have hgroup : (Selection.ofClauses clauses).groupBy.flatMap Expr.fields =
      (lastSome? Clause.grouping? clauses).toList.flatMap (List.flatMap Expr.fields) := by
    cases hlast : lastSome? Clause.grouping? clauses <;> simp [Selection.ofClauses, hlast]
  rw [SelectionStated, Selection.fields, hitems, hwhere, hgroup, selectionTags]
  simp only [List.flatMap_cons, List.flatMap_nil, List.append_nil, kept_append, ← List.append_assoc]
  exact List.rel_append (List.rel_append (stated_piecesIn lowered fun _ _ h => h.items)
    (stated_piecesIn lowered fun _ _ h => h.condition))
    (stated_piecesIn lowered fun _ _ h => h.grouping)

/-- What a part of a query selects is what the columns of its tree are. -/
def QueryPart.StatedBy (tree : SyntaxTree) (part : QueryPart) : Prop :=
  Option.Rel SelectionStated (if tree.tag == .insertClause then some tree else none)
    part.selection?

theorem statedBy_queryPart {tree : SyntaxTree} {part : QueryPart} (h : queryPart tree = .ok part) :
    part.StatedBy tree := by
  obtain ⟨tag, text, children⟩ := tree
  cases tag with
  | fromClause =>
    simp only [queryPart, bind_eq_ok, pure_eq_ok] at h
    obtain ⟨chains, -, rfl⟩ := h
    exact .none
  | insertClause =>
    rw [queryPart, map_eq_ok] at h
    obtain ⟨selection, hselection, rfl⟩ := h
    exact .some (Selection.stated_ofTrees hselection)
  | _ => cases h

theorem statedBy_queryParts : ∀ (trees : List SyntaxTree) {parts : List QueryPart},
    queryParts trees = .ok parts →
      List.Forall₂ (fun tree part => part.StatedBy tree) trees parts
  | [], parts, h => by
    rw [queryParts] at h
    cases h
    exact .nil
  | tree :: trees, parts, h => by
    simp only [queryParts, bind_eq_ok, pure_eq_ok] at h
    obtain ⟨part, hpart, more, hmore, rfl⟩ := h
    exact .cons (statedBy_queryPart hpart) (statedBy_queryParts trees hmore)

namespace Query

theorem stated_ofTree {tree : SyntaxTree} {query : Query} (h : Query.ofTree tree = .ok query) :
    Stated (kept tree.columnPieces) query.selectionFields := by
  unfold Query.ofTree at h
  split at h
  · obtain ⟨parts, hparts, h⟩ := bind_eq_ok.1 h
    have hlast : List.Forall₂ SelectionStated
        (kept (lastOf (·.tag == .insertClause) tree.children))
        (lastSome? QueryPart.selection? parts).toList :=
      forall₂_lastOf (statedBy_queryParts _ hparts) fun _ _ h => h
    have hfields := Stated.flatMap hlast
    unfold Query.ofParts at h
    split at h
    · rename_i items where? groupBy hselection
      cases h
      rw [hselection, Option.toList_some, List.flatMap_singleton] at hfields
      rwa [columnPieces, kept_within]
    · cases h
  · cases h

/-- The references in the selection of a query are the columns that stay, in order. So each column
    is a reference of its own if and only if none is replaced, and no column is lost if and only if
    the query mentions those that are. -/
theorem mentionsAll_iff {tree : SyntaxTree} {query : Query}
    (accepted : Query.ofTree tree = .ok query) :
    List.Forall₂ SyntaxTree.Names (kept tree.columnPieces) query.selectionFields ∧
      ((∃ fields, fields.Perm query.selectionFields ∧
          List.Forall₂ SyntaxTree.Names (tree.columnPieces.map val) fields) ↔
        ∀ p ∈ tree.columnPieces, p.isReplaced = false) ∧
      (query.MentionsAll tree.queryColumns ↔
        ∀ p ∈ tree.columnPieces, p.isReplaced = true →
          ∃ f, query.Mentions f ∧ p.val.Names f) := by
  have stated := stated_ofTree accepted
  refine ⟨stated, forall₂_perm_iff stated, ?_, ?_⟩
  · intro mentioned p hp _
    exact mentioned p.val (mem_queryColumns.2 ⟨p, hp, rfl⟩)
  · intro elsewhere node hnode
    obtain ⟨p, hp, rfl⟩ := mem_queryColumns.1 hnode
    by_cases hreplaced : p.isReplaced = true
    · exact elsewhere p hp hreplaced
    · have hkept : p.val ∈ kept tree.columnPieces :=
        List.mem_map_of_mem (List.mem_filter.2 ⟨hp, by simpa using hreplaced⟩)
      obtain ⟨f, hf, hnames⟩ := forall₂_mem_left stated hkept
      exact ⟨f, mentions_of_mem_selectionFields hf, hnames⟩

/-- A query with one clause of each kind mentions the columns of all of them. -/
theorem mentionsAll_one_of_each :
    let column (name : String) : SyntaxTree := Grammar.columnNode name
    let field (name : String) : Expr := .field (.unresolved "" name)
    let tree : SyntaxTree := .node .query [
      .node .fromClause [.node .tableRef [.node .tableName [Grammar.nameLeaf "t"]]],
      .node .insertClause [
        .node .selectClause [.node .selectItem [
          .node (.arith .add) [column "a", Grammar.qualifiedNode "t" "b"], Grammar.nameLeaf "sum"]],
        .node .whereClause [.node (.compare .lt) [column "c", .leaf .number "5"]],
        .node .groupByClause [column "c"]]]
    let query : Query := {
      items := [⟨.arith .add (field "a") (.field (.unresolved "t" "b")) .unknown, some "sum"⟩]
      where? := some (.compare .lt (field "c") (.literal .int "5"))
      groupBy := [field "c"]
      tables := [⟨.table "t", none, none⟩] }
    Query.ofTree tree = .ok query ∧ tree.queryColumns.length = 4 ∧
      query.MentionsAll tree.queryColumns := by
  intro column field tree query
  have accepted : Query.ofTree tree = .ok query := rfl
  have stay : ∀ p ∈ tree.columnPieces, p.isReplaced = false := by decide
  refine ⟨accepted, rfl, (mentionsAll_iff accepted).2.2.2 fun p hp hreplaced => ?_⟩
  rw [stay p hp] at hreplaced
  cases hreplaced

/-- A column is lost in a selection, in a clause of either kind, in a predicate of WHERE and in an
    expression of an item that is not the last one: all these queries are
    `SELECT b FROM t WHERE b > 1 GROUP BY b`. -/
theorem not_mentionsAll_of_replaced :
    let b : SyntaxTree := Grammar.columnNode "b"
    let secret : SyntaxTree := Grammar.columnNode "secret"
    let from' : SyntaxTree :=
      .node .fromClause [.node .tableRef [.node .tableName [Grammar.nameLeaf "t"]]]
    let insert (clauses : List SyntaxTree) : SyntaxTree := .node .insertClause clauses
    let select (column : SyntaxTree) : SyntaxTree :=
      .node .selectClause [.node .selectItem [column]]
    let above (column : SyntaxTree) : SyntaxTree :=
      .node (.compare .gt) [column, .leaf .number "1"]
    let group (column : SyntaxTree) : SyntaxTree := .node .groupByClause [column]
    let rest : List SyntaxTree := [.node .whereClause [above b], group b]
    let field : Expr := .field (.unresolved "" "b")
    let query : Query := {
      items := [⟨field, none⟩], where? := some (.compare .gt field (.literal .int "1"))
      groupBy := [field], tables := [⟨.table "t", none, none⟩] }
    ∀ inserts ∈ [
        [insert [select secret], insert (select b :: rest)],
        [insert (select secret :: select b :: rest)],
        [insert (.node .selectClause [.node .selectItem [secret, b]] :: rest)],
        [insert (select b :: .node .whereClause [above secret] :: rest)],
        [insert [select b, .node .whereClause [above secret, above b], group b]],
        [insert (select b :: group secret :: rest)]],
      Query.ofTree (.node .query (from' :: inserts)) = .ok query ∧
        ¬ query.MentionsAll (SyntaxTree.node .query (from' :: inserts)).queryColumns := by
  intro b secret from' insert select above group rest field query
  have mentioned_eq : ∀ f, query.Mentions f → f = .unresolved "" "b" := by
    rintro f ⟨inner, e, n, contained, holds, hf⟩
    rcases contains_iff.1 contained with hinner | ⟨t, reference, view, source, -⟩
    · rw [hinner] at holds
      cases holds with
      | item selected =>
        cases List.mem_singleton.1 selected
        exact List.mem_singleton.1 hf
      | condition stated =>
        cases stated
        exact List.mem_singleton.1 hf
      | grouping grouped =>
        cases List.mem_singleton.1 grouped
        exact List.mem_singleton.1 hf
      | joinCondition reference stated =>
        cases List.mem_singleton.1 (List.mem_of_getElem? reference)
        cases stated
    · cases List.mem_singleton.1 reference
      cases source
  have lost : ∀ nodes, secret ∈ nodes → ¬ query.MentionsAll nodes := by
    intro nodes hmem mentioned
    obtain ⟨f, hf, names⟩ := mentioned secret hmem
    rw [mentioned_eq f hf, names_columnNode] at names
    exact absurd (congrArg Field.name names) (by decide)
  have both : ∀ inserts, Query.ofTree (.node .query (from' :: inserts)) = .ok query →
      secret ∈ (SyntaxTree.node .query (from' :: inserts)).queryColumns →
        Query.ofTree (.node .query (from' :: inserts)) = .ok query ∧
          ¬ query.MentionsAll (SyntaxTree.node .query (from' :: inserts)).queryColumns :=
    fun _ accepted hmem => ⟨accepted, lost _ hmem⟩
  refine List.forall_mem_cons.2 ⟨both _ rfl (.head _), ?_⟩
  refine List.forall_mem_cons.2 ⟨both _ rfl (.head _), ?_⟩
  refine List.forall_mem_cons.2 ⟨both _ rfl (.head _), ?_⟩
  refine List.forall_mem_cons.2 ⟨both _ rfl (.tail _ (.head _)), ?_⟩
  refine List.forall_mem_cons.2 ⟨both _ rfl (.tail _ (.head _)), ?_⟩
  exact List.forall_mem_cons.2 ⟨both _ rfl (.tail _ (.head _)), nofun⟩

end Query

end SqlGuard
