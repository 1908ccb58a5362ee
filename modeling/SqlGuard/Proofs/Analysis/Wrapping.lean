import Mathlib
import SqlGuard.Lowering.Expr
import SqlGuard.Proofs.Analysis.Places
import SqlGuard.Proofs.Analysis.SideBySide
import SqlGuard.Proofs.Analysis.Writing

/-!
# Queries around a view of all columns

A query can be wrapped: everything that it exposes is selected again, by name, from a view of it.
Where its names are distinct, the wrapped query exposes the same columns and is protected like the
query inside, and so it is however often this is done. Main statement: `Query.analyze_wrapped`.
-/

namespace SqlGuard

namespace Query

/-- The names of the columns that a query exposes. -/
def outputNames (query : Query) : List String := query.visibleColumns.map VisibleColumn.name

/-- Whether no two of the columns that a query exposes have the same name, in any letter case. -/
def HasDistinctNames (query : Query) : Prop :=
  query.outputNames.Pairwise fun name other => Text.sameIgnoringCase name other = false

/-- The query that selects all columns of a view of the query, by their names behind its alias. -/
def wrapped (name : String) (query : Query) : Query where
  items := query.outputNames.map fun output => ⟨.field (.unresolved name output), none⟩
  tables := [⟨.view query, some name, none⟩]

end Query

/-! ### The columns of a view -/

section Columns

variable {columns : List VisibleColumn}
  (distinct : (columns.map VisibleColumn.name).Pairwise fun name other =>
    Text.sameIgnoringCase name other = false)
include distinct

theorem sameIgnoringCase_of_lt {i j : Nat} (before : i < j) {first second : VisibleColumn}
    (hi : columns[i]? = some first) (hj : columns[j]? = some second) :
    Text.sameIgnoringCase first.name second.name = false := by
  obtain ⟨hlt, rfl⟩ := List.getElem?_eq_some_iff.1 hi
  obtain ⟨hlt', rfl⟩ := List.getElem?_eq_some_iff.1 hj
  exact List.pairwise_iff_getElem.1 (List.pairwise_map.1 distinct) i j hlt hlt' before

variable {column : VisibleColumn} (among : column ∈ columns)
include among

/-- Among columns with distinct names each is the only one of its name. -/
theorem columnsNamed_of_distinct : columnsNamed column.name columns = [column] := by
  obtain ⟨j, hj⟩ := List.getElem?_of_mem among
  refine Scope.columnsNamed_eq_singleton_iff.2
    ⟨j, hj, Text.sameIgnoringCase_refl _, fun i other hi same => ?_⟩
  rcases Nat.lt_trichotomy i j with before | rfl | behind
  · rw [sameIgnoringCase_of_lt distinct before hi hj] at same
    cases same
  · rfl
  · rw [Text.sameIgnoringCase_comm, sameIgnoringCase_of_lt distinct behind hj hi] at same
    cases same

/-- In the scope of a view alone, its alias and the name of a column mean this column. -/
theorem Scope.resolve_of_distinct {name : String} (named : name ≠ "") :
    Scope.resolve [⟨some name, columns⟩] name column.name = .ok column := by
  have hentries : entriesNamed [⟨some name, columns⟩] name = [⟨some name, columns⟩] := by
    simp [entriesNamed, Text.sameIgnoringCase_refl]
  have hbehind : columnsBehind [⟨some name, columns⟩] name = .ok columns := by
    rw [columnsBehind, if_neg (by simpa using named), hentries]
    rfl
  rw [resolve_eq, hbehind]
  exact theOnly_eq_ok.2 (columnsNamed_of_distinct distinct among)

end Columns

/-! ### Wrapped queries -/

/-- The item that selects a column by its name behind an alias, with the notes of the column. -/
def VisibleColumn.item (name : String) (column : VisibleColumn) : SelectItem :=
  ⟨.field ⟨name, column.name, column.type, column.isProtected⟩, none⟩

theorem SelectItem.Typed.visible_name {scope : Scope} {item item' : SelectItem}
    (typed : item.Typed scope item') (i : Nat) :
    (item'.visible i).name = (item.visible i).name := by
  obtain ⟨e, alias?⟩ := item
  obtain ⟨e', alias?'⟩ := item'
  obtain ⟨hexpr, halias⟩ := typed
  cases halias
  cases alias? with
  | some name => rfl
  | none => cases hexpr <;> rfl

namespace Query

variable {schema : Schema} {query query' : Query}

/-- Analysis leaves the names of columns as they are. -/
theorem Typed.outputNames_eq (typed : query.Typed schema query') :
    query'.outputNames = query.outputNames := by
  obtain ⟨scope, -, selected, -⟩ := typed.scope
  have hnames : List.Forall₂ (fun column column' : VisibleColumn => column'.name = column.name)
      query.visibleColumns query'.visibleColumns :=
    forall₂_mapIdx selected fun i _ _ h => h.visible_name i
  exact map_eq_of_forall₂ hnames fun _ _ h => h

/-- A wrapped query with its notes: the analyzed query is its view, and its items have the notes of
    the columns that this exposes. -/
theorem analyze_wrapped_eq (accepted : query.analyze schema = .ok query')
    (distinct : query.HasDistinctNames) {name : String} (named : name ≠ "") :
    (query.wrapped name).analyze schema =
      .ok { items := query'.visibleColumns.map (VisibleColumn.item name)
            tables := [⟨.view query', some name, none⟩] } := by
  have hnames := ((analyze_eq_ok_iff ..).1 accepted).outputNames_eq
  rw [HasDistinctNames, ← hnames] at distinct
  have hitems : (query.wrapped name).items.mapM
      (SelectItem.resolve [⟨some name, query'.visibleColumns⟩]) =
        .ok (query'.visibleColumns.map (VisibleColumn.item name)) := by
    rw [wrapped, ← hnames, outputNames, mapM_eq_ok, List.map_map, List.forall₂_map_left_iff,
      List.forall₂_map_right_iff, List.forall₂_same]
    intro column among
    simp only [Function.comp_apply, SelectItem.resolve, Expr.resolve, Field.resolve,
      Field.unresolved, Scope.resolve_of_distinct distinct among named]
    rfl
  have hview : (Source.view query).analyze schema =
      .ok (.view query', query'.visibleColumns) := by
    rw [Source.analyze, accepted]
    rfl
  rw [wrapped, analyze, analyzeTables, TableRef.analyze, hview]
  show resolveClauses [⟨some name, query'.visibleColumns⟩] [⟨.view query', some name, none⟩]
    ⟨(query.wrapped name).items, none, [], []⟩ = _
  rw [resolveClauses, hitems]
  rfl

theorem visibleColumns_items (name : String) (columns : List VisibleColumn)
    (tables : List TableRef) :
    visibleColumns { items := columns.map (VisibleColumn.item name), tables } = columns := by
  have visible_item : ∀ i : Nat, SelectItem.visible i ∘ VisibleColumn.item name = id :=
    fun _ => rfl
  refine List.ext_getElem? fun i => ?_
  simp [visibleColumns, visible_item]

/-- Each protected column that a query exposes makes the query protected. -/
theorem isProtected_of_mem_visibleColumns {column : VisibleColumn}
    (among : column ∈ query.visibleColumns) (hprotected : column.isProtected = true) :
    query.isProtected = true := by
  obtain ⟨i, hi, rfl⟩ := List.mem_mapIdx.1 among
  exact isProtected_iff.2 (.inl ⟨_, _, .item (List.getElem_mem hi), hprotected⟩)

theorem isProtected_items (name : String) (query : Query) :
    isProtected { items := query.visibleColumns.map (VisibleColumn.item name)
                  tables := [⟨.view query, some name, none⟩] } = query.isProtected := by
  have hitems : (query.visibleColumns.map (VisibleColumn.item name)).any (·.expr.isProtected) =
      query.visibleColumns.any VisibleColumn.isProtected := List.any_map
  have hsplit : isProtected { items := query.visibleColumns.map (VisibleColumn.item name)
                              tables := [⟨.view query, some name, none⟩] } =
      (query.visibleColumns.any VisibleColumn.isProtected || query.isProtected) := by
    simp [isProtected, hitems, anyProtected, TableRef.isProtected, Source.isProtected]
  rw [hsplit, Bool.or_eq_right_iff_imp, List.any_eq_true]
  rintro ⟨column, among, hprotected⟩
  exact isProtected_of_mem_visibleColumns among hprotected

/-- However often a query with distinct names is wrapped, under whatever aliases, it is accepted,
    exposes the same columns and is protected like the query inside. -/
theorem analyze_wrapped (accepted : query.analyze schema = .ok query')
    (distinct : query.HasDistinctNames) {names : List String} (named : ∀ name ∈ names, name ≠ "") :
    ∃ r, (names.foldr wrapped query).analyze schema = .ok r ∧
      r.visibleColumns = query'.visibleColumns ∧ r.isProtected = query'.isProtected := by
  induction names with
  | nil => exact ⟨query', accepted, rfl, rfl⟩
  | cons name names ih =>
    rw [List.forall_mem_cons] at named
    obtain ⟨r, hr, hcolumns, hprotected⟩ := ih named.2
    -- the names are those of the query inside, so they are distinct at each level
    have hinner : (names.foldr wrapped query).outputNames = query.outputNames := by
      rw [← ((analyze_eq_ok_iff ..).1 hr).outputNames_eq, outputNames, hcolumns]
      exact ((analyze_eq_ok_iff ..).1 accepted).outputNames_eq
    have distinct' : (names.foldr wrapped query).HasDistinctNames := by
      rwa [HasDistinctNames, hinner]
    refine ⟨_, analyze_wrapped_eq hr distinct' named.1, ?_, ?_⟩
    · rw [visibleColumns_items, hcolumns]
    · rw [isProtected_items, hprotected]

/-- A sum that has no name but its position is selected through two views. -/
theorem analyze_wrapped_twice :
    let a : Column := { name := "a", type := .int, isSensitive := true }
    let b : Column := { name := "b", type := .double }
    let schema : Schema := fun name => if name = "t" then some ⟨"t", [a, b]⟩ else none
    let field (name : String) : Expr := .field (.unresolved "" name)
    let query : Query :=
      { items := [⟨field "a", some "x"⟩, ⟨.arith .add (field "a") (field "b") .unknown, none⟩,
          ⟨field "b", none⟩]
        tables := [⟨.table "t", none, none⟩] }
    let outer := ["w", "v"].foldr wrapped query
    query.HasDistinctNames ∧
      outer.render = "SELECT w.x, w._c1, w.b FROM " ++
        "(SELECT v.x, v._c1, v.b FROM (SELECT a AS x, a + b, b FROM t) v) w" ∧
      ∃ r, outer.analyze schema = .ok r ∧ r.isProtected = true ∧
        r.visibleColumns = [⟨"x", .int, true⟩, ⟨"_c1", .double, true⟩, ⟨"b", .double, false⟩] := by
  intro a b schema field query outer
  have names : query.outputNames = ["x", "_c1", "b"] := by cbv
  have distinct : query.HasDistinctNames := by
    rw [HasDistinctNames, names]
    decide
  have hrender : outer.render = "SELECT w.x, w._c1, w.b FROM " ++
      "(SELECT v.x, v._c1, v.b FROM (SELECT a AS x, a + b, b FROM t) v) w" := by cbv
  let a' : Expr := .field ⟨"", "a", .int, true⟩
  let b' : Expr := .field ⟨"", "b", .double, false⟩
  have accepted : query.analyze schema = .ok
      { items := [⟨a', some "x"⟩, ⟨.arith .add a' b' .double, none⟩, ⟨b', none⟩]
        tables := [⟨.table "t", none, none⟩] } := by cbv
  obtain ⟨r, hr, hcolumns, hprotected⟩ :=
    analyze_wrapped accepted distinct (show ∀ name ∈ ["w", "v"], name ≠ "" by decide)
  exact ⟨distinct, hrender, r, hr, hprotected, hcolumns.trans (by cbv)⟩

end Query

end SqlGuard
