import Mathlib
import SqlGuard.Proofs.Analysis.Growth
import SqlGuard.Proofs.Analysis.Marks
import SqlGuard.Proofs.Analysis.Places

/-!
# Views as tables

A query sees nothing of a view but the columns that it exposes. So a table with these columns can
stand in its place: the query is accepted as before, or refused for the same reason, and all its own
expressions have the same notes. Only what the view itself does with protected columns is no longer
part of the query. Main statement: `Query.analyze_viewAsTable`.
-/

namespace SqlGuard

/-! ### One table more -/

section Tables

variable (catalog : Catalog) (database : String) (table : Table)

theorem Catalog.table?_addTable_self :
    (catalog.addTable database table).table? database table.name = some table := by
  simp [table?, database?, addTable, updateDatabase, Keyed.isOrderedMap.find?_put_self]

theorem Catalog.table?_addTable_of_ne {name : String}
    (other : Text.lower name ≠ Text.lower table.name) :
    (catalog.addTable database table).table? database name = catalog.table? database name := by
  simp only [table?, database?, addTable, updateDatabase, Keyed.isOrderedMap.find?_put_self]
  cases catalog.databases.find? (Text.lower database) with
  | none => simp [Keyed.isOrderedMap.find?_put_of_ne other, Keyed.find?]
  | some entry => simp [Keyed.isOrderedMap.find?_put_of_ne other]

end Tables

/-- Analysis reads no tables but those that the query names. -/
theorem Query.analyze_congr {schema schema' : Schema} (query : Query)
    (agree : ∀ name, query.Names name → schema' name = schema name) :
    query.analyze schema' = query.analyze schema := by
  have closed : OrClosed Eq := ⟨rfl, fun h h' => by rw [h, h']⟩
  have columns : ∀ name, query.Names name →
      Leeway.same.Match (List.Forall₂ (VisibleColumn.Alike Eq)) (schema'.columns name)
        (schema.columns name) := by
    intro name named
    unfold Schema.columns
    rw [agree name named]
    cases schema name with
    | none => exact .error _
    | some table => exact .ok (List.forall₂_same.2 fun column _ => .refl column)
  have hmatch := @Query.analyze_alike (.marks closed) schema' schema query columns
  rcases Leeway.Match.same_iff.1 hmatch with ⟨e, he, he'⟩ | ⟨r, r', hr, hr', alike⟩
  · rw [he, he']
  · rw [hr, hr', alike.eq]

theorem Query.analyze_source_congr {schema schema' : Schema} {query : Query}
    (agree : ∀ name, query.Names name → schema' name = schema name) {t : TableRef}
    (reference : t ∈ query.tables) : t.source.analyze schema' = t.source.analyze schema := by
  cases hsource : t.source with
  | table name =>
    have hname := agree name (names_iff.2 ⟨t, reference, .inl hsource⟩)
    simp only [Source.analyze, Schema.columns, hname]
  | view view =>
    have hview := view.analyze_congr fun name named =>
      agree name (names_iff.2 ⟨t, reference, .inr ⟨view, hsource, named⟩⟩)
    simp only [Source.analyze, hview]

/-! ### Another source -/

/-- The reference with another source, under the same alias and with the same join. -/
def TableRef.withSource (source : Source) (t : TableRef) : TableRef := { t with source }

/-- The query with another source for the reference at a position. -/
def Query.withSource (i : Nat) (source : Source) (query : Query) : Query :=
  { query with tables := query.tables.modify i (TableRef.withSource source) }

section Analysis

variable {schema schema' : Schema}

theorem TableRef.analyze_congr {t : TableRef}
    (same : t.source.analyze schema' = t.source.analyze schema) (scope : Scope) :
    t.analyze schema' scope = t.analyze schema scope := by
  obtain ⟨source, alias?, join?⟩ := t
  rw [analyze, analyze, same]

theorem analyzeTables_congr {tables : List TableRef}
    (same : ∀ t ∈ tables, t.source.analyze schema' = t.source.analyze schema) (scope : Scope) :
    analyzeTables schema' scope tables = analyzeTables schema scope tables := by
  induction tables generalizing scope with
  | nil => rfl
  | cons t ts ih =>
    rw [List.forall_mem_cons] at same
    simp only [analyzeTables, TableRef.analyze_congr same.1, ih same.2]

/-- To the other references it makes no difference which source puts its columns in sight. -/
theorem analyzeTables_withSource {tables : List TableRef} {i : Nat} {source source' other : Source}
    {name : String} {join? : Option Join} {columns : List VisibleColumn}
    (same : ∀ t ∈ tables, t.source.analyze schema' = t.source.analyze schema)
    (reference : tables[i]? = some ⟨source, some name, join?⟩)
    (before : source.analyze schema = .ok (source', columns))
    (after : other.analyze schema' = .ok (other, columns)) (scope : Scope) :
    analyzeTables schema' scope (tables.modify i (TableRef.withSource other)) =
      (fun answer => (answer.1, answer.2.modify i (TableRef.withSource other))) <$>
        analyzeTables schema scope tables := by
  induction tables generalizing i scope with
  | nil => cases reference
  | cons t ts ih =>
    rw [List.forall_mem_cons] at same
    cases i with
    | zero =>
      cases reference
      simp only [List.modify_zero_cons, TableRef.withSource, analyzeTables, TableRef.analyze,
        before, after, TableRef.visibleName?, analyzeTables_congr same.2, bind_assoc, pure_bind,
        map_bind, map_pure]
      rfl
    | succ i =>
      simp only [List.modify_succ_cons, analyzeTables, TableRef.analyze_congr same.1,
        ih same.2 reference, map_bind, map_pure, bind_map_left]

theorem Query.resolveClauses_withSource (scope : Scope) (tables : List TableRef) (i : Nat)
    (source : Source) (query : Query) :
    Query.resolveClauses scope (tables.modify i (TableRef.withSource source)) query =
      Query.withSource i source <$> Query.resolveClauses scope tables query := by
  simp only [Query.resolveClauses, map_bind, map_pure, Query.withSource]

theorem Query.analyze_withSource {query : Query} {i : Nat} {source source' other : Source}
    {name : String} {join? : Option Join} {columns : List VisibleColumn}
    (same : ∀ t ∈ query.tables, t.source.analyze schema' = t.source.analyze schema)
    (reference : query.tables[i]? = some ⟨source, some name, join?⟩)
    (before : source.analyze schema = .ok (source', columns))
    (after : other.analyze schema' = .ok (other, columns)) :
    (query.withSource i other).analyze schema' =
      Query.withSource i other <$> query.analyze schema := by
  obtain ⟨items, where?, groupBy, tables⟩ := query
  simp only [withSource, analyze, analyzeTables_withSource same reference before after,
    bind_map_left, map_bind, resolveClauses_withSource]

end Analysis

/-! ### Protection -/

theorem anyProtected_withSource {tables : List TableRef} {i : Nat} {t : TableRef} {view : Query}
    (reference : tables[i]? = some t) (source : t.source = .view view) (name : String) :
    anyProtected tables =
      (anyProtected (tables.modify i (TableRef.withSource (.table name))) || view.isProtected) := by
  induction tables generalizing i with
  | nil => cases reference
  | cons u us ih =>
    cases i with
    | zero =>
      cases reference
      obtain ⟨_, alias?, join?⟩ := t
      cases source
      simp only [List.modify_zero_cons, TableRef.withSource, anyProtected, TableRef.isProtected,
        Source.isProtected, Bool.or_false, Bool.or_right_comm]
    | succ i =>
      rw [List.modify_succ_cons, anyProtected, anyProtected, ih reference, Bool.or_assoc]

/-- A query is protected if it is so with a table in the place of a view, or if the view is. -/
theorem Query.isProtected_withSource {query : Query} {i : Nat} {t : TableRef} {view : Query}
    (reference : query.tables[i]? = some t) (source : t.source = .view view) (name : String) :
    query.isProtected = ((query.withSource i (.table name)).isProtected || view.isProtected) := by
  obtain ⟨items, where?, groupBy, tables⟩ := query
  rw [withSource, isProtected, isProtected, anyProtected_withSource reference source name]
  simp only [Bool.or_assoc]

/-- Where the reference to a view is, analysis answers the same reference to the analyzed view. -/
theorem Query.Typed.view_at {schema : Schema} {query query' view view' : Query} {i : Nat}
    {alias? : Option String} {join? : Option Join} (typed : query.Typed schema query')
    (reference : query.tables[i]? = some ⟨.view view, alias?, join?⟩)
    (accepted : view.analyze schema = .ok view') :
    ∃ t', query'.tables[i]? = some t' ∧ t'.source = .view view' := by
  obtain ⟨scope, sources, -⟩ := typed.scope
  obtain ⟨t', entry, ht', -, source⟩ := sources.entry_of_reference reference
  have hsource := (Source.analyze_eq_ok_iff ..).2 source
  rw [Source.analyze, accepted] at hsource
  exact ⟨t', ht', (Prod.mk.inj (Except.ok.inj hsource)).1.symm⟩

/-- Let a table with the columns that a view exposes stand in the place of the view, under its alias
    and with its join, where no part of the query names a table like it. Then the query is refused
    for the same reason as before, or it is accepted, and its result differs in that place alone. It
    is protected before if it is so with the table, or if the view is. -/
theorem Query.analyze_viewAsTable {catalog : Catalog} {database : String} {query view view' : Query}
    {i : Nat} {name : String} {join? : Option Join} {table : Table}
    (reference : query.tables[i]? = some ⟨.view view, some name, join?⟩)
    (accepted : view.analyze (catalog.schema database) = .ok view')
    (exposed : table.columns.map Column.visible = view'.visibleColumns)
    (fresh : ∀ named, query.Names named → Text.lower named ≠ Text.lower table.name) :
    let schema := catalog.schema database
    let schema' := (catalog.addTable database table).schema database
    let query' := query.withSource i (.table table.name)
    (∃ e, query.analyze schema = .error e ∧ query'.analyze schema' = .error e) ∨
      ∃ r, query.analyze schema = .ok r ∧
        query'.analyze schema' = .ok (r.withSource i (.table table.name)) ∧
        (r.isProtected = true ↔
          (r.withSource i (.table table.name)).isProtected = true ∨ view'.isProtected = true) := by
  intro schema schema' query'
  have agree : ∀ named, query.Names named → schema' named = schema named :=
    fun named hnamed => catalog.table?_addTable_of_ne database table (fresh named hnamed)
  have before : (Source.view view).analyze schema = .ok (.view view', view'.visibleColumns) := by
    rw [Source.analyze, accepted]
    rfl
  have after : (Source.table table.name).analyze schema' =
      .ok (.table table.name, view'.visibleColumns) := by
    have known : schema' table.name = some table := catalog.table?_addTable_self database table
    rw [Source.analyze, Schema.columns, known, ← exposed]
    rfl
  have hquery' : query'.analyze schema' =
      Query.withSource i (.table table.name) <$> query.analyze schema :=
    Query.analyze_withSource (fun t => Query.analyze_source_congr agree) reference before after
  cases hquery : query.analyze schema with
  | error e =>
    rw [hquery] at hquery'
    exact .inl ⟨e, rfl, hquery'⟩
  | ok r =>
    rw [hquery] at hquery'
    obtain ⟨t', ht', hview⟩ :=
      ((Query.analyze_eq_ok_iff ..).1 hquery).view_at reference accepted
    refine .inr ⟨r, rfl, hquery', ?_⟩
    rw [Query.isProtected_withSource ht' hview table.name, Bool.or_eq_true]

/-- A view is joined, one of whose columns has no name but its position. It is protected by its
    condition alone. -/
theorem Query.analyze_viewAsTable_joined :
    let a : Column := { name := "a", type := .int, isSensitive := true }
    let b : Column := { name := "b", type := .double }
    let catalog : Catalog := Catalog.empty.addTable "default" ⟨"t", [a, b]⟩
    let field (qualifier name : String) : Expr := .field ⟨qualifier, name, .unknown, false⟩
    let sum : Expr := .arith .add (field "" "b") (.literal .int "1") .unknown
    let view : Query :=
      { items := [⟨sum, none⟩, ⟨field "" "b", some "d"⟩]
        where? := some (.compare .gt (field "" "a") (.literal .int "0"))
        tables := [⟨.table "t", none, none⟩] }
    let on : Expr := .compare .eq (field "t" "b") (field "V" "d")
    let query : Query :=
      { items := [⟨field "v" "_c0", none⟩, ⟨field "" "b", none⟩]
        tables := [⟨.table "t", none, none⟩, ⟨.view view, some "v", some ⟨.inner, some on, 0⟩⟩] }
    let table : Table := ⟨"w", [{ name := "_c0", type := .double },
      { name := "d", type := .double, key := ⟨"3", "5"⟩ }]⟩
    let query' := query.withSource 1 (.table "w")
    ∃ r, query.analyze (catalog.schema "default") = .ok r ∧
      query'.analyze ((catalog.addTable "default" table).schema "default") =
        .ok (r.withSource 1 (.table "w")) ∧
      r.isProtected = true ∧ (r.withSource 1 (.table "w")).isProtected = false := by
  intro a b catalog field sum view on query table query'
  have fresh : ∀ named, query.Names named → Text.lower named ≠ Text.lower "w" := by
    have other : Text.lower "t" ≠ Text.lower "w" := by cbv
    intro named hnamed
    obtain ⟨t, reference, hsource⟩ := names_iff.1 hnamed
    rcases List.mem_pair.1 reference with rfl | rfl
    · rcases hsource with source | ⟨_, source, -⟩ <;> cases source
      exact other
    · rcases hsource with source | ⟨_, source, hview⟩ <;> cases source
      obtain ⟨t, reference, hsource⟩ := names_iff.1 hview
      cases List.mem_singleton.1 reference
      rcases hsource with source | ⟨_, source, -⟩ <;> cases source
      exact other
  let b' : Expr := .field ⟨"", "b", .double, false⟩
  let view' : Query :=
    { items := [⟨.arith .add b' (.literal .int "1") .double, none⟩, ⟨b', some "d"⟩]
      where? := some (.compare .gt (.field ⟨"", "a", .int, true⟩) (.literal .int "0"))
      tables := [⟨.table "t", none, none⟩] }
  have accepted : view.analyze (catalog.schema "default") = .ok view' := by cbv
  have exposed : table.columns.map Column.visible = view'.visibleColumns := by cbv
  have before : (query.analyze (catalog.schema "default")).map Query.isProtected = .ok true := by
    cbv
  have after : (query'.analyze ((catalog.addTable "default" table).schema "default")).map
      Query.isProtected = .ok false := by cbv
  have reference : query.tables[1]? =
      some ⟨.view view, some "v", some ⟨.inner, some on, 0⟩⟩ := rfl
  rcases Query.analyze_viewAsTable reference accepted exposed fresh with
    ⟨e, he, -⟩ | ⟨r, hr, hr', -⟩
  · rw [he] at before
    cases before
  · rw [hr] at before
    rw [hr'] at after
    exact ⟨r, hr, hr', Except.ok.inj before, Except.ok.inj after⟩

end SqlGuard
