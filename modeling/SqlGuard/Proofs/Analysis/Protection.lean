import Mathlib
import SqlGuard.Analysis.Statement
import SqlGuard.Proofs.Analysis.Places

/-!
# Protected data in analyzed statements

Which columns of the tables a query reads, by the places that its references mean, and which of them
the values of a reference are computed from when it means an item of a view. Main statement:
`Statement.isProtected_iff_readsSensitive`, an analyzed statement is protected exactly if it
reads a sensitive column somewhere, and a reference is exactly if its values come from one.
-/

namespace SqlGuard

namespace Query

variable {schema : Schema}

/-- The table references of the query fit the schema and make up the scope. -/
def Sees (schema : Schema) (query : Query) (scope : Scope) : Prop :=
  ∃ tables', TablesTyped schema query.tables tables' scope

/-- A reference that sees the first `n` table references means a place in this one. -/
structure MeansIn (schema : Schema) (query : Query) (n : Nat) (f : Field) (t : TableRef)
    (p : Place) : Prop where
  means : ∃ scope, query.Sees schema scope ∧ Scope.Means (scope.take n) f p
  reference : query.tables[p.table]? = some t

/-- A reference that sees the first `n` table references means a column of a table. -/
def MeansColumn (schema : Schema) (query : Query) (n : Nat) (f : Field) (column : Column) : Prop :=
  ∃ t p name table, query.MeansIn schema n f t p ∧ t.source = .table name ∧
    schema name = some table ∧ table.columns[p.column]? = some column

/-- A reference that sees the first `n` table references means an item of a view. -/
def MeansItem (schema : Schema) (query : Query) (n : Nat) (f : Field) (view : Query)
    (item : SelectItem) : Prop :=
  ∃ t p, query.MeansIn schema n f t p ∧ t.source = .view view ∧
    view.items[p.column]? = some item

/-- The values of a reference that sees the first `n` table references are computed from a column of
    a table: the one that it means, or one behind the item of a view that it means. -/
inductive DrawsFrom (schema : Schema) : Query → Nat → Field → Column → Prop
  | column {query : Query} {n : Nat} {f : Field} {column : Column}
      (means : query.MeansColumn schema n f column) : DrawsFrom schema query n f column
  | item {query view : Query} {n : Nat} {f g : Field} {item : SelectItem} {column : Column}
      (means : query.MeansItem schema n f view item) (mentioned : g ∈ item.expr.fields)
      (behind : DrawsFrom schema view view.tables.length g column) :
      DrawsFrom schema query n f column

/-- Somewhere in the query, or in a view nested in it, a reference means a sensitive column. -/
def ReadsSensitive (schema : Schema) (query : Query) : Prop :=
  ∃ level e n f column, query.Contains level ∧ level.Holds e n ∧ f ∈ e.fields ∧
    level.MeansColumn schema n f column ∧ column.isSensitive = true

end Query

/-- A typed expression is protected if one of its references means a protected column. -/
theorem Expr.Typed.isProtected_iff {scope : Scope} {e e' : Expr} (typed : e.Typed scope e') :
    e'.isProtected = true ↔
      ∃ f ∈ e.fields, ∃ p c, scope.Means f p ∧ scope.at? p = some c ∧ c.isProtected = true := by
  induction typed with
  | @field f p c means column =>
    constructor
    · intro h
      exact ⟨f, List.mem_singleton_self f, p, c, means, column, h⟩
    · intro given
      rcases given with ⟨g, hg, q, d, means', column', h⟩
      rw [List.mem_singleton.1 hg] at means'
      rw [means'.unique means, column] at column'
      cases column'
      exact h
  | literal kind text => simp [Expr.isProtected, Expr.fields]
  | starCall name => simp [Expr.isProtected, Expr.fields]
  | arith _ _ _ _ ihl ihr =>
    simp only [Expr.isProtected, Expr.fields, Bool.or_eq_true, List.mem_append, or_and_right,
      exists_or, ihl, ihr]
  | compare _ _ _ ihl ihr =>
    simp only [Expr.isProtected, Expr.fields, Bool.or_eq_true, List.mem_append, or_and_right,
      exists_or, ihl, ihr]

/-- Each reference in a typed expression means a column in its scope. -/
theorem Expr.Typed.means_of_mem {scope : Scope} {e e' : Expr} (typed : e.Typed scope e')
    {f : Field} (mentioned : f ∈ e.fields) : ∃ p c, scope.Means f p ∧ scope.at? p = some c := by
  induction typed with
  | @field g p c means column =>
    cases List.mem_singleton.1 mentioned
    exact ⟨p, c, means, column⟩
  | literal kind text => cases mentioned
  | starCall name => cases mentioned
  | arith _ _ _ _ ihl ihr => exact (List.mem_append.1 mentioned).elim ihl ihr
  | compare _ _ _ ihl ihr => exact (List.mem_append.1 mentioned).elim ihl ihr

namespace Query

variable {schema : Schema}

/-- A query has one scope. -/
theorem Sees.unique {query : Query} {scope₁ scope₂ : Scope} (h₁ : query.Sees schema scope₁)
    (h₂ : query.Sees schema scope₂) : scope₁ = scope₂ := by
  obtain ⟨_, sources₁⟩ := h₁
  obtain ⟨_, sources₂⟩ := h₂
  exact sources₁.scope_unique sources₂

/-- A part of the scope has the columns of the scope at its places. -/
theorem at?_of_at?_take {scope : Scope} {n : Nat} {p : Place} {c : VisibleColumn}
    (h : Scope.at? (scope.take n) p = some c) : scope.at? p = some c := by
  obtain ⟨i, j⟩ := p
  obtain ⟨entry, hi, hj⟩ := Scope.at?_eq_some.1 h
  rw [List.getElem?_take] at hi
  split at hi
  · exact Scope.at?_eq_some.2 ⟨entry, hi, hj⟩
  · cases hi

/-- What stands at the place that a reference means: a column of a table, or an item of a view with
    its notes. -/
theorem Sees.meaning {query : Query} {scope : Scope} (sees : query.Sees schema scope) {n : Nat}
    {f : Field} {p : Place} (means : Scope.Means (scope.take n) f p) {c : VisibleColumn}
    (hat : scope.at? p = some c) :
    (∃ t name table column, query.MeansIn schema n f t p ∧ t.source = .table name ∧
      schema name = some table ∧ table.columns[p.column]? = some column ∧ c = column.visible) ∨
    (∃ t view view' item', query.MeansIn schema n f t p ∧ t ∈ query.tables ∧
      t.source = .view view ∧ view.Typed schema view' ∧ view'.items[p.column]? = some item' ∧
      c = item'.visible p.column) := by
  obtain ⟨i, j⟩ := p
  obtain ⟨entry, hi, hj⟩ := Scope.at?_eq_some.1 hat
  obtain ⟨tables', sources⟩ := sees
  obtain ⟨t, t', ht, ht', source⟩ := sources.reference_of_entry hi
  have meansIn : query.MeansIn schema n f t ⟨i, j⟩ := ⟨⟨scope, ⟨tables', sources⟩, means⟩, ht⟩
  generalize hcolumns : entry.columns = columns at source hj
  generalize hs : t.source = s at source
  generalize t'.source = s' at source
  cases source with
  | @table name table known =>
    rw [List.getElem?_map, Option.map_eq_some_iff] at hj
    obtain ⟨column, hcolumn, rfl⟩ := hj
    exact .inl ⟨t, name, table, column, meansIn, hs, known, hcolumn, rfl⟩
  | @view view view' typed =>
    rw [Query.visibleColumns, List.getElem?_mapIdx, Option.map_eq_some_iff] at hj
    obtain ⟨item', hitem', rfl⟩ := hj
    exact .inr ⟨t, view, view', item', meansIn, List.mem_of_getElem? ht, hs, typed, hitem', rfl⟩

/-- A reference means one place in one table reference. -/
theorem MeansIn.eq {query : Query} {n : Nat} {f : Field} {t u : TableRef} {p q : Place}
    (ht : query.MeansIn schema n f t p) (hu : query.MeansIn schema n f u q) : t = u ∧ p = q := by
  obtain ⟨⟨scope₁, sees₁, means₁⟩, hp⟩ := ht
  obtain ⟨⟨scope₂, sees₂, means₂⟩, hq⟩ := hu
  cases sees₁.unique sees₂
  cases means₁.unique means₂
  rw [hp] at hq
  exact ⟨Option.some.inj hq, rfl⟩

/-- What a reference means is protected, if its values are computed from a sensitive column. -/
theorem isProtected_iff_drawsFrom (query : Query) {scope : Scope} (sees : query.Sees schema scope)
    {n : Nat} {f : Field} {p : Place} {c : VisibleColumn}
    (means : Scope.Means (scope.take n) f p) (hat : scope.at? p = some c) :
    c.isProtected = true ↔
      ∃ column, query.DrawsFrom schema n f column ∧ column.isSensitive = true := by
  induction query using view_induction generalizing scope n f p c with
  | step query ih =>
    rcases sees.meaning means hat with
      ⟨t, name, table, column, meansIn, hs, known, hcolumn, rfl⟩ |
      ⟨t, view, view', item', meansIn, reference, hs, typed, hitem', rfl⟩
    · constructor
      · intro h
        exact ⟨column, .column ⟨t, p, name, table, meansIn, hs, known, hcolumn⟩, h⟩
      · intro given
        rcases given with ⟨column', draws, h⟩
        cases draws with
        | column means' =>
          obtain ⟨u, q, name', table', meansIn', hs', known', hcolumn'⟩ := means'
          obtain ⟨rfl, rfl⟩ := meansIn.eq meansIn'
          rw [hs] at hs'
          cases hs'
          rw [known] at known'
          cases known'
          rw [hcolumn] at hcolumn'
          cases hcolumn'
          exact h
        | item means' _ _ =>
          obtain ⟨u, q, meansIn', hs', -⟩ := means'
          obtain ⟨rfl, rfl⟩ := meansIn.eq meansIn'
          rw [hs] at hs'
          cases hs'
    · -- the item's references see all of the view's table references
      obtain ⟨inner, sources, selected, -, -⟩ := typed.scope
      obtain ⟨item, hitem, htyped⟩ := forall₂_getElem?_right selected hitem'
      have hall : inner.take view.tables.length = inner := by
        rw [← sources.length_scope, List.take_length]
      have hitemProtected := htyped.expr.isProtected_iff
      constructor
      · intro h
        obtain ⟨g, mentioned, q, d, meansG, hatG, hd⟩ := hitemProtected.1 h
        rw [← hall] at meansG
        obtain ⟨column, behind, hsens⟩ := (ih t reference view hs ⟨_, sources⟩ meansG hatG).1 hd
        exact ⟨column, .item ⟨t, p, meansIn, hs, hitem⟩ mentioned behind, hsens⟩
      · intro given
        rcases given with ⟨column, draws, hsens⟩
        cases draws with
        | column means' =>
          obtain ⟨u, q, name', table', meansIn', hs', -⟩ := means'
          obtain ⟨rfl, rfl⟩ := meansIn.eq meansIn'
          rw [hs] at hs'
          cases hs'
        | @item _ _ _ _ g item₂ _ means' mentioned behind =>
          obtain ⟨u, q, meansIn', hs', hitem₂⟩ := means'
          obtain ⟨rfl, rfl⟩ := meansIn.eq meansIn'
          rw [hs] at hs'
          cases hs'
          rw [hitem] at hitem₂
          cases hitem₂
          obtain ⟨q, d, meansG, hatG⟩ := htyped.expr.means_of_mem mentioned
          have hd : d.isProtected = true :=
            (ih t reference view hs ⟨_, sources⟩ (hall.symm ▸ meansG) hatG).2
              ⟨column, behind, hsens⟩
          exact hitemProtected.2 ⟨g, mentioned, q, d, meansG, hatG, hd⟩

/-- What a view reads, the query around it reads. -/
theorem ReadsSensitive.of_view {query view : Query} {t : TableRef} (reference : t ∈ query.tables)
    (source : t.source = .view view) (reads : view.ReadsSensitive schema) :
    query.ReadsSensitive schema := by
  obtain ⟨level, e, n, f, column, inside, rest⟩ := reads
  exact ⟨level, e, n, f, column, .view reference source inside, rest⟩

/-- A typed query is protected if it reads a sensitive column. -/
theorem Typed.isProtected_iff (query : Query) {query' : Query}
    (typed : query.Typed schema query') :
    query'.isProtected = true ↔ query.ReadsSensitive schema := by
  induction query using view_induction generalizing query' with
  | step query ih =>
    obtain ⟨scope, sources, -, forward, backward⟩ := typed.scope
    have sees : query.Sees schema scope := ⟨_, sources⟩
    rw [Query.isProtected_iff]
    constructor
    · intro given
      rcases given with ⟨e', n, holds', hprot⟩ | ⟨t', reference', view', hs', hprot⟩
      · obtain ⟨e, holds, htyped⟩ := backward e' n holds'
        obtain ⟨f, mentioned, p, c, means, hat, hc⟩ := htyped.isProtected_iff.1 hprot
        rcases sees.meaning means (at?_of_at?_take hat) with
          ⟨t, name, table, column, meansIn, hs, known, hcolumn, rfl⟩ |
          ⟨t, view, view', item', meansIn, reference, hs, htyped', hitem', rfl⟩
        · exact ⟨query, e, n, f, column, .self query, holds, mentioned,
            ⟨t, p, name, table, meansIn, hs, known, hcolumn⟩, hc⟩
        · -- a protected item makes the view protected
          have hview : view'.isProtected = true :=
            Query.isProtected_iff.2 (.inl ⟨_, _, .item (List.mem_of_getElem? hitem'), hc⟩)
          exact .of_view reference hs ((ih t reference view hs htyped').1 hview)
      · obtain ⟨t, view, reference, hs, htyped⟩ := sources.view_of_view reference' hs'
        exact .of_view reference hs ((ih t reference view hs htyped).1 hprot)
    · intro given
      rcases given with ⟨level, e, n, f, column, inside, holds, mentioned, means, hsens⟩
      rcases contains_iff.1 inside with rfl | ⟨t, reference, view, hs, inside⟩
      · obtain ⟨e', holds', htyped⟩ := forward e n holds
        obtain ⟨p, c, means', hat⟩ := htyped.means_of_mem mentioned
        have hc : c.isProtected = true :=
          (isProtected_iff_drawsFrom _ sees means' (at?_of_at?_take hat)).2
            ⟨column, .column means, hsens⟩
        exact .inl ⟨e', n, holds', htyped.isProtected_iff.2 ⟨f, mentioned, p, c, means', hat, hc⟩⟩
      · obtain ⟨t', view', reference', hs', htyped⟩ := sources.view_with_notes reference hs
        refine .inr ⟨t', reference', view', hs', (ih t reference view hs htyped).2 ?_⟩
        exact ⟨level, e, n, f, column, inside, holds, mentioned, means, hsens⟩

/-- What a typed query contains is typed. -/
theorem Typed.of_contains {query level query' : Query} (inside : query.Contains level)
    (typed : query.Typed schema query') : ∃ level', level.Typed schema level' := by
  induction inside generalizing query' with
  | self query => exact ⟨query', typed⟩
  | view reference hs _ ih =>
    obtain ⟨scope, sources, -⟩ := typed.scope
    obtain ⟨_, view', -, -, htyped⟩ := sources.view_with_notes reference hs
    exact ih htyped

/-- A reference that sees the first `n` table references means a column, and this is protected
    exactly if its values are computed from a sensitive column of a table. -/
def Traced (schema : Schema) (level : Query) (n : Nat) (f : Field) : Prop :=
  ∃ scope p c, level.Sees schema scope ∧ Scope.Means (scope.take n) f p ∧ scope.at? p = some c ∧
    (c.isProtected = true ↔
      ∃ column, level.DrawsFrom schema n f column ∧ column.isSensitive = true)

theorem Typed.traced {query query' : Query} (typed : query.Typed schema query') {level : Query}
    (inside : query.Contains level) {e : Expr} {n : Nat} (holds : level.Holds e n) {f : Field}
    (mentioned : f ∈ e.fields) : level.Traced schema n f := by
  obtain ⟨level', typedLevel⟩ := Typed.of_contains inside typed
  obtain ⟨scope, sources, -, forward, -⟩ := typedLevel.scope
  obtain ⟨e', -, htyped⟩ := forward e n holds
  obtain ⟨p, c, means, hat⟩ := htyped.means_of_mem mentioned
  have hat' : scope.at? p = some c := at?_of_at?_take hat
  exact ⟨scope, p, c, ⟨_, sources⟩, means, hat',
    isProtected_iff_drawsFrom level ⟨_, sources⟩ means hat'⟩

end Query

/-- The query of a statement that analysis accepts is typed, and protected like the statement. -/
theorem Statement.analyze_query? {schema : Schema} {s s' : Statement} {query : Query}
    (analyzed : s.analyze schema = .ok s') (hquery : s.query? = some query) :
    ∃ query', query.Typed schema query' ∧ s'.isProtected = query'.isProtected := by
  cases Statement.analyze_eq_ok_iff.1 analyzed with
  | select typed =>
    cases hquery
    exact ⟨_, typed, rfl⟩
  | insert _ typed =>
    cases hquery
    exact ⟨_, typed, rfl⟩
  | load _ => cases hquery

/-- An analyzed query or `INSERT` is protected exactly if a reference somewhere in it, views
    included, means a sensitive column of a table. Each single reference means a column that is
    protected exactly if its values are computed from such columns, however many views lie
    between. -/
theorem Statement.isProtected_iff_readsSensitive {schema : Schema} {s s' : Statement}
    {query : Query} (analyzed : s.analyze schema = .ok s') (selects : s.query? = some query) :
    (s'.isProtected = true ↔ query.ReadsSensitive schema) ∧
      ∀ level e n f, query.Contains level → level.Holds e n → f ∈ e.fields →
        level.Traced schema n f := by
  obtain ⟨query', typed, hprotected⟩ := Statement.analyze_query? analyzed selects
  rw [hprotected]
  refine ⟨Query.Typed.isProtected_iff query typed, ?_⟩
  intro level e n f inside holds mentioned
  exact typed.traced inside holds mentioned

/-- The sum of a sensitive and another column of a table, selected through a view. -/
theorem Query.readsSensitive_of_sum_in_view :
    let a : Column := { name := "a", type := .int, isSensitive := true }
    let b : Column := { name := "b", type := .int }
    let schema : Schema := fun name => if name = "t" then some ⟨"t", [a, b]⟩ else none
    let sum : Expr := .arith .add (.field ⟨"", "a", .unknown, false⟩)
      (.field ⟨"", "b", .unknown, false⟩) .unknown
    let view : Query := { items := [⟨sum, some "s"⟩], tables := [⟨.table "t", none, none⟩] }
    let query : Query :=
      { items := [⟨.field ⟨"v", "s", .unknown, false⟩, none⟩],
        tables := [⟨.view view, some "v", none⟩] }
    query.ReadsSensitive schema := by
  intro a b schema sum view query
  let sum' : Expr := .arith .add (.field ⟨"", "a", .int, true⟩) (.field ⟨"", "b", .int, false⟩) .int
  let view' : Query := { items := [⟨sum', some "s"⟩], tables := [⟨.table "t", none, none⟩] }
  let query' : Query :=
    { items := [⟨.field ⟨"v", "s", .int, true⟩, none⟩], tables := [⟨.view view', some "v", none⟩] }
  have analyzed : (Statement.select query).analyze schema = .ok (.select query') := by cbv
  have hprotected : (Statement.select query').isProtected = true := rfl
  exact (Statement.isProtected_iff_readsSensitive analyzed rfl).1.1 hprotected

end SqlGuard
