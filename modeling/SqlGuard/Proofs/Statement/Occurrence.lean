import SqlGuard.Statement

/-!
# What occurs in a statement

The references of an expression, the expressions of a query with the number of table references each
of them sees, and the queries that are nested in a query as inline views, to any depth. Main
statement: `Query.view_induction`, what holds of a query if it holds of the views of its FROM clause
holds of every query.
-/

namespace SqlGuard

/-- The references to columns in an expression, from left to right. -/
def Expr.fields : Expr → List Field
  | .field f => [f]
  | .literal _ _ | .starCall _ => []
  | .arith _ left right _ => left.fields ++ right.fields
  | .compare _ left right => left.fields ++ right.fields

/-- The query that a statement selects rows with. -/
def Statement.query? : Statement → Option Query
  | .select query => some query
  | .insert _ query => some query
  | .load _ _ _ => none

namespace Query

/-- The expressions of a query itself, each with the number of table references that it sees: all
    of them, or in the condition of a join those up to its own. -/
inductive Holds (query : Query) : Expr → Nat → Prop
  | item {item : SelectItem} (selected : item ∈ query.items) :
      Holds query item.expr query.tables.length
  | condition {e : Expr} (stated : query.where? = some e) : Holds query e query.tables.length
  | grouping {e : Expr} (grouped : e ∈ query.groupBy) : Holds query e query.tables.length
  | joinCondition {i : Nat} {t : TableRef} {e : Expr} (reference : query.tables[i]? = some t)
      (stated : t.on? = some e) : Holds query e (i + 1)

/-- A query contains itself, and what the views of its FROM clause contain. -/
inductive Contains : Query → Query → Prop
  | self (query : Query) : Contains query query
  | view {query view inner : Query} {t : TableRef} (reference : t ∈ query.tables)
      (source : t.source = .view view) (inside : Contains view inner) : Contains query inner

/-- A query in the FROM clause of another is the smaller one. -/
theorem sizeOf_view_lt {query view : Query} {t : TableRef} (reference : t ∈ query.tables)
    (source : t.source = .view view) : sizeOf view < sizeOf query := by
  obtain ⟨items, where?, groupBy, tables⟩ := query
  obtain ⟨source', alias?, join?⟩ := t
  cases source
  have htables : sizeOf (⟨.view view, alias?, join?⟩ : TableRef) < sizeOf tables :=
    List.sizeOf_lt_of_mem reference
  simp only [mk.sizeOf_spec, TableRef.mk.sizeOf_spec, Source.view.sizeOf_spec] at htables ⊢
  omega

/-- What holds of a query if it holds of the views of its FROM clause holds of every query. -/
theorem view_induction {motive : Query → Prop}
    (step : ∀ query : Query,
      (∀ t ∈ query.tables, ∀ view, t.source = .view view → motive view) → motive query)
    (query : Query) : motive query :=
  step query fun _ reference view source =>
    have := sizeOf_view_lt reference source
    view_induction step view
termination_by sizeOf query

theorem contains_iff {query inner : Query} :
    query.Contains inner ↔
      inner = query ∨ ∃ t ∈ query.tables, ∃ view, t.source = .view view ∧ view.Contains inner := by
  constructor
  · intro h
    cases h with
    | self => exact .inl rfl
    | view reference source inside => exact .inr ⟨_, reference, _, source, inside⟩
  · intro given
    rcases given with rfl | ⟨t, reference, view, source, inside⟩
    · exact .self _
    · exact .view reference source inside

end Query

/-! ### Protected columns -/

theorem anyProtected_iff {tables : List TableRef} :
    anyProtected tables = true ↔ ∃ t ∈ tables, t.isProtected = true := by
  induction tables with
  | nil => simp [anyProtected]
  | cons t ts ih => simp [anyProtected, ih]

theorem TableRef.isProtected_iff {t : TableRef} :
    t.isProtected = true ↔
      (∃ e, t.on? = some e ∧ e.isProtected = true) ∨
        ∃ view, t.source = .view view ∧ view.isProtected = true := by
  obtain ⟨source, alias?, join?⟩ := t
  simp only [TableRef.isProtected, TableRef.on?, Bool.or_eq_true, Option.any_eq_true]
  cases source with
  | table name => simp [Source.isProtected]
  | view query => simp [Source.isProtected]

/-- A query is protected if one of its expressions or of its views is. -/
theorem Query.isProtected_iff {query : Query} :
    query.isProtected = true ↔
      (∃ e n, query.Holds e n ∧ e.isProtected = true) ∨
        ∃ t ∈ query.tables, ∃ view, t.source = .view view ∧ view.isProtected = true := by
  obtain ⟨items, where?, groupBy, tables⟩ := query
  simp only [Query.isProtected, Bool.or_eq_true, List.any_eq_true, Option.any_eq_true,
    anyProtected_iff, TableRef.isProtected_iff]
  constructor
  · rintro (((⟨item, selected, hprot⟩ | ⟨e, stated, hprot⟩) | ⟨e, grouped, hprot⟩) |
      ⟨t, reference, ⟨e, stated, hprot⟩ | hview⟩)
    · exact .inl ⟨_, _, .item selected, hprot⟩
    · exact .inl ⟨_, _, .condition stated, hprot⟩
    · exact .inl ⟨_, _, .grouping grouped, hprot⟩
    · obtain ⟨i, hi⟩ := List.getElem?_of_mem reference
      exact .inl ⟨_, _, .joinCondition hi stated, hprot⟩
    · exact .inr ⟨t, reference, hview⟩
  · intro given
    rcases given with ⟨e, n, holds, hprot⟩ | ⟨t, reference, hview⟩
    · cases holds with
      | item selected => exact .inl (.inl (.inl ⟨_, selected, hprot⟩))
      | condition stated => exact .inl (.inl (.inr ⟨_, stated, hprot⟩))
      | grouping grouped => exact .inl (.inr ⟨_, grouped, hprot⟩)
      | joinCondition hi stated =>
        exact .inr ⟨_, List.mem_of_getElem? hi, .inl ⟨_, stated, hprot⟩⟩
    · exact .inr ⟨t, reference, .inr hview⟩

end SqlGuard
