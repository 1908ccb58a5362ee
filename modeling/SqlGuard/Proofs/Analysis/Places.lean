import SqlGuard.Proofs.Analysis.Typing
import SqlGuard.Proofs.Statement.Occurrence

/-!
# The scope of a typed query

The entries of the scope, the references of the FROM clause and these references with their notes
stand at the same positions. Main statement: `Query.Typed.scope`, in the scope of a typed query each
of its expressions is one with its notes, in the part of the scope that it sees.
-/

namespace SqlGuard

/-- A reference and its entry in the scope stand at the same position. -/
theorem TablesTyped.entry_of_reference {schema : Schema} {tables tables' : List TableRef}
    {scope : Scope} (typed : TablesTyped schema tables tables' scope) {i : Nat} {t : TableRef}
    (hi : tables[i]? = some t) :
    ∃ t' entry, tables'[i]? = some t' ∧ scope[i]? = some entry ∧
      t.source.Typed schema t'.source entry.columns := by
  induction tables generalizing tables' scope i with
  | nil => cases hi
  | cons u us ih =>
    cases typed with
    | cons source sameAlias rest =>
      cases i with
      | zero =>
        cases hi
        exact ⟨_, _, rfl, rfl, source⟩
      | succ i => exact ih rest hi

theorem TablesTyped.length_scope {schema : Schema} {tables tables' : List TableRef}
    {scope : Scope} (typed : TablesTyped schema tables tables' scope) :
    scope.length = tables.length := by
  induction tables generalizing tables' scope with
  | nil => cases typed; rfl
  | cons t ts ih =>
    cases typed with
    | cons source sameAlias rest => simp [ih rest]

theorem TablesTyped.length_eq {schema : Schema} {tables tables' : List TableRef}
    {scope : Scope} (typed : TablesTyped schema tables tables' scope) :
    tables'.length = tables.length := by
  induction tables generalizing tables' scope with
  | nil => cases typed; rfl
  | cons t ts ih =>
    cases typed with
    | cons source sameAlias rest => simp [ih rest]

/-- An entry of the scope belongs to the reference at its position. -/
theorem TablesTyped.reference_of_entry {schema : Schema} {tables tables' : List TableRef}
    {scope : Scope} (typed : TablesTyped schema tables tables' scope) {i : Nat}
    {entry : ScopeEntry} (hi : scope[i]? = some entry) :
    ∃ t t', tables[i]? = some t ∧ tables'[i]? = some t' ∧
      t.source.Typed schema t'.source entry.columns := by
  have hlt : i < tables.length := by
    rw [← typed.length_scope]
    exact (List.getElem?_eq_some_iff.1 hi).1
  obtain ⟨t', entry', ht', hentry, source⟩ :=
    typed.entry_of_reference (List.getElem?_eq_getElem hlt)
  rw [hi] at hentry
  cases hentry
  exact ⟨_, t', List.getElem?_eq_getElem hlt, ht', source⟩

/-- References make up one scope. -/
theorem TablesTyped.scope_unique {schema : Schema} {tables tables₁ tables₂ : List TableRef}
    {scope₁ scope₂ : Scope} (h₁ : TablesTyped schema tables tables₁ scope₁)
    (h₂ : TablesTyped schema tables tables₂ scope₂) : scope₁ = scope₂ := by
  induction tables generalizing tables₁ tables₂ scope₁ scope₂ with
  | nil =>
    cases h₁
    cases h₂
    rfl
  | cons t ts ih =>
    cases h₁ with
    | cons source₁ _ rest₁ =>
      cases h₂ with
      | cons source₂ _ rest₂ =>
        have hsame := ((Source.analyze_eq_ok_iff ..).2 source₁).symm.trans
          ((Source.analyze_eq_ok_iff ..).2 source₂)
        simp only [Except.ok.injEq, Prod.mk.injEq] at hsame
        rw [hsame.2, ih rest₁ rest₂]

/-- Each reference stands at the position of one of the first query. -/
theorem TablesTyped.reference_of_reference {schema : Schema} {tables tables' : List TableRef}
    {scope : Scope} (typed : TablesTyped schema tables tables' scope) {i : Nat} {t' : TableRef}
    (hi : tables'[i]? = some t') : ∃ t, tables[i]? = some t := by
  have hlt : i < tables.length := by
    rw [← typed.length_eq]
    exact (List.getElem?_eq_some_iff.1 hi).1
  exact ⟨tables[i], List.getElem?_eq_getElem hlt⟩

/-- A view of the FROM clause is one with its notes, and the other way round. -/
theorem TablesTyped.view_with_notes {schema : Schema} {tables tables' : List TableRef}
    {scope : Scope} (typed : TablesTyped schema tables tables' scope) {t : TableRef} {view : Query}
    (reference : t ∈ tables) (hs : t.source = .view view) :
    ∃ t' view', t' ∈ tables' ∧ t'.source = .view view' ∧ view.Typed schema view' := by
  obtain ⟨i, hi⟩ := List.getElem?_of_mem reference
  obtain ⟨t', entry, hi', -, source⟩ := typed.entry_of_reference hi
  rw [hs] at source
  generalize hs' : t'.source = s' at source
  generalize entry.columns = columns at source
  cases source with
  | view htyped => exact ⟨t', _, List.mem_of_getElem? hi', hs', htyped⟩

theorem TablesTyped.view_of_view {schema : Schema} {tables tables' : List TableRef}
    {scope : Scope} (typed : TablesTyped schema tables tables' scope) {t' : TableRef}
    {view' : Query} (reference' : t' ∈ tables') (hs' : t'.source = .view view') :
    ∃ t view, t ∈ tables ∧ t.source = .view view ∧ view.Typed schema view' := by
  obtain ⟨i, hi'⟩ := List.getElem?_of_mem reference'
  obtain ⟨t, hi⟩ := typed.reference_of_reference hi'
  obtain ⟨u', entry, hu', -, source⟩ := typed.entry_of_reference hi
  rw [hi'] at hu'
  cases hu'
  rw [hs'] at source
  generalize hs : t.source = s at source
  generalize entry.columns = columns at source
  cases source with
  | view htyped => exact ⟨t, _, List.mem_of_getElem? hi, hs, htyped⟩

/-- The condition of a join is one with its notes, and the other way round. -/
theorem Join.Typed.on_left {scope : Scope} {t t' : TableRef} {e : Expr}
    (typed : Option.Rel (Join.Typed scope) t.join? t'.join?) (stated : t.on? = some e) :
    ∃ e', t'.on? = some e' ∧ e.Typed scope e' := by
  obtain ⟨source, alias?, join?⟩ := t
  obtain ⟨source', alias?', join?'⟩ := t'
  obtain ⟨join, hjoin, hon⟩ := Option.bind_eq_some_iff.1 stated
  cases typed with
  | none => cases hjoin
  | @some join join' htyped =>
    cases hjoin
    have hrel := htyped.on
    rw [hon] at hrel
    obtain ⟨e', he', hee'⟩ := rel_some_left hrel
    exact ⟨e', he', hee'⟩

theorem Join.Typed.on_right {scope : Scope} {t t' : TableRef} {e' : Expr}
    (typed : Option.Rel (Join.Typed scope) t.join? t'.join?) (stated : t'.on? = some e') :
    ∃ e, t.on? = some e ∧ e.Typed scope e' := by
  obtain ⟨source, alias?, join?⟩ := t
  obtain ⟨source', alias?', join?'⟩ := t'
  obtain ⟨join', hjoin, hon⟩ := Option.bind_eq_some_iff.1 stated
  cases typed with
  | none => cases hjoin
  | @some join join' htyped =>
    cases hjoin
    have hrel := htyped.on
    rw [hon] at hrel
    obtain ⟨e, he, hee'⟩ := rel_some_right hrel
    exact ⟨e, he, hee'⟩

/-- A typed query has a scope, in which its expressions are those of the first query with their
    notes, each in the part of the scope that it sees. -/
theorem Query.Typed.scope {schema : Schema} {query query' : Query}
    (typed : query.Typed schema query') :
    ∃ scope, TablesTyped schema query.tables query'.tables scope ∧
      List.Forall₂ (SelectItem.Typed scope) query.items query'.items ∧
      (∀ e n, query.Holds e n → ∃ e', query'.Holds e' n ∧ e.Typed (scope.take n) e') ∧
      (∀ e' n, query'.Holds e' n → ∃ e, query.Holds e n ∧ e.Typed (scope.take n) e') := by
  cases typed with
  | @intro items items' where? where?' groupBy groupBy' tables tables' scope sources joins selected
      condition grouped =>
    have hall : scope.take tables.length = scope := by
      rw [← sources.length_scope, List.take_length]
    have hlength := sources.length_eq
    refine ⟨scope, sources, selected, ?_, ?_⟩
    · intro e n holds
      cases holds with
      | item hmem =>
        obtain ⟨item', hmem', htyped⟩ := forall₂_mem_left selected hmem
        refine ⟨item'.expr, ?_, by rw [hall]; exact htyped.expr⟩
        rw [← hlength]
        exact .item hmem'
      | condition stated =>
        cases stated
        cases condition with
        | some htyped =>
          refine ⟨_, ?_, by rw [hall]; exact htyped⟩
          rw [← hlength]
          exact .condition rfl
      | grouping hmem =>
        obtain ⟨e', hmem', htyped⟩ := forall₂_mem_left grouped hmem
        refine ⟨e', ?_, by rw [hall]; exact htyped⟩
        rw [← hlength]
        exact .grouping hmem'
      | @joinCondition i t e hi stated =>
        obtain ⟨t', -, hi', -, -⟩ := sources.entry_of_reference hi
        obtain ⟨e', stated', htyped⟩ := Join.Typed.on_left (joins i t t' hi hi') stated
        exact ⟨e', .joinCondition hi' stated', htyped⟩
    · intro e' n holds
      cases holds with
      | item hmem =>
        obtain ⟨item, hmem', htyped⟩ := forall₂_mem_right selected hmem
        refine ⟨item.expr, ?_, by rw [hlength, hall]; exact htyped.expr⟩
        rw [hlength]
        exact .item hmem'
      | condition stated =>
        cases stated
        cases condition with
        | some htyped =>
          refine ⟨_, ?_, by rw [hlength, hall]; exact htyped⟩
          rw [hlength]
          exact .condition rfl
      | grouping hmem =>
        obtain ⟨e, hmem', htyped⟩ := forall₂_mem_right grouped hmem
        refine ⟨e, ?_, by rw [hlength, hall]; exact htyped⟩
        rw [hlength]
        exact .grouping hmem'
      | @joinCondition i t' e' hi' stated' =>
        obtain ⟨t, hi⟩ := sources.reference_of_reference hi'
        obtain ⟨e, stated, htyped⟩ := Join.Typed.on_right (joins i t t' hi hi') stated'
        exact ⟨e, .joinCondition hi stated, htyped⟩

end SqlGuard
