import SqlGuard.Analysis.Statement
import SqlGuard.Proofs.Analysis.Reference

/-!
# The typing of queries

When a query fits a schema, and what it is with all its notes: each reference means a single column
in its scope and has the type and the protection of that column, operands of arithmetic are numbers
or of unknown type, and compared operands are comparable. All references of a query's FROM clause
are in the scope of its clauses, those up to its own in the scope of a join condition, and none of
an enclosing query in that of a view. Main statement: `Query.analyze_eq_ok_iff`, analysis answers
exactly the queries that this typing relates.
-/

namespace SqlGuard

/-- The reference with the notes of a column. -/
def Field.noted (f : Field) (c : VisibleColumn) : Field :=
  { f with type := c.type, isProtected := c.isProtected }

/-- The expression fits the scope, and is the second one with its notes. -/
inductive Expr.Typed (scope : Scope) : Expr → Expr → Prop
  | field {f : Field} {p : Place} {c : VisibleColumn} (means : scope.Means f p)
      (column : scope.at? p = some c) : Typed scope (.field f) (.field (f.noted c))
  | literal (kind : LiteralKind) (text : String) :
      Typed scope (.literal kind text) (.literal kind text)
  | starCall (name : String) : Typed scope (.starCall name) (.starCall name)
  | arith {op : ArithOp} {left left' right right' : Expr} {note : DataType}
      (hleft : Typed scope left left') (hright : Typed scope right right')
      (leftOk : left'.type = .unknown ∨ left'.type.isNumeric = true)
      (rightOk : right'.type = .unknown ∨ right'.type.isNumeric = true) :
      Typed scope (.arith op left right note)
        (.arith op left' right' (left'.type.widen right'.type))
  | compare {op : CompareOp} {left left' right right' : Expr}
      (hleft : Typed scope left left') (hright : Typed scope right right')
      (comparable : left'.type.comparable right'.type = true) :
      Typed scope (.compare op left right) (.compare op left' right')

/-- The item fits the scope, and is the second one with its notes. -/
structure SelectItem.Typed (scope : Scope) (item item' : SelectItem) : Prop where
  expr : item.expr.Typed scope item'.expr
  sameAlias : item'.alias? = item.alias?

/-- The join fits the scope, and is the second one with its notes. -/
structure Join.Typed (scope : Scope) (join join' : Join) : Prop where
  op : join'.op = join.op
  left : join'.left = join.left
  on : Option.Rel (Expr.Typed scope) join.on? join'.on?

/-- Each join fits the scope of the references up to its own, behind those of an outer scope. -/
def JoinsTyped (outer scope : Scope) (tables tables' : List TableRef) : Prop :=
  ∀ (i : Nat) (t t' : TableRef), tables[i]? = some t → tables'[i]? = some t' →
    Option.Rel (Join.Typed (outer ++ scope.take (i + 1))) t.join? t'.join?

mutual

/-- The query fits the schema, and is the second one with its notes. -/
inductive Query.Typed (schema : Schema) : Query → Query → Prop
  | intro {items items' : List SelectItem} {where? where?' : Option Expr}
      {groupBy groupBy' : List Expr} {tables tables' : List TableRef} {scope : Scope}
      (sources : TablesTyped schema tables tables' scope)
      (joins : JoinsTyped [] scope tables tables')
      (selected : List.Forall₂ (SelectItem.Typed scope) items items')
      (condition : Option.Rel (Expr.Typed scope) where? where?')
      (grouped : List.Forall₂ (Expr.Typed scope) groupBy groupBy') :
      Query.Typed schema ⟨items, where?, groupBy, tables⟩ ⟨items', where?', groupBy', tables'⟩

/-- The sources of the references fit the schema, are the second ones with their notes, and make up
    the scope. Their joins are left open. -/
inductive TablesTyped (schema : Schema) : List TableRef → List TableRef → Scope → Prop
  | nil : TablesTyped schema [] [] []
  | cons {t t' : TableRef} {ts ts' : List TableRef} {columns : List VisibleColumn} {scope : Scope}
      (source : Source.Typed schema t.source t'.source columns) (sameAlias : t'.alias? = t.alias?)
      (rest : TablesTyped schema ts ts' scope) :
      TablesTyped schema (t :: ts) (t' :: ts') (⟨t.visibleName?, columns⟩ :: scope)

/-- The source fits the schema, is the second one with its notes, and puts the columns in sight:
    those of its table, or the items of its view with their notes. -/
inductive Source.Typed (schema : Schema) : Source → Source → List VisibleColumn → Prop
  | table {name : String} {table : Table} (known : schema name = some table) :
      Source.Typed schema (.table name) (.table name) (table.columns.map Column.visible)
  | view {query query' : Query} (typed : Query.Typed schema query query') :
      Source.Typed schema (.view query) (.view query') query'.visibleColumns

end

/-! ### Expressions -/

theorem DataType.isOperand_iff {type : DataType} :
    type.isOperand = true ↔ type = .unknown ∨ type.isNumeric = true := by
  simp [DataType.isOperand]

theorem ArithOp.resultType_eq_ok {op : ArithOp} {left right type : DataType} :
    op.resultType left right = .ok type ↔
      left.isOperand = true ∧ right.isOperand = true ∧ left.widen right = type := by
  unfold ArithOp.resultType
  by_cases hl : left.isOperand = true <;> by_cases hr : right.isOperand = true <;> simp [hl, hr]

theorem CompareOp.check_eq_ok {op : CompareOp} {left right : DataType} {u : Unit} :
    op.check left right = .ok u ↔ left.comparable right = true := by
  unfold CompareOp.check
  by_cases h : left.comparable right = true <;> simp [h]

theorem Field.resolve_eq_ok {scope : Scope} {f f' : Field} :
    f.resolve scope = .ok f' ↔ ∃ p c, scope.Means f p ∧ scope.at? p = some c ∧ f' = f.noted c := by
  simp only [Field.resolve, bind_eq_ok, pure_eq_ok, Scope.resolve_eq_ok_iff]
  constructor
  · intro given
    rcases given with ⟨c, ⟨p, hmeans, hat⟩, rfl⟩
    exact ⟨p, c, hmeans, hat, rfl⟩
  · intro given
    rcases given with ⟨p, c, hmeans, hat, rfl⟩
    exact ⟨c, ⟨p, hmeans, hat⟩, rfl⟩

/-- Resolving an expression succeeds where it fits the scope, and adds the notes. -/
theorem Expr.resolve_eq_ok_iff {scope : Scope} {e e' : Expr} :
    e.resolve scope = .ok e' ↔ e.Typed scope e' := by
  induction e generalizing e' with
  | field f =>
    simp only [Expr.resolve, map_eq_ok, Field.resolve_eq_ok]
    constructor
    · intro given
      rcases given with ⟨f', ⟨p, c, hmeans, hat, rfl⟩, rfl⟩
      exact .field hmeans hat
    · intro h
      cases h with
      | field hmeans hat => exact ⟨_, ⟨_, _, hmeans, hat, rfl⟩, rfl⟩
  | literal kind text =>
    constructor
    · intro h
      cases h
      exact .literal kind text
    · intro h
      cases h
      rfl
  | starCall name =>
    constructor
    · intro h
      cases h
      exact .starCall name
    · intro h
      cases h
      rfl
  | arith op left right note ihl ihr =>
    simp only [Expr.resolve, bind_eq_ok, pure_eq_ok, ihl, ihr, ArithOp.resultType_eq_ok,
      DataType.isOperand_iff]
    constructor
    · intro given
      rcases given with ⟨left', hleft, right', hright, type, ⟨leftOk, rightOk, rfl⟩, rfl⟩
      exact .arith hleft hright leftOk rightOk
    · intro h
      cases h with
      | arith hleft hright leftOk rightOk =>
        exact ⟨_, hleft, _, hright, _, ⟨leftOk, rightOk, rfl⟩, rfl⟩
  | compare op left right ihl ihr =>
    simp only [Expr.resolve, bind_eq_ok, pure_eq_ok, ihl, ihr, CompareOp.check_eq_ok]
    constructor
    · intro given
      rcases given with ⟨left', hleft, right', hright, _, comparable, rfl⟩
      exact .compare hleft hright comparable
    · intro h
      cases h with
      | compare hleft hright comparable => exact ⟨_, hleft, _, hright, (), comparable, rfl⟩

theorem Expr.resolve?_eq_ok_iff {scope : Scope} {e? e?' : Option Expr} :
    Expr.resolve? scope e? = .ok e?' ↔ Option.Rel (Expr.Typed scope) e? e?' := by
  cases e? with
  | none =>
    constructor
    · intro h
      cases h
      exact .none
    · intro h
      cases h
      rfl
  | some e =>
    simp only [Expr.resolve?, map_eq_ok, Expr.resolve_eq_ok_iff]
    constructor
    · intro given
      rcases given with ⟨e', he, rfl⟩
      exact .some he
    · intro h
      cases h with
      | some he => exact ⟨_, he, rfl⟩

/-! ### Clauses and joins -/

theorem SelectItem.resolve_eq_ok_iff {scope : Scope} {item item' : SelectItem} :
    item.resolve scope = .ok item' ↔ item.Typed scope item' := by
  simp only [SelectItem.resolve, bind_eq_ok, pure_eq_ok, Expr.resolve_eq_ok_iff]
  constructor
  · intro given
    rcases given with ⟨expr, hexpr, rfl⟩
    exact ⟨hexpr, rfl⟩
  · intro given
    rcases given with ⟨hexpr, halias⟩
    obtain ⟨expr', alias?'⟩ := item'
    cases halias
    exact ⟨expr', hexpr, rfl⟩

theorem Join.resolve_eq_ok_iff {scope : Scope} {join join' : Join} :
    join.resolve scope = .ok join' ↔ join.Typed scope join' := by
  simp only [Join.resolve, bind_eq_ok, pure_eq_ok, Expr.resolve?_eq_ok_iff]
  constructor
  · intro given
    rcases given with ⟨on?, hon, rfl⟩
    exact ⟨rfl, rfl, hon⟩
  · intro given
    rcases given with ⟨hop, hleft, hon⟩
    obtain ⟨op', on?', left'⟩ := join'
    cases hop
    cases hleft
    exact ⟨on?', hon, rfl⟩

theorem Join.resolve?_eq_ok_iff {scope : Scope} {join? join?' : Option Join} :
    Join.resolve? scope join? = .ok join?' ↔ Option.Rel (Join.Typed scope) join? join?' := by
  cases join? with
  | none =>
    constructor
    · intro h
      cases h
      exact .none
    · intro h
      cases h
      rfl
  | some join =>
    simp only [Join.resolve?, map_eq_ok, Join.resolve_eq_ok_iff]
    constructor
    · intro given
      rcases given with ⟨join', hjoin, rfl⟩
      exact .some hjoin
    · intro h
      cases h with
      | some hjoin => exact ⟨_, hjoin, rfl⟩

theorem Schema.columns_eq_ok {schema : Schema} {name : String} {columns : List VisibleColumn} :
    schema.columns name = .ok columns ↔
      ∃ table, schema name = some table ∧ table.columns.map Column.visible = columns := by
  unfold Schema.columns
  cases schema name with
  | none => simp
  | some table => simp

/-- The joins of references of which the first is split off. -/
theorem joinsTyped_cons {outer scope : Scope} {entry : ScopeEntry} {t t' : TableRef}
    {ts ts' : List TableRef} :
    JoinsTyped outer (entry :: scope) (t :: ts) (t' :: ts') ↔
      Option.Rel (Join.Typed (outer ++ [entry])) t.join? t'.join? ∧
        JoinsTyped (outer ++ [entry]) scope ts ts' := by
  constructor
  · intro h
    refine ⟨h 0 t t' rfl rfl, ?_⟩
    intro i u u' hu hu'
    have hjoin := h (i + 1) u u' hu hu'
    rwa [List.take_succ_cons, List.append_cons] at hjoin
  · rintro ⟨hfirst, hrest⟩ i u u' hu hu'
    cases i with
    | zero =>
      cases hu
      cases hu'
      exact hfirst
    | succ i =>
      rw [List.take_succ_cons, List.append_cons]
      exact hrest i u u' hu hu'

/-! ### Queries -/

theorem Query.resolveClauses_eq_ok {scope : Scope} {tables : List TableRef} {query query' : Query} :
    Query.resolveClauses scope tables query = .ok query' ↔
      ∃ items where? groupBy, List.Forall₂ (SelectItem.Typed scope) query.items items ∧
        Option.Rel (Expr.Typed scope) query.where? where? ∧
        List.Forall₂ (Expr.Typed scope) query.groupBy groupBy ∧
        query' = ⟨items, where?, groupBy, tables⟩ := by
  simp only [Query.resolveClauses, bind_eq_ok, pure_eq_ok, mapM_eq_ok, Expr.resolve?_eq_ok_iff,
    SelectItem.resolve_eq_ok_iff, Expr.resolve_eq_ok_iff]
  constructor
  · intro given
    rcases given with ⟨items, hitems, where?, hwhere, groupBy, hgroup, rfl⟩
    exact ⟨items, where?, groupBy, hitems, hwhere, hgroup, rfl⟩
  · intro given
    rcases given with ⟨items, where?, groupBy, hitems, hwhere, hgroup, rfl⟩
    exact ⟨items, hitems, where?, hwhere, groupBy, hgroup, rfl⟩

mutual

/-- Analysis answers exactly the queries that typing relates. -/
theorem Query.analyze_eq_ok_iff (schema : Schema) :
    ∀ query query' : Query, query.analyze schema = .ok query' ↔ query.Typed schema query'
  | ⟨items, where?, groupBy, tables⟩, query' => by
    simp only [Query.analyze, bind_eq_ok, Query.resolveClauses_eq_ok]
    constructor
    · intro given
      rcases given with
        ⟨⟨scope, tables'⟩, htables, items', where?', groupBy', hitems, hwhere, hgroup, rfl⟩
      obtain ⟨more, rfl, hsources, hjoins⟩ :=
        (analyzeTables_eq_ok_iff schema tables [] scope tables').1 htables
      exact .intro hsources hjoins hitems hwhere hgroup
    · intro h
      cases h with
      | intro hsources hjoins hitems hwhere hgroup =>
        refine ⟨(_, _), (analyzeTables_eq_ok_iff schema tables [] _ _).2
          ⟨_, rfl, hsources, hjoins⟩, _, _, _, hitems, hwhere, hgroup, rfl⟩

/-- The references of a FROM clause, behind those of an outer scope. -/
theorem analyzeTables_eq_ok_iff (schema : Schema) :
    ∀ (tables : List TableRef) (outer scope : Scope) (tables' : List TableRef),
      analyzeTables schema outer tables = .ok (scope, tables') ↔
        ∃ more, scope = outer ++ more ∧ TablesTyped schema tables tables' more ∧
          JoinsTyped outer more tables tables'
  | [], outer, scope, tables' => by
    simp only [analyzeTables, Except.ok.injEq, Prod.mk.injEq]
    constructor
    · intro given
      rcases given with ⟨rfl, rfl⟩
      exact ⟨[], (List.append_nil _).symm, .nil, fun i t t' ht => by cases ht⟩
    · intro given
      rcases given with ⟨more, rfl, hsources, -⟩
      cases hsources
      exact ⟨(List.append_nil _).symm, rfl⟩
  | ⟨source, alias?, join?⟩ :: ts, outer, scope, tables' => by
    simp only [analyzeTables, TableRef.analyze, bind_eq_ok, pure_eq_ok, Prod.exists,
      Source.analyze_eq_ok_iff schema source, Join.resolve?_eq_ok_iff, Prod.mk.injEq]
    constructor
    · intro given
      rcases given with
        ⟨_, _, ⟨source', columns, hsource, join?', hjoin, rfl, rfl⟩, _, ts', hts, rfl, rfl⟩
      obtain ⟨more, rfl, hrest, hjoins⟩ := (analyzeTables_eq_ok_iff schema ts _ _ _).1 hts
      refine ⟨_ :: more, (List.append_cons ..).symm, .cons hsource rfl hrest, ?_⟩
      exact joinsTyped_cons.2 ⟨hjoin, hjoins⟩
    · intro given
      rcases given with ⟨more, rfl, hsources, hjoins⟩
      cases hsources with
      | @cons _ t' _ ts' columns rest hsource halias hrest =>
        obtain ⟨source', alias?', join?'⟩ := t'
        cases halias
        obtain ⟨hjoin, hjoins⟩ := joinsTyped_cons.1 hjoins
        refine ⟨_, _, ⟨source', columns, hsource, join?', hjoin, rfl, rfl⟩, _, ts', ?_, rfl, rfl⟩
        exact (analyzeTables_eq_ok_iff schema ts _ _ _).2
          ⟨rest, List.append_cons .., hrest, hjoins⟩

/-- A source with the columns it puts in sight. -/
theorem Source.analyze_eq_ok_iff (schema : Schema) :
    ∀ (source source' : Source) (columns : List VisibleColumn),
      source.analyze schema = .ok (source', columns) ↔ source.Typed schema source' columns
  | .table name, source', columns => by
    simp only [Source.analyze, bind_eq_ok, pure_eq_ok, Schema.columns_eq_ok, Prod.mk.injEq]
    constructor
    · intro given
      rcases given with ⟨_, ⟨table, hknown, rfl⟩, rfl, rfl⟩
      exact .table hknown
    · intro h
      cases h with
      | table hknown => exact ⟨_, ⟨_, hknown, rfl⟩, rfl, rfl⟩
  | .view query, source', columns => by
    simp only [Source.analyze, bind_eq_ok, pure_eq_ok, Prod.mk.injEq,
      Query.analyze_eq_ok_iff schema query]
    constructor
    · intro given
      rcases given with ⟨query', htyped, rfl, rfl⟩
      exact .view htyped
    · intro h
      cases h with
      | view htyped => exact ⟨_, htyped, rfl, rfl⟩

end

/-! ### Statements -/

/-- The statement fits the schema, and is the second one with its notes. Its target, if it has one,
    is a table of the schema. -/
inductive Statement.Typed (schema : Schema) : Statement → Statement → Prop
  | select {query query' : Query} (typed : query.Typed schema query') :
      Typed schema (.select query) (.select query')
  | insert {target? : Option String} {query query' : Query}
      (known : ∀ name ∈ target?, (schema name).isSome = true)
      (typed : query.Typed schema query') :
      Typed schema (.insert target? query) (.insert target? query')
  | load {path table : String} {overwrite : Bool} (known : (schema table).isSome = true) :
      Typed schema (.load path table overwrite) (.load path table overwrite)

theorem Schema.require_eq_ok {schema : Schema} {name : String} {u : Unit} :
    schema.require name = .ok u ↔ (schema name).isSome = true := by
  unfold Schema.require
  by_cases h : (schema name).isSome = true <;> simp [h]

theorem Schema.require?_eq_ok {schema : Schema} {name? : Option String} {u : Unit} :
    schema.require? name? = .ok u ↔ ∀ name ∈ name?, (schema name).isSome = true := by
  cases name? with
  | none => simp [Schema.require?]
  | some name => simp [Schema.require?, Schema.require_eq_ok]

/-- Analysis answers exactly the statements that typing relates. -/
theorem Statement.analyze_eq_ok_iff {schema : Schema} {s r : Statement} :
    s.analyze schema = .ok r ↔ s.Typed schema r := by
  cases s with
  | select query =>
    simp only [Statement.analyze, map_eq_ok, Query.analyze_eq_ok_iff]
    constructor
    · intro given
      rcases given with ⟨query', typed, rfl⟩
      exact .select typed
    · intro h
      cases h with
      | select typed => exact ⟨_, typed, rfl⟩
  | insert target? query =>
    simp only [Statement.analyze, bind_eq_ok, pure_eq_ok, Schema.require?_eq_ok,
      Query.analyze_eq_ok_iff]
    constructor
    · intro given
      rcases given with ⟨_, known, query', typed, rfl⟩
      exact .insert known typed
    · intro h
      cases h with
      | insert known typed => exact ⟨(), known, _, typed, rfl⟩
  | load path table overwrite =>
    simp only [Statement.analyze, bind_eq_ok, pure_eq_ok, Schema.require_eq_ok]
    constructor
    · intro given
      rcases given with ⟨_, known, rfl⟩
      exact .load known
    · intro h
      cases h with
      | load known => exact ⟨(), known, rfl⟩

/-- Analyzing a statement that selects succeeds where its query fits the schema, and answers the
    query with its notes. -/
theorem Statement.analyze_select_eq_ok_iff (schema : Schema) (query : Query) (s : Statement) :
    (Statement.select query).analyze schema = .ok s ↔
      ∃ query', s = .select query' ∧ query.Typed schema query' := by
  simp only [Statement.analyze, map_eq_ok, Query.analyze_eq_ok_iff]
  constructor
  · intro given
    rcases given with ⟨query', typed, rfl⟩
    exact ⟨query', rfl, typed⟩
  · intro given
    rcases given with ⟨query', rfl, typed⟩
    exact ⟨query', typed, rfl⟩

end SqlGuard
