import SqlGuard.Lowering.Expr
import SqlGuard.Proofs.Analysis.Marks

/-!
# Analysis makes notes and nothing else

The types and the protection of columns and the types of arithmetic are notes. Analysis takes no
notice of those that a statement has when it comes, and a statement differs from its result in them
alone. Main statement: `Statement.analyze_notes_only`.
-/

namespace SqlGuard

/-! ### Statements without notes -/

/-- The reference without its notes. -/
def Field.withoutNotes (f : Field) : Field := .unresolved f.qualifier f.name

/-- The expression without notes. -/
def Expr.withoutNotes : Expr → Expr
  | .field f => .field f.withoutNotes
  | .literal kind text => .literal kind text
  | .starCall name => .starCall name
  | .arith op left right _ => .arith op left.withoutNotes right.withoutNotes .unknown
  | .compare op left right => .compare op left.withoutNotes right.withoutNotes

/-- The item without notes. -/
def SelectItem.withoutNotes (item : SelectItem) : SelectItem :=
  { item with expr := item.expr.withoutNotes }

/-- The join, its condition without notes. -/
def Join.withoutNotes (join : Join) : Join :=
  { join with on? := join.on?.map Expr.withoutNotes }

mutual

/-- The query without notes at any depth. -/
def Query.withoutNotes : Query → Query
  | ⟨items, where?, groupBy, tables⟩ =>
    ⟨items.map SelectItem.withoutNotes, where?.map Expr.withoutNotes,
      groupBy.map Expr.withoutNotes, tablesWithoutNotes tables⟩

/-- The same for the references of a FROM clause. -/
def tablesWithoutNotes : List TableRef → List TableRef
  | [] => []
  | t :: ts => t.withoutNotes :: tablesWithoutNotes ts

/-- The same for a reference. -/
def TableRef.withoutNotes : TableRef → TableRef
  | ⟨source, alias?, join?⟩ => ⟨source.withoutNotes, alias?, join?.map Join.withoutNotes⟩

/-- The same for a source. -/
def Source.withoutNotes : Source → Source
  | .table name => .table name
  | .view query => .view query.withoutNotes

end

/-- The statement without notes at any depth. -/
def Statement.withoutNotes : Statement → Statement
  | .select query => .select query.withoutNotes
  | .insert target? query => .insert target? query.withoutNotes
  | .load path table overwrite => .load path table overwrite

/-! ### Analysis does not read notes -/

section Resolution

variable (scope : Scope)

theorem Expr.resolve_withoutNotes (e : Expr) : e.withoutNotes.resolve scope = e.resolve scope := by
  induction e with
  | field f => rfl
  | literal kind text => rfl
  | starCall name => rfl
  | arith op left right type ihl ihr => rw [withoutNotes, resolve, resolve, ihl, ihr]
  | compare op left right ihl ihr => rw [withoutNotes, resolve, resolve, ihl, ihr]

theorem Expr.resolve?_withoutNotes (e? : Option Expr) :
    Expr.resolve? scope (e?.map Expr.withoutNotes) = Expr.resolve? scope e? := by
  cases e? with
  | none => rfl
  | some e => exact congrArg (some <$> ·) (e.resolve_withoutNotes scope)

theorem SelectItem.resolve_withoutNotes (item : SelectItem) :
    item.withoutNotes.resolve scope = item.resolve scope := by
  rw [resolve, resolve, withoutNotes, Expr.resolve_withoutNotes]

theorem Join.resolve?_withoutNotes (join? : Option Join) :
    Join.resolve? scope (join?.map Join.withoutNotes) = Join.resolve? scope join? := by
  cases join? with
  | none => rfl
  | some join =>
    show some <$> join.withoutNotes.resolve scope = some <$> join.resolve scope
    rw [resolve, resolve, withoutNotes, Expr.resolve?_withoutNotes]

theorem Query.resolveClauses_withoutNotes (tables : List TableRef) (items : List SelectItem)
    (where? : Option Expr) (groupBy : List Expr) :
    Query.resolveClauses scope tables
        ⟨items.map SelectItem.withoutNotes, where?.map Expr.withoutNotes,
          groupBy.map Expr.withoutNotes, []⟩ =
      Query.resolveClauses scope tables ⟨items, where?, groupBy, []⟩ := by
  have hitem : SelectItem.resolve scope ∘ SelectItem.withoutNotes = SelectItem.resolve scope :=
    funext (SelectItem.resolve_withoutNotes scope)
  have hexpr : Expr.resolve scope ∘ Expr.withoutNotes = Expr.resolve scope :=
    funext (Expr.resolve_withoutNotes scope)
  simp only [resolveClauses, List.mapM_map, Expr.resolve?_withoutNotes, hitem, hexpr]

end Resolution

theorem TableRef.visibleName?_withoutNotes (source : Source) (alias? : Option String)
    (join? join?' : Option Join) :
    TableRef.visibleName? ⟨source.withoutNotes, alias?, join?'⟩ =
      TableRef.visibleName? ⟨source, alias?, join?⟩ := by
  cases alias? with
  | some name => rfl
  | none => cases source <;> rfl

mutual

/-- A query is analyzed as it is without its notes. -/
theorem Query.analyze_withoutNotes (schema : Schema) :
    ∀ query : Query, query.withoutNotes.analyze schema = query.analyze schema
  | ⟨items, where?, groupBy, tables⟩ => by
    simp only [Query.withoutNotes, Query.analyze, analyzeTables_withoutNotes schema tables,
      Query.resolveClauses_withoutNotes]

theorem analyzeTables_withoutNotes (schema : Schema) : ∀ (tables : List TableRef) (scope : Scope),
    analyzeTables schema scope (tablesWithoutNotes tables) = analyzeTables schema scope tables
  | [], _ => rfl
  | t :: ts, _ => by
    simp only [tablesWithoutNotes, analyzeTables, TableRef.analyze_withoutNotes schema t,
      analyzeTables_withoutNotes schema ts]

theorem TableRef.analyze_withoutNotes (schema : Schema) : ∀ (t : TableRef) (scope : Scope),
    t.withoutNotes.analyze schema scope = t.analyze schema scope
  | ⟨source, alias?, join?⟩, _ => by
    simp only [TableRef.withoutNotes, TableRef.analyze, Source.analyze_withoutNotes schema source,
      TableRef.visibleName?_withoutNotes source alias? join?, Join.resolve?_withoutNotes]

theorem Source.analyze_withoutNotes (schema : Schema) :
    ∀ source : Source, source.withoutNotes.analyze schema = source.analyze schema
  | .table name => rfl
  | .view query => by
    simp only [Source.withoutNotes, Source.analyze, Query.analyze_withoutNotes schema query]

end

theorem Statement.analyze_withoutNotes (schema : Schema) (s : Statement) :
    s.withoutNotes.analyze schema = s.analyze schema := by
  cases s with
  | select query =>
    exact congrArg (Statement.select <$> ·) (query.analyze_withoutNotes schema)
  | insert target? query => rw [withoutNotes, analyze, analyze, query.analyze_withoutNotes schema]
  | load path table overwrite => rfl

/-! ### Analysis changes notes alone -/

theorem Expr.Typed.withoutNotes_eq {scope : Scope} {e e' : Expr} (typed : e.Typed scope e') :
    e'.withoutNotes = e.withoutNotes := by
  induction typed with
  | field means column => rfl
  | literal kind text => rfl
  | starCall name => rfl
  | arith _ _ _ _ ihl ihr => rw [withoutNotes, withoutNotes, ihl, ihr]
  | compare _ _ _ ihl ihr => rw [withoutNotes, withoutNotes, ihl, ihr]

theorem SelectItem.Typed.withoutNotes_eq {scope : Scope} {item item' : SelectItem}
    (typed : item.Typed scope item') : item'.withoutNotes = item.withoutNotes := by
  rw [withoutNotes, withoutNotes, typed.expr.withoutNotes_eq, typed.sameAlias]

theorem Join.Typed.withoutNotes_eq {scope : Scope} {join join' : Join}
    (typed : join.Typed scope join') : join'.withoutNotes = join.withoutNotes := by
  have hon := map_eq_of_rel typed.on fun _ _ he => he.withoutNotes_eq
  rw [withoutNotes, withoutNotes, hon, typed.op, typed.left]

mutual

/-- A query with its notes is the query that was analyzed, up to notes. -/
theorem Query.Typed.withoutNotes_eq {schema : Schema} : ∀ {query query' : Query},
    query.Typed schema query' → query'.withoutNotes = query.withoutNotes
  | ⟨items, where?, groupBy, tables⟩, query', typed => by
    cases typed with
    | intro sources joins selected condition grouped =>
      rw [Query.withoutNotes, Query.withoutNotes, TablesTyped.withoutNotes_eq sources joins,
        map_eq_of_forall₂ selected fun _ _ h => h.withoutNotes_eq,
        map_eq_of_rel condition fun _ _ h => h.withoutNotes_eq,
        map_eq_of_forall₂ grouped fun _ _ h => h.withoutNotes_eq]

theorem TablesTyped.withoutNotes_eq {schema : Schema} : ∀ {tables tables' : List TableRef}
    {outer scope : Scope}, TablesTyped schema tables tables' scope →
      JoinsTyped outer scope tables tables' →
        tablesWithoutNotes tables' = tablesWithoutNotes tables
  | [], _, _, _, sources, _ => by
    cases sources
    rfl
  | ⟨source, alias?, join?⟩ :: ts, _, _, _, sources, joins => by
    cases sources with
    | @cons _ t' _ ts' columns scope hsource halias rest =>
      obtain ⟨source', alias?', join?'⟩ := t'
      cases halias
      obtain ⟨hjoin, hjoins⟩ := joinsTyped_cons.1 joins
      rw [tablesWithoutNotes, tablesWithoutNotes, TableRef.withoutNotes, TableRef.withoutNotes,
        Source.Typed.withoutNotes_eq hsource, TablesTyped.withoutNotes_eq rest hjoins,
        map_eq_of_rel hjoin fun _ _ h => h.withoutNotes_eq]

theorem Source.Typed.withoutNotes_eq {schema : Schema} : ∀ {source source' : Source}
    {columns : List VisibleColumn}, source.Typed schema source' columns →
      source'.withoutNotes = source.withoutNotes
  | .table name, _, _, typed => by
    cases typed
    rfl
  | .view query, _, _, typed => by
    cases typed with
    | view typed =>
      rw [Source.withoutNotes, Source.withoutNotes, Query.Typed.withoutNotes_eq typed]

end

theorem Statement.withoutNotes_of_analyze {schema : Schema} {s r : Statement}
    (analyzed : s.analyze schema = .ok r) : r.withoutNotes = s.withoutNotes := by
  cases analyze_eq_ok_iff.1 analyzed with
  | select typed => rw [withoutNotes, withoutNotes, typed.withoutNotes_eq]
  | insert known typed => rw [withoutNotes, withoutNotes, typed.withoutNotes_eq]
  | load known => rfl

/-- Statements that differ in their notes alone have one result or one error. A result differs from
    what was analyzed in notes alone, so it is written the same, and analyzed again it stays as it
    is. -/
theorem Statement.analyze_notes_only {schema : Schema} {s s' : Statement}
    (same : s'.withoutNotes = s.withoutNotes) :
    s'.analyze schema = s.analyze schema ∧
      ∀ r, s.analyze schema = .ok r →
        r.withoutNotes = s.withoutNotes ∧ r.render = s.render ∧ r.analyze schema = .ok r := by
  have independent : ∀ u : Statement, u.withoutNotes = s.withoutNotes →
      u.analyze schema = s.analyze schema := by
    intro u hu
    rw [← u.analyze_withoutNotes, hu, s.analyze_withoutNotes]
  refine ⟨independent s' same, fun r analyzed => ?_⟩
  have hr := withoutNotes_of_analyze analyzed
  exact ⟨hr, render_of_analyze analyzed, (independent r hr).trans analyzed⟩

/-- An `INSERT` that joins a view with a table comes with notes that fit nothing in the catalog. -/
theorem Statement.analyze_notes_only_stale :
    let a : Column := { name := "a", type := .int, isSensitive := true }
    let b : Column := { name := "b", type := .double }
    let schema : Schema := fun name => if name = "t" then some ⟨"t", [a, b]⟩ else none
    let noted (type : DataType) (isProtected : Bool) : Statement :=
      let field (qualifier name : String) : Expr := .field ⟨qualifier, name, type, isProtected⟩
      let view : Query :=
        { items := [⟨.arith .add (field "" "a") (field "" "b") type, some "sum"⟩],
          tables := [⟨.table "t", none, none⟩] }
      let on : Expr := .compare .eq (field "v" "sum") (field "t" "b")
      .insert (some "t") { items := [⟨field "v" "sum", none⟩], tables :=
        [⟨.view view, some "v", none⟩, ⟨.table "t", none, some ⟨.leftOuter, some on, 0⟩⟩] }
    let s := noted .unknown false
    let s' := noted .string true
    s'.withoutNotes = s.withoutNotes ∧ s'.analyze schema = s.analyze schema ∧
      ∃ r, s.analyze schema = .ok r ∧ r.withoutNotes = s.withoutNotes ∧ r.render = s.render ∧
        r.analyze schema = .ok r ∧ r.isProtected = true := by
  intro a b schema noted s s'
  have same : s'.withoutNotes = s.withoutNotes := rfl
  have hprotected : (s.analyze schema).map Statement.isProtected = .ok true := by cbv
  obtain ⟨hsame, results⟩ := Statement.analyze_notes_only same
  refine ⟨same, hsame, ?_⟩
  cases hr : s.analyze schema with
  | error e =>
    rw [hr] at hprotected
    cases hprotected
  | ok r =>
    rw [hr] at hprotected
    obtain ⟨hnotes, hrender, hagain⟩ := results r hr
    exact ⟨r, rfl, hnotes, hrender, hagain, Except.ok.inj hprotected⟩

end SqlGuard
