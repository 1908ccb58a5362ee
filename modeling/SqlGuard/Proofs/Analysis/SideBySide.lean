import SqlGuard.Analysis.Statement
import SqlGuard.Proofs.Analysis.Counting
import SqlGuard.Proofs.Outcome
import SqlGuard.Proofs.Statement.Occurrence

/-!
# Two analyses side by side

One statement is analyzed against two sets of tables. Where the columns of its tables are alike, so
are all scopes, and the two results differ in the protection of columns at most. What "alike" means
for columns, and which failures are let pass, is left open: a `Likeness` says it. Main statement:
`Statement.analyze_alike`.
-/

namespace SqlGuard

/-! ### Computations that are compared -/

/-- Which failures are let pass when two computations are compared: those of both of them, and those
    of one of them alone. A failure that is let pass alone is let pass together with any other. -/
structure Leeway where
  both : AnalysisError → AnalysisError → Prop
  first : AnalysisError → Prop
  second : AnalysisError → Prop
  both_self : ∀ e, both e e
  both_of_first : ∀ {e} e', first e → both e e'
  both_of_second : ∀ e {e'}, second e' → both e e'

/-- The answers of the two computations are related, or their failures are let pass. -/
inductive Leeway.Match (leeway : Leeway) {α β : Type} (R : α → β → Prop) :
    Analyzed α → Analyzed β → Prop
  | ok {a : α} {b : β} (related : R a b) : Match leeway R (.ok a) (.ok b)
  | both {e e' : AnalysisError} (pass : leeway.both e e') : Match leeway R (.error e) (.error e')
  | first {e : AnalysisError} (pass : leeway.first e) (b : β) : Match leeway R (.error e) (.ok b)
  | second (a : α) {e' : AnalysisError} (pass : leeway.second e') :
      Match leeway R (.ok a) (.error e')

namespace Leeway.Match

variable {leeway : Leeway} {α β γ δ : Type} {R : α → β → Prop} {S : γ → δ → Prop}
  {x : Analyzed α} {y : Analyzed β}

/-- Two failures of one kind. -/
theorem error (e : AnalysisError) : leeway.Match R (.error e) (.error e) :=
  .both (leeway.both_self e)

theorem bind {f : α → Analyzed γ} {g : β → Analyzed δ} (h : leeway.Match R x y)
    (hfg : ∀ a b, R a b → leeway.Match S (f a) (g b)) : leeway.Match S (x >>= f) (y >>= g) := by
  cases h with
  | ok related => exact hfg _ _ related
  | both pass => exact .both pass
  | @first e pass b =>
    show leeway.Match S (.error e) (g b)
    cases g b with
    | error e' => exact .both (leeway.both_of_first e' pass)
    | ok d => exact .first pass d
  | @second a e' pass =>
    show leeway.Match S (f a) (.error e')
    cases f a with
    | error e => exact .both (leeway.both_of_second e pass)
    | ok c => exact .second c pass

theorem map {f : α → γ} {g : β → δ} (h : leeway.Match R x y)
    (hfg : ∀ a b, R a b → S (f a) (g b)) : leeway.Match S (f <$> x) (g <$> y) := by
  cases h with
  | ok related => exact .ok (hfg _ _ related)
  | both pass => exact .both pass
  | first pass b => exact .first pass (g b)
  | second a pass => exact .second (f a) pass

/-- Where no failure is let pass alone, both computations fail or both answer. -/
theorem outcomes (h : leeway.Match R x y) (first : ∀ e, ¬leeway.first e)
    (second : ∀ e, ¬leeway.second e) :
    (∃ e e', x = .error e ∧ y = .error e' ∧ leeway.both e e') ∨
      ∃ a b, x = .ok a ∧ y = .ok b ∧ R a b := by
  cases h with
  | ok related => exact .inr ⟨_, _, rfl, rfl, related⟩
  | both pass => exact .inl ⟨_, _, rfl, rfl, pass⟩
  | first pass b => exact absurd pass (first _)
  | second a pass => exact absurd pass (second _)

/-- One list, element by element. -/
theorem mapM {ι : Type} {f : ι → Analyzed α} {g : ι → Analyzed β} {xs : List ι}
    (each : ∀ x ∈ xs, leeway.Match R (f x) (g x)) :
    leeway.Match (List.Forall₂ R) (xs.mapM f) (xs.mapM g) := by
  induction xs with
  | nil => exact .ok .nil
  | cons x xs ih =>
    rw [List.forall_mem_cons] at each
    rw [List.mapM_cons, List.mapM_cons]
    exact each.1.bind fun a b hab => (ih each.2).bind fun as bs habs => .ok (.cons hab habs)

/-- One list and its image, element by element, where the answers for the one are the images of
    those for the other. -/
theorem mapM_map {ι κ : Type} {f : ι → Analyzed α} {g : κ → Analyzed β} {h : ι → κ} {k : α → β}
    {xs : List ι} (each : ∀ x ∈ xs, leeway.Match (fun a b => b = k a) (f x) (g (h x))) :
    leeway.Match (fun as bs => bs = as.map k) (xs.mapM f) ((xs.map h).mapM g) := by
  induction xs with
  | nil => exact .ok rfl
  | cons x xs ih =>
    rw [List.forall_mem_cons] at each
    rw [List.map_cons, List.mapM_cons, List.mapM_cons]
    refine each.1.bind fun a b hab => (ih each.2).bind fun as bs habs => ?_
    rw [hab, habs]
    exact .ok rfl

/-- The only elements of two lists that are related element by element, where failures for one
    reason are let pass. -/
theorem theOnly_of_both {none none' several several' : AnalysisError}
    (hnone : leeway.both none none') (hseveral : leeway.both several several') {as : List α}
    {bs : List β} (h : List.Forall₂ R as bs) :
    leeway.Match R (Scope.theOnly none several as) (Scope.theOnly none' several' bs) := by
  match h with
  | .nil => exact .both hnone
  | .cons hab .nil => exact .ok hab
  | .cons _ (.cons _ _) => exact .both hseveral

theorem theOnly (none several : AnalysisError) {as : List α} {bs : List β}
    (h : List.Forall₂ R as bs) :
    leeway.Match R (Scope.theOnly none several as) (Scope.theOnly none several bs) :=
  theOnly_of_both (leeway.both_self none) (leeway.both_self several) h

end Leeway.Match

/-! ### Statements that are alike -/

/-- A relation between flags that holds of their disjunctions if it holds of them. -/
structure OrClosed (P : Bool → Bool → Prop) : Prop where
  false : P false false
  or : ∀ {a a' b b'}, P a a' → P b b' → P (a || b) (a' || b')

variable {P : Bool → Bool → Prop}

/-- Columns that differ in their protection at most, which is related by `P`. -/
structure VisibleColumn.Alike (P : Bool → Bool → Prop) (c c' : VisibleColumn) : Prop where
  name : c.name = c'.name
  type : c.type = c'.type
  isProtected : P c.isProtected c'.isProtected

/-- Expressions that differ in the protection of their columns at most. -/
inductive Expr.Alike (P : Bool → Bool → Prop) : Expr → Expr → Prop
  | field (f : Field) {b b' : Bool} (isProtected : P b b') :
      Alike P (.field { f with isProtected := b }) (.field { f with isProtected := b' })
  | literal (kind : LiteralKind) (text : String) : Alike P (.literal kind text) (.literal kind text)
  | starCall (name : String) : Alike P (.starCall name) (.starCall name)
  | arith (op : ArithOp) {left left' right right' : Expr} (type : DataType)
      (hleft : Alike P left left') (hright : Alike P right right') :
      Alike P (.arith op left right type) (.arith op left' right' type)
  | compare (op : CompareOp) {left left' right right' : Expr} (hleft : Alike P left left')
      (hright : Alike P right right') :
      Alike P (.compare op left right) (.compare op left' right')

/-- Items that differ in the protection of their columns at most. -/
structure SelectItem.Alike (P : Bool → Bool → Prop) (item item' : SelectItem) : Prop where
  expr : item.expr.Alike P item'.expr
  sameAlias : item.alias? = item'.alias?

/-- Joins that differ in the protection of the columns in their conditions at most. -/
structure Join.Alike (P : Bool → Bool → Prop) (join join' : Join) : Prop where
  op : join.op = join'.op
  left : join.left = join'.left
  on : Option.Rel (Expr.Alike P) join.on? join'.on?

mutual

/-- Queries that differ in the protection of their columns at most, at any depth. -/
inductive Query.Alike (P : Bool → Bool → Prop) : Query → Query → Prop
  | intro {items items' : List SelectItem} {where? where?' : Option Expr}
      {groupBy groupBy' : List Expr} {tables tables' : List TableRef}
      (selected : List.Forall₂ (SelectItem.Alike P) items items')
      (condition : Option.Rel (Expr.Alike P) where? where?')
      (grouped : List.Forall₂ (Expr.Alike P) groupBy groupBy')
      (sources : TablesAlike P tables tables') :
      Query.Alike P ⟨items, where?, groupBy, tables⟩ ⟨items', where?', groupBy', tables'⟩

/-- The same for the references of a FROM clause. -/
inductive TablesAlike (P : Bool → Bool → Prop) : List TableRef → List TableRef → Prop
  | nil : TablesAlike P [] []
  | cons {source source' : Source} {alias? : Option String} {join? join?' : Option Join}
      {ts ts' : List TableRef} (hsource : Source.Alike P source source')
      (hjoin : Option.Rel (Join.Alike P) join? join?') (rest : TablesAlike P ts ts') :
      TablesAlike P (⟨source, alias?, join?⟩ :: ts) (⟨source', alias?, join?'⟩ :: ts')

/-- The same for sources. -/
inductive Source.Alike (P : Bool → Bool → Prop) : Source → Source → Prop
  | table (name : String) : Source.Alike P (.table name) (.table name)
  | view {query query' : Query} (hquery : Query.Alike P query query') :
      Source.Alike P (.view query) (.view query')

end

/-- The same for statements. -/
inductive Statement.Alike (P : Bool → Bool → Prop) : Statement → Statement → Prop
  | select {query query' : Query} (hquery : query.Alike P query') :
      Alike P (.select query) (.select query')
  | insert (target? : Option String) {query query' : Query} (hquery : query.Alike P query') :
      Alike P (.insert target? query) (.insert target? query')
  | load (path table : String) (overwrite : Bool) :
      Alike P (.load path table overwrite) (.load path table overwrite)

/-! ### Likeness of columns -/

/-- How the columns of table references may differ in two analyses, and which failures of these are
    let pass: such that columns of views are alike, and a name means columns that are alike. -/
structure Likeness extends Leeway where
  /-- How the protection of columns may differ. -/
  flags : Bool → Bool → Prop
  flags_or : OrClosed flags
  /-- How the columns of a table reference may differ. -/
  columns : List VisibleColumn → List VisibleColumn → Prop
  columns_nil : columns [] []
  columns_append : ∀ {as as' bs bs'}, columns as as' → columns bs bs' →
    columns (as ++ bs) (as' ++ bs')
  columns_of_forall₂ : ∀ {cs cs'}, List.Forall₂ (VisibleColumn.Alike flags) cs cs' → columns cs cs'
  theOnly_named : ∀ {cs cs'} (none : AnalysisError) (name : String), columns cs cs' →
    toLeeway.Match (VisibleColumn.Alike flags)
      (Scope.theOnly none (.ambiguous name) (columnsNamed name cs))
      (Scope.theOnly none (.ambiguous name) (columnsNamed name cs'))

variable {likeness : Likeness}

/-- Entries of scopes whose columns are alike. -/
structure ScopeEntry.Alike (likeness : Likeness) (entry entry' : ScopeEntry) : Prop where
  name : entry.name? = entry'.name?
  columns : likeness.columns entry.columns entry'.columns

/-- Scopes whose entries are alike. -/
def Scope.Alike (likeness : Likeness) (scope scope' : Scope) : Prop :=
  List.Forall₂ (ScopeEntry.Alike likeness) scope scope'

namespace Scope.Alike

variable {scope scope' : Scope}

theorem columns (h : Scope.Alike likeness scope scope') :
    likeness.columns scope.columns scope'.columns := by
  unfold Scope.columns
  induction h with
  | nil => exact likeness.columns_nil
  | cons hentry _ ih =>
    rw [List.flatMap_cons, List.flatMap_cons]
    exact likeness.columns_append hentry.columns ih

theorem entriesNamed (h : Scope.Alike likeness scope scope') (qualifier : String) :
    List.Forall₂ (ScopeEntry.Alike likeness) (scope.entriesNamed qualifier)
      (scope'.entriesNamed qualifier) := by
  unfold Scope.entriesNamed
  induction h with
  | nil => exact .nil
  | @cons entry entry' _ _ hentry _ ih =>
    simp only [List.filter_cons, ← hentry.name]
    split
    · exact .cons hentry ih
    · exact ih

/-- A reference means columns that are alike. -/
theorem resolve (h : Scope.Alike likeness scope scope') (qualifier name : String) :
    likeness.Match (VisibleColumn.Alike likeness.flags) (scope.resolve qualifier name)
      (scope'.resolve qualifier name) := by
  have hbehind : likeness.Match likeness.columns (scope.columnsBehind qualifier)
      (scope'.columnsBehind qualifier) := by
    unfold columnsBehind
    split
    · exact .ok h.columns
    · exact (Leeway.Match.theOnly _ _ (h.entriesNamed qualifier)).map fun _ _ entry => entry.columns
  rw [resolve_eq, resolve_eq]
  exact hbehind.bind fun _ _ hcolumns => likeness.theOnly_named _ name hcolumns

end Scope.Alike

/-! ### Expressions -/

namespace Expr.Alike

variable {e e' : Expr}

theorem type (h : e.Alike P e') : e.type = e'.type := by
  cases h <;> rfl

/-- The flags of expressions are related as those of their columns are. -/
theorem isProtected (h : e.Alike P e') (closed : OrClosed P) :
    P e.isProtected e'.isProtected := by
  induction h with
  | field f isProtected => exact isProtected
  | literal kind text => exact closed.false
  | starCall name => exact closed.false
  | arith op type _ _ ihl ihr => exact closed.or ihl ihr
  | compare op _ _ ihl ihr => exact closed.or ihl ihr

/-- Items with such expressions are seen from outside as columns that are alike. -/
theorem visible (h : e.Alike P e') (closed : OrClosed P) (i : Nat) (alias? : Option String) :
    VisibleColumn.Alike P (SelectItem.visible i ⟨e, alias?⟩)
      (SelectItem.visible i ⟨e', alias?⟩) where
  name := by
    cases alias? with
    | some name => rfl
    | none => cases h <;> rfl
  type := h.type
  isProtected := h.isProtected closed

end Expr.Alike

section Resolution

variable {scope scope' : Scope} (alike : Scope.Alike likeness scope scope')
include alike

theorem Expr.resolve_alike (e : Expr) :
    likeness.Match (Expr.Alike likeness.flags) (e.resolve scope) (e.resolve scope') := by
  induction e with
  | field f =>
    refine ((alike.resolve f.qualifier f.name).bind fun c c' hc => ?_).map fun _ _ h => h
    rw [hc.type]
    exact .ok (.field { f with type := c'.type } hc.isProtected)
  | literal kind text => exact .ok (.literal kind text)
  | starCall name => exact .ok (.starCall name)
  | arith op left right note ihl ihr =>
    refine ihl.bind fun l l' hl => ihr.bind fun r r' hr => ?_
    rw [hl.type, hr.type]
    cases op.resultType l'.type r'.type with
    | error e => exact .error e
    | ok type => exact .ok (.arith op type hl hr)
  | compare op left right ihl ihr =>
    refine ihl.bind fun l l' hl => ihr.bind fun r r' hr => ?_
    rw [hl.type, hr.type]
    cases op.check l'.type r'.type with
    | error e => exact .error e
    | ok _ => exact .ok (.compare op hl hr)

theorem Expr.resolve?_alike (e? : Option Expr) :
    likeness.Match (Option.Rel (Expr.Alike likeness.flags)) (Expr.resolve? scope e?)
      (Expr.resolve? scope' e?) := by
  cases e? with
  | none => exact .ok .none
  | some e => exact (e.resolve_alike alike).map fun _ _ => .some

theorem SelectItem.resolve_alike (item : SelectItem) :
    likeness.Match (SelectItem.Alike likeness.flags) (item.resolve scope) (item.resolve scope') :=
  (item.expr.resolve_alike alike).bind fun _ _ h => .ok ⟨h, rfl⟩

theorem Join.resolve?_alike (join? : Option Join) :
    likeness.Match (Option.Rel (Join.Alike likeness.flags)) (Join.resolve? scope join?)
      (Join.resolve? scope' join?) := by
  cases join? with
  | none => exact .ok .none
  | some join =>
    exact ((Expr.resolve?_alike alike join.on?).bind fun _ _ hon => .ok ⟨rfl, rfl, hon⟩).map
      fun _ _ => .some

theorem Query.resolveClauses_alike (query : Query) {tables tables' : List TableRef}
    (sources : TablesAlike likeness.flags tables tables') :
    likeness.Match (Query.Alike likeness.flags) (Query.resolveClauses scope tables query)
      (Query.resolveClauses scope' tables' query) :=
  (Leeway.Match.mapM fun item _ => item.resolve_alike alike).bind fun _ _ hitems =>
    (Expr.resolve?_alike alike query.where?).bind fun _ _ hwhere =>
      (Leeway.Match.mapM fun e _ => e.resolve_alike alike).bind fun _ _ hgroup =>
        .ok (.intro hitems hwhere hgroup sources)

end Resolution

/-! ### Queries and statements -/

/-- A table that the query names in a FROM clause, at any depth. -/
def Query.Names (query : Query) (name : String) : Prop :=
  ∃ inner t, query.Contains inner ∧ t ∈ inner.tables ∧ t.source = .table name

/-- A table that the statement names: in a FROM clause at any depth, or as its target. -/
inductive Statement.Names : Statement → String → Prop
  | query {s : Statement} {query : Query} {name : String} (selects : s.query? = some query)
      (names : query.Names name) : Names s name
  | insert (target : String) (query : Query) : Names (.insert (some target) query) target
  | load (path target : String) (overwrite : Bool) : Names (.load path target overwrite) target

/-- A query names the tables of its FROM clause, and those that its views name. -/
theorem Query.names_iff {query : Query} {name : String} :
    query.Names name ↔ ∃ t ∈ query.tables,
      t.source = .table name ∨ ∃ view, t.source = .view view ∧ view.Names name := by
  constructor
  · intro given
    rcases given with ⟨inner, t, inside, reference, source⟩
    rcases contains_iff.1 inside with rfl | ⟨u, reference', view, source', inside'⟩
    · exact ⟨t, reference, .inl source⟩
    · exact ⟨u, reference', .inr ⟨view, source', inner, t, inside', reference, source⟩⟩
  · intro given
    rcases given with ⟨t, reference, source | ⟨view, source, inner, u, inside, named⟩⟩
    · exact ⟨query, t, .self query, reference, source⟩
    · exact ⟨inner, u, .view reference source inside, named⟩

theorem Statement.names_select_iff {query : Query} {name : String} :
    (Statement.select query).Names name ↔ query.Names name := by
  constructor
  · intro named
    cases named with
    | query selects names =>
      cases selects
      exact names
  · exact .query rfl

theorem forall₂_mapIdx {α β : Type} {R : α → α → Prop} {S : β → β → Prop} {f : Nat → α → β}
    {xs ys : List α} (h : List.Forall₂ R xs ys) (hf : ∀ i x y, R x y → S (f i x) (f i y)) :
    List.Forall₂ S (xs.mapIdx f) (ys.mapIdx f) := by
  induction h generalizing f with
  | nil => exact .nil
  | cons hxy _ ih =>
    rw [List.mapIdx_cons, List.mapIdx_cons]
    exact .cons (hf 0 _ _ hxy) (ih fun i => hf (i + 1))

theorem Query.Alike.visibleColumns {query query' : Query}
    (h : query.Alike likeness.flags query') :
    likeness.columns query.visibleColumns query'.visibleColumns := by
  cases h with
  | intro selected condition grouped sources =>
    refine likeness.columns_of_forall₂ (forall₂_mapIdx selected ?_)
    rintro i ⟨e, alias?⟩ ⟨e', alias?'⟩ ⟨hexpr, halias⟩
    cases halias
    exact hexpr.visible likeness.flags_or i alias?

section Analysis

variable {schema schema' : Schema}

/-- The answers for two sources: the sources with the columns they put in sight. -/
def SourcesMatch (likeness : Likeness) (answer answer' : Source × List VisibleColumn) : Prop :=
  answer.1.Alike likeness.flags answer'.1 ∧ likeness.columns answer.2 answer'.2

/-- References are alike if their sources are. Each adds an entry to the scope, and its join is
    resolved in the scope with this entry. -/
theorem analyzeTables_alike {tables : List TableRef} {scope scope' : Scope}
    (alike : Scope.Alike likeness scope scope')
    (each : ∀ t ∈ tables, likeness.Match (SourcesMatch likeness) (t.source.analyze schema)
      (t.source.analyze schema')) :
    likeness.Match (fun answer answer' => Scope.Alike likeness answer.1 answer'.1 ∧
        TablesAlike likeness.flags answer.2 answer'.2)
      (analyzeTables schema scope tables) (analyzeTables schema' scope' tables) := by
  induction tables generalizing scope scope' with
  | nil => exact .ok ⟨alike, .nil⟩
  | cons t ts ih =>
    obtain ⟨source, alias?, join?⟩ := t
    rw [List.forall_mem_cons] at each
    simp only [analyzeTables, TableRef.analyze, bind_assoc, pure_bind]
    refine each.1.bind fun answer answer' hsource => ?_
    have alike' : Scope.Alike likeness
        (scope ++ [⟨TableRef.visibleName? ⟨source, alias?, join?⟩, answer.2⟩])
        (scope' ++ [⟨TableRef.visibleName? ⟨source, alias?, join?⟩, answer'.2⟩]) :=
      List.rel_append alike (.cons ⟨rfl, hsource.2⟩ .nil)
    refine (Join.resolve?_alike alike' join?).bind fun on on' hon => ?_
    refine (ih alike' each.2).bind fun more more' hmore => ?_
    exact .ok ⟨hmore.1, .cons hsource.1 hon hmore.2⟩

/-- Analyses of a query match if the tables that it names put columns in sight that are alike. -/
theorem Query.analyze_alike (query : Query)
    (tables : ∀ name, query.Names name →
      likeness.Match likeness.columns (schema.columns name) (schema'.columns name)) :
    likeness.Match (Query.Alike likeness.flags) (query.analyze schema) (query.analyze schema') := by
  induction query using view_induction with
  | step query ih =>
    have each : ∀ t ∈ query.tables, likeness.Match (SourcesMatch likeness)
        (t.source.analyze schema) (t.source.analyze schema') := by
      intro t reference
      cases hsource : t.source with
      | table name =>
        have hcolumns := tables name (names_iff.2 ⟨t, reference, .inl hsource⟩)
        exact hcolumns.bind fun _ _ h => .ok ⟨.table name, h⟩
      | view view =>
        have hview := ih t reference view hsource fun name named =>
          tables name (names_iff.2 ⟨t, reference, .inr ⟨view, hsource, named⟩⟩)
        exact hview.bind fun _ _ h => .ok ⟨.view h, h.visibleColumns⟩
    obtain ⟨items, where?, groupBy, refs⟩ := query
    exact (analyzeTables_alike .nil each).bind fun answer answer' h =>
      Query.resolveClauses_alike h.1 _ h.2

theorem Schema.require_eq_map (schema : Schema) (name : String) :
    schema.require name = (fun _ => ()) <$> schema.columns name := by
  unfold Schema.require Schema.columns
  cases schema name <;> rfl

variable (likeness) in
/-- Analyses of a statement match if the tables that it names put columns in sight that are
    alike. -/
theorem Statement.analyze_alike (s : Statement)
    (tables : ∀ name, s.Names name →
      likeness.Match likeness.columns (schema.columns name) (schema'.columns name)) :
    likeness.Match (Statement.Alike likeness.flags) (s.analyze schema) (s.analyze schema') := by
  have target : ∀ name, s.Names name →
      likeness.Match (fun _ _ => True) (schema.require name) (schema'.require name) := by
    intro name named
    rw [Schema.require_eq_map, Schema.require_eq_map]
    exact (tables name named).map fun _ _ _ => trivial
  cases s with
  | select query =>
    have hquery := query.analyze_alike fun name named => tables name (names_select_iff.2 named)
    exact hquery.map fun _ _ => .select
  | insert target? query =>
    have hquery := query.analyze_alike fun name named => tables name (.query rfl named)
    have htarget : likeness.Match (fun _ _ => True) (schema.require? target?)
        (schema'.require? target?) := by
      cases target? with
      | none => exact .ok trivial
      | some name => exact target name (.insert name query)
    exact htarget.bind fun _ _ _ => hquery.bind fun _ _ h => .ok (.insert target? h)
  | load path name overwrite =>
    exact (target name (.load path name overwrite)).bind fun _ _ _ =>
      .ok (.load path name overwrite)

end Analysis

end SqlGuard
