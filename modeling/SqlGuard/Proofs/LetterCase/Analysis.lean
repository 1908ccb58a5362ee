import SqlGuard.Proofs.Analysis.Counting
import SqlGuard.Proofs.LetterCase.Folding

/-!
# Letter case in analysis

A reference means the same column in any letter case, in scopes whose names agree up to letter case;
so a statement in lower case is analyzed to the same, up to letter case, or refused for the same
reason. Main statement: `Statement.analyze_folded`.
-/

namespace SqlGuard

/-- Both are analyzed to the same up to letter case, or refused for the same. -/
abbrev AnalyzedAlike {α β : Type} (fold : α → β) (x y : Analyzed α) : Prop :=
  Mirrors AnalysisError.folded (fun a b => fold a = fold b) x y

/-! ### Scopes -/

/-- The column, its name in lower case. -/
def VisibleColumn.folded (column : VisibleColumn) : VisibleColumn :=
  { column with name := Text.folded column.name }

/-- The entry, its names in lower case. -/
def ScopeEntry.folded (entry : ScopeEntry) : ScopeEntry where
  name? := entry.name?.map Text.folded
  columns := entry.columns.map VisibleColumn.folded

/-- What is kept of lists that agree up to letter case agrees up to letter case. -/
theorem map_filter_congr {α : Type} {fold : α → α} {p q : α → Bool} (hp : ∀ a, p a = q (fold a))
    (hq : ∀ a, q a = q (fold a)) {xs ys : List α} (same : xs.map fold = ys.map fold) :
    (xs.filter p).map fold = (ys.filter q).map fold := by
  have hp' : p = q ∘ fold := funext hp
  have hq' : q = q ∘ fold := funext hq
  rw [hp', ← List.filter_map, same, List.filter_map, ← hq']

section Names

variable {name name' : String} (hname : Text.folded name = Text.folded name')
include hname

theorem map_folded_columnsNamed {columns columns' : List VisibleColumn}
    (same : columns.map VisibleColumn.folded = columns'.map VisibleColumn.folded) :
    (columnsNamed name columns).map VisibleColumn.folded =
      (columnsNamed name' columns').map VisibleColumn.folded := by
  refine map_filter_congr (fun column => ?_) (fun column => ?_) same
  · exact Text.sameIgnoringCase_congr (Text.folded_folded _).symm hname
  · exact Text.sameIgnoringCase_congr (Text.folded_folded _).symm rfl

namespace Scope

variable {scope scope' : Scope} (same : scope.map ScopeEntry.folded = scope'.map ScopeEntry.folded)
include same

theorem map_folded_entriesNamed :
    (scope.entriesNamed name).map ScopeEntry.folded =
      (scope'.entriesNamed name').map ScopeEntry.folded := by
  refine map_filter_congr (fun entry => ?_) (fun entry => ?_) same
  · rw [ScopeEntry.folded, Option.any_map]
    exact congrArg (Option.any · entry.name?) <| funext fun _ =>
      Text.sameIgnoringCase_congr (Text.folded_folded _).symm hname
  · rw [ScopeEntry.folded, Option.any_map]
    exact congrArg (Option.any · entry.name?) <| funext fun _ =>
      Text.sameIgnoringCase_congr (Text.folded_folded _).symm rfl

omit hname in
theorem map_folded_columns :
    scope.columns.map VisibleColumn.folded = scope'.columns.map VisibleColumn.folded := by
  have hcolumns : ∀ s : Scope, s.columns.map VisibleColumn.folded =
      (s.map ScopeEntry.folded).flatMap ScopeEntry.columns := by
    intro s
    rw [columns, List.map_flatMap, List.flatMap_map]
    rfl
  rw [hcolumns, hcolumns, same]

omit hname in
/-- One more entry in sight. -/
theorem map_folded_snoc {name? name?' : Option String} {columns columns' : List VisibleColumn}
    (hname : name?.map Text.folded = name?'.map Text.folded)
    (hcolumns : columns.map VisibleColumn.folded = columns'.map VisibleColumn.folded) :
    (scope ++ [ScopeEntry.mk name? columns]).map ScopeEntry.folded =
      (scope' ++ [ScopeEntry.mk name?' columns']).map ScopeEntry.folded := by
  rw [List.map_append, List.map_append, same, List.map_singleton, List.map_singleton,
    ScopeEntry.folded, ScopeEntry.folded, hname, hcolumns]

end Scope

end Names

namespace Scope

theorem theOnly_folded {α β : Type} {fold : α → β} {none none' several several' : AnalysisError}
    (hnone : none.folded = none'.folded) (hseveral : several.folded = several'.folded)
    {as bs : List α} (same : as.map fold = bs.map fold) :
    AnalyzedAlike fold (theOnly none several as) (theOnly none' several' bs) := by
  match as, bs with
  | [], [] => exact .error hnone
  | [a], [b] => exact .ok (List.cons.inj same).1
  | _ :: _ :: _, _ :: _ :: _ => exact .error hseveral
  | [], _ :: _ | _ :: _, [] => cases same
  | [_], _ :: _ :: _ | _ :: _ :: _, [_] => exact absurd (congrArg List.length same) (by simp)

variable {scope scope' : Scope} (same : scope.map ScopeEntry.folded = scope'.map ScopeEntry.folded)
  {qualifier qualifier' name name' : String}
  (hqualifier : Text.folded qualifier = Text.folded qualifier')
  (hname : Text.folded name = Text.folded name')
include same hqualifier

theorem columnsBehind_folded :
    AnalyzedAlike (List.map VisibleColumn.folded) (scope.columnsBehind qualifier)
      (scope'.columnsBehind qualifier') := by
  have hempty : qualifier.isEmpty = qualifier'.isEmpty := by
    rw [← Text.isEmpty_folded qualifier, hqualifier, Text.isEmpty_folded]
  unfold columnsBehind
  rw [hempty]
  split
  · exact .ok (map_folded_columns same)
  · have honly : AnalyzedAlike ScopeEntry.folded
        (theOnly (.unknownQualifier qualifier) (.ambiguous qualifier)
          (scope.entriesNamed qualifier))
        (theOnly (.unknownQualifier qualifier') (.ambiguous qualifier')
          (scope'.entriesNamed qualifier')) := by
      refine theOnly_folded ?_ ?_ (map_folded_entriesNamed hqualifier same)
      · exact congrArg AnalysisError.unknownQualifier hqualifier
      · exact congrArg AnalysisError.ambiguous hqualifier
    exact honly.map fun entry entry' hentry => congrArg ScopeEntry.columns hentry

include hname

/-- A reference means the same column in any letter case. -/
theorem resolve_folded :
    AnalyzedAlike VisibleColumn.folded (scope.resolve qualifier name)
      (scope'.resolve qualifier' name') := by
  rw [resolve_eq, resolve_eq]
  refine (columnsBehind_folded same hqualifier).bind fun columns columns' hcolumns => ?_
  refine theOnly_folded ?_ ?_ (map_folded_columnsNamed hname hcolumns)
  · rw [AnalysisError.folded, AnalysisError.folded, hqualifier, hname]
  · exact congrArg AnalysisError.ambiguous hname

end Scope

/-! ### Expressions -/

theorem Expr.type_eq_of_folded_eq {e e' : Expr} (h : e.folded = e'.folded) : e.type = e'.type := by
  rw [← type_folded e, h, type_folded]

section Expressions

variable {scope scope' : Scope} (same : scope.map ScopeEntry.folded = scope'.map ScopeEntry.folded)
include same

theorem Field.resolve_folded (f : Field) :
    AnalyzedAlike folded (f.resolve scope) (f.folded.resolve scope') := by
  refine (Scope.resolve_folded same (Text.folded_folded f.qualifier).symm
    (Text.folded_folded f.name).symm).bind fun column column' hcolumn => .ok ?_
  simp only [VisibleColumn.folded, VisibleColumn.mk.injEq] at hcolumn
  simp only [folded, Text.folded_folded, hcolumn.2]

theorem Expr.resolve_folded (e : Expr) :
    AnalyzedAlike folded (e.resolve scope) (e.folded.resolve scope') := by
  induction e with
  | field f => exact (Field.resolve_folded same f).map fun g g' hg => by rw [folded, folded, hg]
  | literal kind text =>
    cases kind with
    | string => exact .ok rfl
    | int | float => exact .ok (congrArg (Expr.literal _) (Text.folded_folded text).symm)
  | starCall name => exact .ok (by rw [folded, folded, Text.folded_folded])
  | arith op left right type ihl ihr =>
    refine ihl.bind fun l l' hl => ihr.bind fun r r' hr => ?_
    rw [type_eq_of_folded_eq hl, type_eq_of_folded_eq hr]
    refine (Mirrors.refl (fun _ => rfl) (op.resultType l'.type r'.type)).bind
      fun type type' htype => .ok ?_
    rw [folded, folded, hl, hr, htype]
  | compare op left right ihl ihr =>
    refine ihl.bind fun l l' hl => ihr.bind fun r r' hr => ?_
    rw [type_eq_of_folded_eq hl, type_eq_of_folded_eq hr]
    refine (Mirrors.refl (fun _ => rfl) (op.check l'.type r'.type)).bind fun _ _ _ => .ok ?_
    rw [folded, folded, hl, hr]

theorem Expr.resolve?_folded (e? : Option Expr) :
    AnalyzedAlike (Option.map folded) (resolve? scope e?) (resolve? scope' (e?.map folded)) := by
  cases e? with
  | none => exact .ok rfl
  | some e => exact (resolve_folded same e).map fun _ _ he => congrArg some he

theorem SelectItem.resolve_folded (item : SelectItem) :
    AnalyzedAlike folded (item.resolve scope) (item.folded.resolve scope') := by
  refine (Expr.resolve_folded same item.expr).bind fun e e' he => .ok ?_
  simp [folded, he, Function.comp_def]

theorem Join.resolve?_folded (join? : Option Join) :
    AnalyzedAlike (Option.map folded) (resolve? scope join?)
      (resolve? scope' (join?.map folded)) := by
  cases join? with
  | none => exact .ok rfl
  | some join =>
    have hjoin : AnalyzedAlike folded (join.resolve scope) (join.folded.resolve scope') := by
      refine (Expr.resolve?_folded same join.on?).bind fun on? on?' hon => .ok ?_
      rw [folded, folded, hon]
      rfl
    exact hjoin.map fun _ _ h => congrArg some h

theorem Query.resolveClauses_folded {tables tables' : List TableRef}
    (htables : tables.map TableRef.folded = tables'.map TableRef.folded) (query : Query) :
    AnalyzedAlike folded (resolveClauses scope tables query)
      (resolveClauses scope' tables' query.folded) := by
  obtain ⟨items, where?, groupBy, ts⟩ := query
  refine (Mirrors.mapM fun item _ => SelectItem.resolve_folded same item).bind
    fun items items' hitems => ?_
  refine (Expr.resolve?_folded same where?).bind fun where? where?' hwhere => ?_
  refine (Mirrors.mapM fun e _ => Expr.resolve_folded same e).bind fun es es' hes => .ok ?_
  simp only [folded, foldedTables_eq_map, hitems, hwhere, hes, htables]

end Expressions

/-! ### Views -/

theorem SelectItem.folded_visible (i : Nat) (item : SelectItem) :
    (item.folded.visible i).folded = (item.visible i).folded := by
  have hname : item.folded.outputName? = item.outputName?.map Text.folded := by
    obtain ⟨e, alias?⟩ := item
    cases alias? with
    | some name => rfl
    | none =>
      cases e with
      | literal kind text => cases kind <;> rfl
      | _ => rfl
  have hfold : ∀ o : Option String, Text.folded ((o.map Text.folded).getD (positionalName i)) =
      Text.folded (o.getD (positionalName i)) := by
    intro o
    cases o <;> simp
  rw [visible, visible, VisibleColumn.folded, VisibleColumn.folded, hname]
  simp only [hfold, folded, Expr.type_folded, Expr.isProtected_folded]

theorem Query.map_folded_visibleColumns {query query' : Query} (h : query.folded = query'.folded) :
    query.visibleColumns.map VisibleColumn.folded =
      query'.visibleColumns.map VisibleColumn.folded := by
  have hvisible : ∀ q : Query, q.visibleColumns.map VisibleColumn.folded =
      q.folded.visibleColumns.map VisibleColumn.folded := by
    intro q
    obtain ⟨items, where?, groupBy, tables⟩ := q
    refine List.ext_getElem? fun i => ?_
    simp only [folded, visibleColumns, List.getElem?_map, List.getElem?_mapIdx]
    cases items[i]? with
    | none => rfl
    | some item => exact congrArg some (item.folded_visible i).symm
  rw [hvisible query, h, ← hvisible query']

theorem TableRef.map_folded_visibleName? (t : TableRef) :
    t.visibleName?.map Text.folded = t.folded.visibleName?.map Text.folded := by
  obtain ⟨source, alias?, join?⟩ := t
  cases alias? with
  | some name => exact congrArg some (Text.folded_folded name).symm
  | none =>
    cases source with
    | table name => exact congrArg some (Text.folded_folded name).symm
    | view query => rfl

/-! ### Queries and statements -/

/-- Tables are found by their names in lower case. -/
def Schema.IgnoresCase (schema : Schema) : Prop := ∀ name, schema (Text.folded name) = schema name

section Schema

variable {schema : Schema}

theorem Schema.columns_folded (insensitive : schema.IgnoresCase) (name : String) :
    AnalyzedAlike (List.map VisibleColumn.folded) (schema.columns name)
      (schema.columns (Text.folded name)) := by
  unfold columns
  rw [insensitive]
  cases schema name with
  | none => exact .error (congrArg AnalysisError.unknownTable (Text.folded_folded name).symm)
  | some table => exact .ok rfl

mutual

theorem Query.analyze_folded (insensitive : schema.IgnoresCase) : ∀ query : Query,
    AnalyzedAlike Query.folded (query.analyze schema) (query.folded.analyze schema)
  | ⟨items, where?, groupBy, tables⟩ =>
    (analyzeTables_folded insensitive (Eq.refl (List.map ScopeEntry.folded [])) tables).bind
      fun _ _ hpq => Query.resolveClauses_folded (Prod.ext_iff.1 hpq).1 (Prod.ext_iff.1 hpq).2
        ⟨items, where?, groupBy, []⟩

theorem analyzeTables_folded (insensitive : schema.IgnoresCase) {scope scope' : Scope}
    (same : scope.map ScopeEntry.folded = scope'.map ScopeEntry.folded) : ∀ ts : List TableRef,
    AnalyzedAlike (Prod.map (List.map ScopeEntry.folded) (List.map TableRef.folded))
      (analyzeTables schema scope ts) (analyzeTables schema scope' (foldedTables ts))
  | [] => .ok (by simp [same])
  | t :: ts => by
    rw [foldedTables, analyzeTables, analyzeTables]
    refine (TableRef.analyze_folded insensitive same t).bind fun p q hpq => ?_
    obtain ⟨hscope, ht⟩ := Prod.ext_iff.1 hpq
    refine (analyzeTables_folded insensitive hscope ts).bind fun p' q' hpq' => .ok ?_
    obtain ⟨hscope', hts⟩ := Prod.ext_iff.1 hpq'
    refine Prod.ext hscope' ?_
    exact congrArg₂ List.cons ht hts

theorem TableRef.analyze_folded (insensitive : schema.IgnoresCase) {scope scope' : Scope}
    (same : scope.map ScopeEntry.folded = scope'.map ScopeEntry.folded) : ∀ t : TableRef,
    AnalyzedAlike (Prod.map (List.map ScopeEntry.folded) TableRef.folded) (t.analyze schema scope)
      (t.folded.analyze schema scope')
  | ⟨source, alias?, join?⟩ => by
    have hname := TableRef.map_folded_visibleName? ⟨source, alias?, join?⟩
    rw [TableRef.folded, TableRef.analyze, TableRef.analyze]
    refine (Source.analyze_folded insensitive source).bind fun p q hpq => ?_
    obtain ⟨hsource, hcolumns⟩ := Prod.ext_iff.1 hpq
    -- the condition of the join sees the reference itself
    have hscope := Scope.map_folded_snoc same hname hcolumns
    refine (Join.resolve?_folded hscope join?).bind fun on? on?' hon => .ok ?_
    refine Prod.ext hscope ?_
    simp only [Prod.map_snd, TableRef.folded, Option.map_map, Function.comp_def, Text.folded_folded]
    exact congrArg₂ (TableRef.mk · _ ·) hsource hon

theorem Source.analyze_folded (insensitive : schema.IgnoresCase) : ∀ source : Source,
    AnalyzedAlike (Prod.map Source.folded (List.map VisibleColumn.folded)) (source.analyze schema)
      (source.folded.analyze schema)
  | .table name => by
    refine (Schema.columns_folded insensitive name).bind fun columns columns' hcolumns => .ok ?_
    exact Prod.ext (congrArg Source.table (Text.folded_folded name).symm) hcolumns
  | .view query => by
    refine (Query.analyze_folded insensitive query).bind fun q q' hq => .ok ?_
    exact Prod.ext (congrArg Source.view hq) (Query.map_folded_visibleColumns hq)

end

theorem Schema.require_folded (insensitive : schema.IgnoresCase) (name : String) :
    AnalyzedAlike id (schema.require name) (schema.require (Text.folded name)) := by
  unfold require
  rw [insensitive]
  split
  · exact .ok rfl
  · exact .error (congrArg AnalysisError.unknownTable (Text.folded_folded name).symm)

/-- A statement in lower case is analyzed to the same statement up to letter case. -/
theorem Statement.analyze_folded (insensitive : schema.IgnoresCase) (s : Statement) :
    AnalyzedAlike folded (s.analyze schema) (s.folded.analyze schema) := by
  cases s with
  | select query =>
    exact (Query.analyze_folded insensitive query).map fun q q' hq => by rw [folded, folded, hq]
  | insert target? query =>
    have htarget : AnalyzedAlike id (schema.require? target?)
        (schema.require? (target?.map Text.folded)) := by
      cases target? with
      | none => exact .ok rfl
      | some name => exact Schema.require_folded insensitive name
    refine htarget.bind fun _ _ _ => ?_
    refine (Query.analyze_folded insensitive query).bind fun q q' hq => .ok ?_
    simp [folded, hq, Function.comp_def]
  | load path table overwrite =>
    refine (Schema.require_folded insensitive table).bind fun _ _ _ => .ok ?_
    simp [folded]

end Schema

end SqlGuard
