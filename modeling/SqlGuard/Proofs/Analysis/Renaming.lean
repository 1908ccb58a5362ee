import Mathlib
import SqlGuard.Proofs.Analysis.Places
import SqlGuard.Proofs.Analysis.SideBySide
import SqlGuard.Statement.Render

/-!
# Other aliases

A table reference gets another alias, and the qualifiers that addressed it are written with this
alias. Where no name and no qualifier of the query is like the new alias, each reference means the
same column as before: none is captured, and none is lost. Main statement: `Query.analyze_renamed`.
-/

namespace SqlGuard

/-- A name of a table reference, and the alias that takes its place. -/
structure Renaming where
  old : String
  new : String
  old_ne : old ≠ ""
  new_ne : new ≠ ""

namespace Renaming

/-- The qualifier, or the new alias in the place of the old name in any letter case. -/
def apply (ρ : Renaming) (qualifier : String) : String :=
  if Text.sameIgnoringCase qualifier ρ.old then ρ.new else qualifier

/-- Whether a name is not the new alias in any letter case. -/
def Spares (ρ : Renaming) (name : String) : Prop :=
  Text.sameIgnoringCase name ρ.new = false

instance (ρ : Renaming) (name : String) : Decidable (ρ.Spares name) :=
  inferInstanceAs (Decidable (_ = false))

end Renaming

variable (ρ : Renaming)

/-! ### Renamed queries -/

/-- The reference with its qualifier renamed. -/
def Field.renamed (f : Field) : Field := { f with qualifier := ρ.apply f.qualifier }

/-- The expression with its qualifiers renamed. -/
def Expr.renamed : Expr → Expr
  | .field f => .field (f.renamed ρ)
  | .literal kind text => .literal kind text
  | .starCall name => .starCall name
  | .arith op left right type => .arith op left.renamed right.renamed type
  | .compare op left right => .compare op left.renamed right.renamed

/-- The item with its qualifiers renamed. -/
def SelectItem.renamed (item : SelectItem) : SelectItem :=
  { item with expr := item.expr.renamed ρ }

/-- The join with the qualifiers of its condition renamed. -/
def Join.renamed (join : Join) : Join := { join with on? := join.on?.map (Expr.renamed ρ) }

/-- The reference with the qualifiers of its join renamed. -/
def TableRef.joinRenamed (t : TableRef) : TableRef :=
  { t with join? := t.join?.map (Join.renamed ρ) }

/-- Whether the reference goes by the old name. -/
def Renaming.concerns (t : TableRef) : Bool :=
  t.visibleName?.any (Text.sameIgnoringCase · ρ.old)

/-- Whether the reference at a position, and no other, goes by the old name. -/
def Renaming.ConcernsOnly (i : Nat) (query : Query) : Prop :=
  ∀ (j : Nat) t, query.tables[j]? = some t → (ρ.concerns t = true ↔ j = i)

/-- The reference with the new alias, if it goes by the old name. -/
def TableRef.renamed (t : TableRef) : TableRef :=
  { t.joinRenamed ρ with alias? := if ρ.concerns t then some ρ.new else t.alias? }

/-- The query with the new alias for all references that go by the old name, and with its qualifiers
    renamed. Its views are left as they are. -/
def Query.renamed (query : Query) : Query where
  items := query.items.map (SelectItem.renamed ρ)
  where? := query.where?.map (Expr.renamed ρ)
  groupBy := query.groupBy.map (Expr.renamed ρ)
  tables := query.tables.map (TableRef.renamed ρ)

/-- The same with the new alias for the reference at a position, whatever its name is. -/
def Query.renamedAt (i : Nat) (query : Query) : Query :=
  { query.renamed ρ with
    tables := (query.tables.map (TableRef.joinRenamed ρ)).modify i
      fun t => { t with alias? := some ρ.new } }

/-- The error with the name that it shows renamed. -/
def AnalysisError.renamed : AnalysisError → AnalysisError
  | .unknownQualifier qualifier => .unknownQualifier (ρ.apply qualifier)
  | .unknownColumn qualifier name => .unknownColumn (ρ.apply qualifier) name
  | .ambiguous name => .ambiguous (ρ.apply name)
  | e => e

/-! ### Names -/

namespace Renaming

variable {ρ} {name qualifier : String}

/-- Names that are not like the new alias are alike afterwards exactly if they were before. -/
theorem sameIgnoringCase_apply (hname : ρ.Spares name)
    (hqualifier : ρ.Spares qualifier) :
    Text.sameIgnoringCase (ρ.apply name) (ρ.apply qualifier) =
      Text.sameIgnoringCase name qualifier := by
  simp only [Spares, Text.sameIgnoringCase, apply] at *
  grind

theorem isEmpty_apply (ρ : Renaming) (qualifier : String) :
    (ρ.apply qualifier).isEmpty = qualifier.isEmpty := by
  unfold apply
  split
  · rename_i same
    have written : qualifier ≠ "" := by
      rintro rfl
      have hold := (Text.sameIgnoringCase_iff.1 same).symm
      exact ρ.old_ne (String.toList_eq_nil_iff.1 (List.map_eq_nil_iff.1 hold))
    rw [Bool.eq_iff_iff, String.isEmpty_iff, String.isEmpty_iff]
    exact iff_of_false ρ.new_ne written
  · rfl

end Renaming

/-! ### Scopes -/

/-- The entry with its name renamed. -/
def ScopeEntry.renamed (entry : ScopeEntry) : ScopeEntry :=
  { entry with name? := entry.name?.map ρ.apply }

/-- The scope with its names renamed. -/
def Scope.renamed (scope : Scope) : Scope := scope.map (ScopeEntry.renamed ρ)

/-- None of the names in sight is the new alias. -/
def Scope.Spared (scope : Scope) : Prop := ∀ entry ∈ scope, ∀ name ∈ entry.name?, ρ.Spares name

/-- Errors of one kind are let pass, which show the new alias for the old name at most. -/
def Leeway.renaming : Leeway where
  both e e' := e' = e ∨ e' = e.renamed ρ
  first _ := False
  second _ := False
  both_self _ := .inl rfl
  both_of_first _ h := h.elim
  both_of_second _ _ h := h.elim

section Scopes

variable {ρ} {scope : Scope} (spared : scope.Spared ρ) {qualifier : String}
  (hqualifier : ρ.Spares qualifier)
include spared hqualifier

/-- A qualifier addresses the same references as before. -/
theorem Scope.entriesNamed_renamed :
    (scope.renamed ρ).entriesNamed (ρ.apply qualifier) =
      (scope.entriesNamed qualifier).map (ScopeEntry.renamed ρ) := by
  unfold renamed entriesNamed
  rw [List.filter_map]
  refine congrArg (List.map _) (List.filter_congr fun entry hentry => ?_)
  have hnames := spared entry hentry
  rw [Function.comp_apply, ScopeEntry.renamed]
  cases hname : entry.name? with
  | none => rfl
  | some name => exact Renaming.sameIgnoringCase_apply (hnames name hname) hqualifier

/-- A reference means the same column as before. -/
theorem Scope.resolve_renamed (name : String) :
    (Leeway.renaming ρ).Match Eq (scope.resolve qualifier name)
      ((scope.renamed ρ).resolve (ρ.apply qualifier) name) := by
  have pass : ∀ e, (Leeway.renaming ρ).both e (e.renamed ρ) := fun _ => .inr rfl
  have hcolumns : (scope.renamed ρ).columns = scope.columns := List.flatMap_map ..
  have hbehind : (Leeway.renaming ρ).Match Eq (scope.columnsBehind qualifier)
      ((scope.renamed ρ).columnsBehind (ρ.apply qualifier)) := by
    unfold columnsBehind
    rw [Renaming.isEmpty_apply, hcolumns, entriesNamed_renamed spared hqualifier]
    split
    · exact .ok rfl
    · have hentries : List.Forall₂ (fun entry entry' => entry.columns = entry'.columns)
          (scope.entriesNamed qualifier)
          ((scope.entriesNamed qualifier).map (ScopeEntry.renamed ρ)) :=
        List.forall₂_map_right_iff.2 (List.forall₂_same.2 fun _ _ => rfl)
      exact (Leeway.Match.theOnly_of_both (pass (.unknownQualifier qualifier))
        (pass (.ambiguous qualifier)) hentries).map fun _ _ h => h
  rw [resolve_eq, resolve_eq]
  refine hbehind.bind fun columns columns' same => ?_
  cases same
  exact .theOnly_of_both (pass (.unknownColumn qualifier name)) (Leeway.both_self _ _)
    (List.forall₂_same.2 fun _ _ => rfl)

end Scopes

/-! ### Expressions -/

section Expressions

variable {ρ}

theorem Expr.type_renamed (e : Expr) : (e.renamed ρ).type = e.type := by
  cases e <;> rfl

theorem Expr.isProtected_renamed (e : Expr) : (e.renamed ρ).isProtected = e.isProtected := by
  induction e with
  | field | literal | starCall => rfl
  | arith _ _ _ _ ihl ihr => rw [renamed, isProtected, isProtected, ihl, ihr]
  | compare _ _ _ ihl ihr => rw [renamed, isProtected, isProtected, ihl, ihr]

/-- None of the qualifiers in the expression is the new alias. -/
def Expr.Spared (ρ : Renaming) (e : Expr) : Prop := ∀ f ∈ e.fields, ρ.Spares f.qualifier

variable {scope : Scope} (spared : scope.Spared ρ)
include spared

/-- An expression is resolved as before, but for the new alias in its qualifiers. -/
theorem Expr.resolve_renamed (e : Expr) (written : e.Spared ρ) :
    (Leeway.renaming ρ).Match (fun e' r => r = e'.renamed ρ) (e.resolve scope)
      ((e.renamed ρ).resolve (scope.renamed ρ)) := by
  induction e with
  | field f =>
    have hqualifier : ρ.Spares f.qualifier := written f (List.mem_singleton_self f)
    refine ((Scope.resolve_renamed spared hqualifier f.name).bind fun c c' same => ?_).map
      fun _ _ h => h
    cases same
    exact .ok rfl
  | literal kind text => exact .ok rfl
  | starCall name => exact .ok rfl
  | arith op left right note ihl ihr =>
    obtain ⟨hleft, hright⟩ := List.forall_mem_append.1 written
    refine (ihl hleft).bind fun l l' hl => (ihr hright).bind fun r r' hr => ?_
    rw [hl, hr, type_renamed, type_renamed]
    cases op.resultType l.type r.type with
    | error e => exact .error e
    | ok type => exact .ok rfl
  | compare op left right ihl ihr =>
    obtain ⟨hleft, hright⟩ := List.forall_mem_append.1 written
    refine (ihl hleft).bind fun l l' hl => (ihr hright).bind fun r r' hr => ?_
    rw [hl, hr, type_renamed, type_renamed]
    cases op.check l.type r.type with
    | error e => exact .error e
    | ok _ => exact .ok rfl

/-- The same for an expression that may be left out. -/
theorem Expr.resolve?_renamed (e? : Option Expr) (written : ∀ e ∈ e?, e.Spared ρ) :
    (Leeway.renaming ρ).Match (fun r r' => r' = r.map (Expr.renamed ρ)) (Expr.resolve? scope e?)
      (Expr.resolve? (scope.renamed ρ) (e?.map (Expr.renamed ρ))) := by
  cases e? with
  | none => exact .ok rfl
  | some e =>
    exact (e.resolve_renamed spared (written e rfl)).map fun _ _ h => congrArg some h

theorem SelectItem.resolve_renamed (item : SelectItem) (written : item.expr.Spared ρ) :
    (Leeway.renaming ρ).Match (fun r r' => r' = r.renamed ρ) (item.resolve scope)
      ((item.renamed ρ).resolve (scope.renamed ρ)) :=
  (item.expr.resolve_renamed spared written).bind fun _ _ h => .ok (by rw [h]; rfl)

theorem Join.resolve?_renamed (join? : Option Join)
    (written : ∀ e ∈ join? >>= Join.on?, e.Spared ρ) :
    (Leeway.renaming ρ).Match (fun r r' => r' = r.map (Join.renamed ρ)) (Join.resolve? scope join?)
      (Join.resolve? (scope.renamed ρ) (join?.map (Join.renamed ρ))) := by
  cases join? with
  | none => exact .ok rfl
  | some join =>
    refine ((Expr.resolve?_renamed spared join.on? written).bind fun on? on?' h => ?_).map
      fun _ _ h => congrArg some h
    rw [h]
    exact .ok rfl

theorem Query.resolveClauses_renamed (query : Query) (tables : List TableRef)
    (selected : ∀ item ∈ query.items, item.expr.Spared ρ)
    (condition : ∀ e ∈ query.where?, e.Spared ρ) (grouped : ∀ e ∈ query.groupBy, e.Spared ρ) :
    (Leeway.renaming ρ).Match (fun r r' => r' = r.renamed ρ)
      (Query.resolveClauses scope tables query)
      (Query.resolveClauses (scope.renamed ρ) (tables.map (TableRef.renamed ρ))
        (query.renamed ρ)) := by
  have hitems := Leeway.Match.mapM_map fun item (hitem : item ∈ query.items) =>
    item.resolve_renamed spared (selected item hitem)
  have hwhere := Expr.resolve?_renamed spared query.where? condition
  have hgroup := Leeway.Match.mapM_map fun e (he : e ∈ query.groupBy) =>
    e.resolve_renamed spared (grouped e he)
  refine hitems.bind fun items items' h => hwhere.bind fun where? where?' h' =>
    hgroup.bind fun groupBy groupBy' h'' => ?_
  rw [h, h', h'']
  exact .ok rfl

end Expressions

/-! ### Table references -/

section Tables

variable {ρ} {schema : Schema}

/-- A reference that goes by the old name goes by the new one, and others keep their names. -/
theorem TableRef.visibleName?_renamed (t : TableRef) :
    (t.renamed ρ).visibleName? = t.visibleName?.map ρ.apply := by
  cases hconcerns : ρ.concerns t with
  | true =>
    have hname : (t.renamed ρ).visibleName? = some ρ.new := by
      rw [renamed, hconcerns]
      rfl
    obtain ⟨name, hold, same⟩ := (Option.any_eq_true ..).1 hconcerns
    rw [hname, hold, Option.map_some, Renaming.apply, if_pos same]
  | false =>
    have hname : (t.renamed ρ).visibleName? = t.visibleName? := by
      rw [renamed, hconcerns]
      rfl
    have kept : ∀ name ∈ t.visibleName?, ρ.apply name = name := fun name hold =>
      if_neg (Bool.eq_false_iff.1 ((Option.any_eq_false ..).1 hconcerns name hold))
    rw [hname, Option.map_congr kept, Option.map_id']

/-- Analysis leaves the name of a reference as it is. -/
theorem Source.Typed.visibleName?_eq {source source' : Source} {columns : List VisibleColumn}
    (typed : source.Typed schema source' columns) (alias? : Option String)
    (join? join?' : Option Join) :
    TableRef.visibleName? ⟨source', alias?, join?'⟩ =
      TableRef.visibleName? ⟨source, alias?, join?⟩ := by
  cases alias? with
  | some name => rfl
  | none => cases typed <;> rfl

theorem TablesTyped.map_visibleName? {tables tables' : List TableRef} {scope : Scope}
    (typed : TablesTyped schema tables tables' scope) :
    tables'.map TableRef.visibleName? = tables.map TableRef.visibleName? := by
  induction tables generalizing tables' scope with
  | nil => cases typed; rfl
  | cons t ts ih =>
    cases typed with
    | @cons _ t' _ _ _ _ source sameAlias rest =>
      obtain ⟨source, alias?, join?⟩ := t
      obtain ⟨source', alias?', join?'⟩ := t'
      cases sameAlias
      rw [List.map_cons, List.map_cons, ih rest, source.visibleName?_eq]

theorem TableRef.analyze_eq (scope : Scope) (t : TableRef) :
    t.analyze schema scope = do
      let (source, columns) ← t.source.analyze schema
      let scope := scope ++ [⟨t.visibleName?, columns⟩]
      let join? ← Join.resolve? scope t.join?
      return (scope, ⟨source, t.alias?, join?⟩) := by
  obtain ⟨source, alias?, join?⟩ := t
  rw [analyze]

/-- A renamed reference adds the renamed entry to the scope. -/
theorem TableRef.analyze_renamed {scope : Scope} (spared : scope.Spared ρ) (t : TableRef)
    (unused : ∀ name ∈ t.visibleName?, ρ.Spares name) (unwritten : ∀ e ∈ t.on?, e.Spared ρ) :
    (Leeway.renaming ρ).Match
      (fun r r' => r' = (r.1.renamed ρ, r.2.renamed ρ) ∧ r.1.Spared ρ)
      (t.analyze schema scope) ((t.renamed ρ).analyze schema (scope.renamed ρ)) := by
  have hsource : (Leeway.renaming ρ).Match (fun r r' => r' = r ∧ t.source.Typed schema r.1 r.2)
      (t.source.analyze schema) (t.source.analyze schema) := by
    cases h : t.source.analyze schema with
    | error e => exact .error e
    | ok r => exact .ok ⟨rfl, (Source.analyze_eq_ok_iff ..).1 h⟩
  rw [analyze_eq, analyze_eq, visibleName?_renamed]
  refine hsource.bind fun r r' given => ?_
  obtain ⟨rfl, typed⟩ := given
  obtain ⟨source, columns⟩ := r'
  have spared' : Scope.Spared ρ (scope ++ [⟨t.visibleName?, columns⟩]) :=
    List.forall_mem_append.2 ⟨spared, List.forall_mem_singleton.2 unused⟩
  have hscope : scope.renamed ρ ++ [⟨t.visibleName?.map ρ.apply, columns⟩] =
      Scope.renamed ρ (scope ++ [⟨t.visibleName?, columns⟩]) := by
    rw [Scope.renamed, Scope.renamed, List.map_append]
    rfl
  dsimp only
  rw [hscope]
  refine (Join.resolve?_renamed spared' t.join? unwritten).bind fun join? join?' hjoin => ?_
  have hname := typed.visibleName?_eq t.alias? t.join? join?
  have hrenamed : (⟨source, (t.renamed ρ).alias?, join?'⟩ : TableRef) =
      TableRef.renamed ρ ⟨source, t.alias?, join?⟩ := by
    rw [hjoin, renamed, renamed, Renaming.concerns, Renaming.concerns, hname]
    rfl
  rw [hrenamed]
  exact .ok ⟨rfl, spared'⟩

theorem analyzeTables_renamed {tables : List TableRef} {scope : Scope} (spared : scope.Spared ρ)
    (unused : ∀ t ∈ tables, ∀ name ∈ t.visibleName?, ρ.Spares name)
    (unwritten : ∀ t ∈ tables, ∀ e ∈ t.on?, e.Spared ρ) :
    (Leeway.renaming ρ).Match
      (fun r r' => r' = (r.1.renamed ρ, r.2.map (TableRef.renamed ρ)) ∧ r.1.Spared ρ)
      (analyzeTables schema scope tables)
      (analyzeTables schema (scope.renamed ρ) (tables.map (TableRef.renamed ρ))) := by
  induction tables generalizing scope with
  | nil => exact .ok ⟨rfl, spared⟩
  | cons t ts ih =>
    rw [List.forall_mem_cons] at unused unwritten
    rw [List.map_cons, analyzeTables, analyzeTables]
    refine (t.analyze_renamed spared unused.1 unwritten.1).bind fun r r' h => ?_
    obtain ⟨rfl, spared'⟩ := h
    refine (ih spared' unused.2 unwritten.2).bind fun more more' h => ?_
    obtain ⟨rfl, spared''⟩ := h
    exact .ok ⟨rfl, spared''⟩

end Tables

/-! ### Queries -/

section Queries

variable {ρ} {schema : Schema} {query : Query}

/-- A query with other aliases is analyzed as before, whether or not the old name is the name of one
    reference alone. -/
theorem Query.analyze_renamed
    (unused : ∀ t ∈ query.tables, ∀ name ∈ t.visibleName?, ρ.Spares name)
    (unwritten : ∀ e n, query.Holds e n → e.Spared ρ) :
    (Leeway.renaming ρ).Match (fun r r' => r' = r.renamed ρ) (query.analyze schema)
      ((query.renamed ρ).analyze schema) := by
  have conditions : ∀ t ∈ query.tables, ∀ e ∈ t.on?, e.Spared ρ := by
    intro t reference e stated
    obtain ⟨i, hi⟩ := List.getElem?_of_mem reference
    exact unwritten e (i + 1) (.joinCondition hi stated)
  have htables :=
    @analyzeTables_renamed ρ schema query.tables [] (List.forall_mem_nil _) unused conditions
  obtain ⟨items, where?, groupBy, tables⟩ := query
  refine htables.bind fun r r' h => ?_
  obtain ⟨rfl, spared⟩ := h
  exact Query.resolveClauses_renamed spared _ r.2 (fun item h => unwritten _ _ (.item h))
    (fun e h => unwritten e _ (.condition h)) fun e h => unwritten e _ (.grouping h)

theorem SelectItem.visible_renamed (i : Nat) (item : SelectItem) :
    (item.renamed ρ).visible i = item.visible i := by
  obtain ⟨e, alias?⟩ := item
  have hname : outputName? ⟨e.renamed ρ, alias?⟩ = outputName? ⟨e, alias?⟩ := by
    cases alias? with
    | some name => rfl
    | none => cases e <;> rfl
  rw [renamed, visible, visible, hname, Expr.type_renamed, Expr.isProtected_renamed]

theorem Query.visibleColumns_renamed (query : Query) :
    (query.renamed ρ).visibleColumns = query.visibleColumns := by
  have hitem : ∀ i, SelectItem.visible i ∘ SelectItem.renamed ρ = SelectItem.visible i :=
    fun i => funext fun item => item.visible_renamed i
  refine List.ext_getElem? fun i => ?_
  simp [visibleColumns, renamed, hitem]

theorem TableRef.isProtected_renamed (t : TableRef) :
    (t.renamed ρ).isProtected = t.isProtected := by
  obtain ⟨source, alias?, join?⟩ := t
  have hon : ((join?.map (Join.renamed ρ)) >>= Join.on?).any Expr.isProtected =
      (join? >>= Join.on?).any Expr.isProtected := by
    cases join? with
    | none => rfl
    | some join =>
      obtain ⟨op, on?, left⟩ := join
      cases on? with
      | none => rfl
      | some e => exact e.isProtected_renamed
  simp only [renamed, joinRenamed, isProtected, hon]

theorem Query.isProtected_renamed (query : Query) :
    (query.renamed ρ).isProtected = query.isProtected := by
  obtain ⟨items, where?, groupBy, tables⟩ := query
  have htables : anyProtected (tables.map (TableRef.renamed ρ)) = anyProtected tables := by
    induction tables with
    | nil => rfl
    | cons t ts ih => rw [List.map_cons, anyProtected, anyProtected, t.isProtected_renamed, ih]
  simp only [renamed, isProtected, List.any_map, Option.any_map, Function.comp_def,
    SelectItem.renamed, Expr.isProtected_renamed, htables]

theorem Query.renamedAt_eq {i : Nat} (alone : ρ.ConcernsOnly i query) :
    query.renamedAt ρ i = query.renamed ρ := by
  have htables : (query.tables.map (TableRef.joinRenamed ρ)).modify i
      (fun t => { t with alias? := some ρ.new }) = query.tables.map (TableRef.renamed ρ) := by
    refine List.ext_getElem? fun j => ?_
    rw [List.getElem?_modify, List.getElem?_map, List.getElem?_map]
    cases hj : query.tables[j]? with
    | none => rfl
    | some t =>
      have hconcerns := alone j t hj
      rw [Option.map_some, Option.map_some, TableRef.renamed]
      by_cases same : j = i
      · simp [same, hconcerns.2 same]
      · simp [Ne.symm same, mt hconcerns.1 same, TableRef.joinRenamed]
  rw [renamedAt, htables]
  rfl

/-- In an analyzed query the same reference goes by the old name. -/
theorem Query.Typed.concernsOnly {query' : Query} (typed : query.Typed schema query') {i : Nat}
    (alone : ρ.ConcernsOnly i query) : ρ.ConcernsOnly i query' := by
  obtain ⟨scope, sources, -⟩ := typed.scope
  intro j t' hj'
  have hname : (query.tables.map TableRef.visibleName?)[j]? = some t'.visibleName? := by
    rw [← sources.map_visibleName?, List.getElem?_map, hj', Option.map_some]
  rw [List.getElem?_map] at hname
  obtain ⟨t, hj, hsame⟩ := Option.map_eq_some_iff.1 hname
  rw [Renaming.concerns, ← hsame]
  exact alone j t hj

/-- A reference gets a new alias, and the qualifiers that address it by its old name, in whatever
    letter case, are written with this alias. Let the old name be that of no other reference, and
    the alias neither a name nor a qualifier in the query. Then the query is refused for the same
    reason as before, which shows the alias for the old name at most, or it is accepted, and its
    result is that of before with the same renaming: all notes are the same, and so are the columns
    that it exposes. -/
theorem Query.analyze_renamedAt {i : Nat} {t : TableRef} (ρ : Renaming)
    (reference : query.tables[i]? = some t) (visible : t.visibleName? = some ρ.old)
    (only : ∀ (j : Nat) u name, query.tables[j]? = some u → u.visibleName? = some name →
      Text.sameIgnoringCase name ρ.old = true → j = i)
    (unused : ∀ u ∈ query.tables, ∀ name ∈ u.visibleName?, ρ.Spares name)
    (unwritten : ∀ e n, query.Holds e n → e.Spared ρ) :
    (∃ e e', query.analyze schema = .error e ∧ (query.renamedAt ρ i).analyze schema = .error e' ∧
        (e' = e ∨ e' = e.renamed ρ)) ∨
      ∃ r, query.analyze schema = .ok r ∧
        (query.renamedAt ρ i).analyze schema = .ok (r.renamedAt ρ i) ∧
        (r.renamedAt ρ i).visibleColumns = r.visibleColumns ∧
        (r.renamedAt ρ i).isProtected = r.isProtected := by
  have alone : ρ.ConcernsOnly i query := by
    intro j u hj
    constructor
    · intro hconcerns
      obtain ⟨name, hname, same⟩ := (Option.any_eq_true ..).1 hconcerns
      exact only j u name hj hname same
    · rintro rfl
      rw [reference] at hj
      cases hj
      rw [Renaming.concerns, visible]
      exact Text.sameIgnoringCase_refl ρ.old
  have hmatch : (Leeway.renaming ρ).Match (fun r r' => r' = r.renamed ρ) (query.analyze schema)
      ((query.renamed ρ).analyze schema) := analyze_renamed unused unwritten
  rcases hmatch.outcomes (fun _ => id) (fun _ => id) with
    ⟨e, e', he, he', pass⟩ | ⟨r, r', hr, hr', same⟩
  · exact .inl ⟨e, e', he, by rw [renamedAt_eq alone, he'], pass⟩
  · have alone' := ((analyze_eq_ok_iff ..).1 hr).concernsOnly alone
    rw [renamedAt_eq alone, hr']
    refine .inr ⟨r, hr, ?_⟩
    rw [renamedAt_eq alone', r.visibleColumns_renamed, r.isProtected_renamed]
    exact ⟨congrArg Except.ok same, rfl, rfl⟩

/-- Of two references to one table the first gets a new alias, and the name of the table stays that
    of the second one. -/
theorem Query.analyze_renamedAt_joined :
    let a : Column := { name := "a", type := .int, isSensitive := true }
    let schema : Schema := fun name =>
      if name = "t" then some ⟨"t", [a, { name := "b", type := .double }]⟩ else none
    let field (qualifier name : String) : Expr := .field ⟨qualifier, name, .unknown, false⟩
    let on : Expr := .compare .eq (field "x" "b") (field "T" "b")
    let query : Query :=
      { items := [⟨field "X" "a", none⟩, ⟨field "t" "b", none⟩]
        tables := [⟨.table "t", some "X", none⟩, ⟨.table "t", none, some ⟨.inner, some on, 0⟩⟩] }
    let ρ : Renaming := ⟨"X", "y", by decide, by decide⟩
    (query.renamedAt ρ 0).render = "SELECT y.a, t.b FROM t y JOIN t ON y.b = T.b" ∧
      ∃ r, query.analyze schema = .ok r ∧
        (query.renamedAt ρ 0).analyze schema = .ok (r.renamedAt ρ 0) ∧
        (r.renamedAt ρ 0).isProtected = true ∧
        (r.renamedAt ρ 0).visibleColumns = [⟨"a", .int, true⟩, ⟨"b", .double, false⟩] := by
  intro a schema field on query ρ
  have hrender : (query.renamedAt ρ 0).render = "SELECT y.a, t.b FROM t y JOIN t ON y.b = T.b" := by
    cbv
  have only : ∀ (j : Nat) u name, query.tables[j]? = some u → u.visibleName? = some name →
      Text.sameIgnoringCase name ρ.old = true → j = 0 := by
    have other : Text.sameIgnoringCase "t" "X" = false := by cbv
    intro j u name hj hname same
    obtain _ | _ | j := j
    · rfl
    · cases hj
      cases hname
      cases other.symm.trans same
    · cases hj
  have spares : ∀ name ∈ ["X", "x", "T", "t"], ρ.Spares name := by decide
  have unused : ∀ u ∈ query.tables, ∀ name ∈ u.visibleName?, ρ.Spares name := by
    intro u reference name hname
    rcases List.mem_pair.1 reference with rfl | rfl
    · cases hname
      exact spares "X" (by decide)
    · cases hname
      exact spares "t" (by decide)
  have unwritten : ∀ e n, query.Holds e n → e.Spared ρ := by
    have hfield : ∀ qualifier ∈ ["X", "x", "T", "t"], ∀ name, (field qualifier name).Spared ρ :=
      fun qualifier hqualifier name => List.forall_mem_singleton.2 (spares qualifier hqualifier)
    intro e n holds
    cases holds with
    | item selected =>
      rcases List.mem_pair.1 selected with rfl | rfl
      · exact hfield "X" (by decide) "a"
      · exact hfield "t" (by decide) "b"
    | condition stated => cases stated
    | grouping grouped => cases grouped
    | joinCondition reference stated =>
      rcases List.mem_pair.1 (List.mem_of_getElem? reference) with rfl | rfl
      · cases stated
      · cases stated
        exact List.forall_mem_append.2 ⟨hfield "x" (by decide) "b", hfield "T" (by decide) "b"⟩
  have accepted : (query.analyze schema).map (fun r => (r.isProtected, r.visibleColumns)) =
      .ok (true, [⟨"a", .int, true⟩, ⟨"b", .double, false⟩]) := by cbv
  rcases @Query.analyze_renamedAt schema query 0 _ ρ rfl rfl only unused unwritten with
    ⟨e, -, he, -⟩ | ⟨r, hr, hr', hcolumns, hprotected⟩
  · rw [he] at accepted
    cases accepted
  · rw [hr] at accepted
    obtain ⟨hp, hc⟩ := Prod.mk.inj (Except.ok.inj accepted)
    exact ⟨hrender, r, hr, hr', hprotected.trans hp, hcolumns.trans hc⟩

end Queries

end SqlGuard
