import Mathlib
import SqlGuard.Proofs.Grammar.ParsedQuery
import SqlGuard.Proofs.LetterCase.Analysis
import SqlGuard.Proofs.LetterCase.Lowering
import SqlGuard.Proofs.LetterCase.Reading
import SqlGuard.Proofs.LetterCase.Scanning
import SqlGuard.Proofs.Statement.Occurrence

/-!
# Letter case in statements

Two texts that differ in the case of letters outside of string literals are analyzed alike: both are
refused for the same reason, or both are the same statement up to letter case, with the same types
and the same protection. Main statement: `Statement.analyzeText_of_variesInCase`.
-/

namespace SqlGuard

/-! ### Expressions of a statement -/

/-- The expression, before the parts that it is made of. -/
def Expr.parts : Expr → List Expr
  | .arith op left right type => .arith op left right type :: (left.parts ++ right.parts)
  | .compare op left right => .compare op left right :: (left.parts ++ right.parts)
  | e => [e]

mutual

/-- The expressions of a query and of the queries nested in it. -/
def Query.exprs : Query → List Expr
  | ⟨items, where?, groupBy, tables⟩ =>
    items.map SelectItem.expr ++ where?.toList ++ groupBy ++ tablesExprs tables

/-- The expressions in references. -/
def tablesExprs : List TableRef → List Expr
  | [] => []
  | t :: ts => t.exprs ++ tablesExprs ts

/-- The expressions in a reference: the condition of its join, and those of a view. -/
def TableRef.exprs : TableRef → List Expr
  | ⟨source, _, join?⟩ => (join? >>= Join.on?).toList ++ source.exprs

/-- The expressions in a source. -/
def Source.exprs : Source → List Expr
  | .table _ => []
  | .view query => query.exprs

end

/-- The expressions of a statement and of all queries nested in it. -/
def Statement.exprs (s : Statement) : List Expr := (s.query?.map Query.exprs).getD []

namespace Expr

theorem parts_folded (e : Expr) : e.folded.parts = e.parts.map folded := by
  induction e with
  | field f => rfl
  | literal kind text => cases kind <;> rfl
  | starCall name => rfl
  | arith op left right type ihl ihr =>
    simp only [folded, parts, ihl, ihr, List.map_cons, List.map_append]
  | compare op left right ihl ihr =>
    simp only [folded, parts, ihl, ihr, List.map_cons, List.map_append]

theorem fields_folded (e : Expr) : e.folded.fields = e.fields.map Field.folded := by
  induction e with
  | field f => rfl
  | literal kind text => cases kind <;> rfl
  | starCall name => rfl
  | arith op left right type ihl ihr => simp only [folded, fields, ihl, ihr, List.map_append]
  | compare op left right ihl ihr => simp only [folded, fields, ihl, ihr, List.map_append]

end Expr

mutual

theorem Query.exprs_folded : ∀ query : Query, query.folded.exprs = query.exprs.map Expr.folded
  | ⟨items, where?, groupBy, tables⟩ => by
    have hitems : SelectItem.expr ∘ SelectItem.folded = Expr.folded ∘ SelectItem.expr := rfl
    simp only [Query.folded, Query.exprs, List.map_append, List.map_map, tablesExprs_folded tables,
      hitems, Option.toList_map]

theorem tablesExprs_folded : ∀ ts : List TableRef,
    tablesExprs (foldedTables ts) = (tablesExprs ts).map Expr.folded
  | [] => rfl
  | t :: ts => by
    rw [foldedTables, tablesExprs, tablesExprs, TableRef.exprs_folded t, tablesExprs_folded ts,
      List.map_append]

theorem TableRef.exprs_folded : ∀ t : TableRef, t.folded.exprs = t.exprs.map Expr.folded
  | ⟨source, alias?, join?⟩ => by
    have hon : ((join?.map Join.folded) >>= Join.on?).toList =
        (join? >>= Join.on?).toList.map Expr.folded := by
      cases join? with
      | none => rfl
      | some join => exact Option.toList_map ..
    rw [TableRef.folded, TableRef.exprs, TableRef.exprs, hon, Source.exprs_folded source,
      List.map_append]

theorem Source.exprs_folded : ∀ source : Source,
    source.folded.exprs = source.exprs.map Expr.folded
  | .table _ => rfl
  | .view query => Query.exprs_folded query

end

mutual

/-- A query is protected if an expression is, in it or in a query nested in it. -/
theorem Query.isProtected_eq_any : ∀ query : Query,
    query.isProtected = query.exprs.any Expr.isProtected
  | ⟨items, where?, groupBy, tables⟩ => by
    have hwhere : where?.any Expr.isProtected = where?.toList.any Expr.isProtected := by
      cases where? <;> simp
    simp only [Query.isProtected, Query.exprs, List.any_append, List.any_map, hwhere,
      anyProtected_eq_any tables, Function.comp_def]

theorem anyProtected_eq_any : ∀ ts : List TableRef,
    anyProtected ts = (tablesExprs ts).any Expr.isProtected
  | [] => rfl
  | t :: ts => by
    rw [anyProtected, tablesExprs, List.any_append, TableRef.isProtected_eq_any t,
      anyProtected_eq_any ts]

theorem TableRef.isProtected_eq_any : ∀ t : TableRef,
    t.isProtected = t.exprs.any Expr.isProtected
  | ⟨source, alias?, join?⟩ => by
    rw [TableRef.isProtected, TableRef.exprs, List.any_append, Source.isProtected_eq_any source]
    cases join? >>= Join.on? <;> simp

theorem Source.isProtected_eq_any : ∀ source : Source,
    source.isProtected = source.exprs.any Expr.isProtected
  | .table _ => rfl
  | .view query => Query.isProtected_eq_any query

end

namespace Statement

theorem exprs_folded (s : Statement) : s.folded.exprs = s.exprs.map Expr.folded := by
  cases s with
  | select query | insert target? query => exact Query.exprs_folded query
  | load path table overwrite => rfl

theorem isProtected_eq_any (s : Statement) : s.isProtected = s.exprs.any Expr.isProtected := by
  cases s with
  | select query | insert target? query => exact Query.isProtected_eq_any query
  | load path table overwrite => rfl

/-- Two statements that are the same up to the letter case of their names and numbers. All their
    expressions have the same types, and all their references the same protection. -/
structure SameInAnyCase (s s' : Statement) : Prop where
  folded : s.folded = s'.folded
  types : (s.exprs.flatMap Expr.parts).map Expr.type = (s'.exprs.flatMap Expr.parts).map Expr.type
  protection : (s.exprs.flatMap Expr.fields).map Field.isProtected =
    (s'.exprs.flatMap Expr.fields).map Field.isProtected
  isProtected : s.isProtected = s'.isProtected

/-- Types and protection do not depend on letter case. -/
theorem SameInAnyCase.of_folded_eq {s s' : Statement} (h : s.folded = s'.folded) :
    SameInAnyCase s s' := by
  -- whatever does not look at letter case says the same of both
  have hfold : ∀ {α : Type} (f : List Expr → α), (∀ es, f (es.map Expr.folded) = f es) →
      f s.exprs = f s'.exprs := by
    intro α f insensitive
    rw [← insensitive s.exprs, ← exprs_folded, h, exprs_folded, insensitive]
  refine ⟨h, ?_, ?_, ?_⟩
  · refine hfold (fun es => (es.flatMap Expr.parts).map Expr.type) fun es => ?_
    simp only [List.map_flatMap, List.flatMap_map, Expr.parts_folded, List.map_map,
      Function.comp_def, Expr.type_folded]
  · refine hfold (fun es => (es.flatMap Expr.fields).map Field.isProtected) fun es => ?_
    simp only [List.map_flatMap, List.flatMap_map, Expr.fields_folded, List.map_map,
      Function.comp_def, Field.folded]
  · rw [isProtected_eq_any, isProtected_eq_any]
    refine hfold (fun es => es.any Expr.isProtected) fun es => ?_
    simp only [List.any_map, Function.comp_def, Expr.isProtected_folded]

end Statement

/-! ### Texts -/

/-- A catalog finds its tables in any letter case. -/
theorem Catalog.ignoresCase_schema (catalog : Catalog) (database : String) :
    (catalog.schema database).IgnoresCase := by
  intro name
  show catalog.table? database (Text.folded name) = catalog.table? database name
  unfold table?
  rw [Text.lower_folded]

/-- Trees that agree up to letter case are analyzed alike. -/
theorem Statement.analyzeTree_of_folded_eq {schema : Schema} (insensitive : schema.IgnoresCase)
    {tree tree' : SyntaxTree} (same : tree.folded = tree'.folded) :
    Mirrors StatementError.folded SameInAnyCase (analyzeTree schema tree)
      (analyzeTree schema tree') := by
  have hlowered : LoweredAlike folded (ofTree tree) (ofTree tree') := by
    have htree' := ofTree_folded tree'
    rw [← same] at htree'
    exact (ofTree_folded tree).both htree' fun _ _ _ h h' => h.trans h'.symm
  have hreported : Mirrors StatementError.folded (fun s s' => s.folded = s'.folded)
      ((ofTree tree).mapError .lowering) ((ofTree tree').mapError .lowering) :=
    hlowered.mapError fun e e' he => congrArg StatementError.lowering he
  refine hreported.bind fun s s' hs => ?_
  have hanalyzed : AnalyzedAlike folded (s.analyze schema) (s'.analyze schema) := by
    have hs' := analyze_folded insensitive s'
    rw [← hs] at hs'
    exact (analyze_folded insensitive s).both hs' fun _ _ _ h h' => h.trans h'.symm
  refine Mirrors.mapError (hanalyzed.mono fun _ _ => .of_folded_eq) fun e e' he => ?_
  exact congrArg StatementError.analysis he

section Texts

variable {sql sql' : String} (varies : Text.VariesInCase sql sql')
include varies

/-- Texts that differ in letter case have trees that do, or neither has a tree. -/
theorem SyntaxTree.ofText_of_variesInCase :
    Mirrors ParseError.folded (fun tree tree' => folded tree = folded tree') (ofText sql)
      (ofText sql') := by
  have hscan : Mirrors ParseError.folded (fun ts ts' => ts.map Token.folded = ts'.map Token.folded)
      ((Token.ofText sql).mapError .scan) ((Token.ofText sql').mapError .scan) :=
    (Token.ofText_of_variesInCase varies).mapError fun e e' he => congrArg ParseError.scan he
  rw [ofText_eq_bind, ofText_eq_bind]
  refine hscan.bind fun ts ts' hts => ?_
  have hts' := ofTokens_folded ts'
  rw [← hts] at hts'
  refine ((ofTokens_folded ts).both hts' ?_).mapError fun e e' he => congrArg ParseError.grammar he
  intro tree tree' _ h h'
  exact h.symm.trans h'

/-- Texts that differ in letter case outside of string literals are analyzed alike: both are refused
    for the same reason, or both are the same statement up to letter case, with the same types and
    the same protection. -/
theorem Statement.analyzeText_of_variesInCase (catalog : Catalog) (database : String) :
    Mirrors StatementError.folded SameInAnyCase (analyzeText (catalog.schema database) sql)
      (analyzeText (catalog.schema database) sql') := by
  have hparsed : Mirrors StatementError.folded (fun tree tree' => tree.folded = tree'.folded)
      ((SyntaxTree.ofText sql).mapError .parse) ((SyntaxTree.ofText sql').mapError .parse) :=
    (SyntaxTree.ofText_of_variesInCase varies).mapError fun e e' he =>
      congrArg StatementError.parse he
  exact hparsed.bind fun tree tree' =>
    analyzeTree_of_folded_eq (catalog.ignoresCase_schema database)

end Texts

/-- Keywords, names, the suffix of a number and a name in backticks vary in case; a string does
    not. -/
theorem Statement.analyzeText_of_variesInCase_mixed :
    let catalog := Catalog.empty.addTable "Main" ⟨"Staff", [⟨"name", .string, true, {}⟩]⟩
    let sql := "SELECT 2L N FROM `Staff` WHERE Name = 'Ann'"
    let sql' := "select 2l n from `sTAFF` where NAME = 'Ann'"
    Text.VariesInCase sql sql' ∧ ∃ s s', analyzeText (catalog.schema "main") sql = .ok s ∧
      analyzeText (catalog.schema "main") sql' = .ok s' ∧ SameInAnyCase s s' ∧
        s.isProtected = true := by
  intro catalog sql sql'
  let query : Query := {
    items := [⟨.literal .int "2L", some "N"⟩]
    where? := some (.compare .eq (.field ⟨"", "Name", .string, true⟩) (.literal .string "'Ann'"))
    tables := [⟨.table "Staff", none, none⟩] }
  have varies : Text.VariesInCase sql sql' := by decide
  have accepted : analyzeText (catalog.schema "main") sql = .ok (.select query) := by cbv
  have alike := analyzeText_of_variesInCase varies catalog "main"
  rw [accepted] at alike
  obtain ⟨s', hs', same⟩ := alike.ok_left
  exact ⟨varies, _, s', accepted, hs', same, by decide⟩

end SqlGuard
