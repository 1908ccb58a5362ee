import SqlGuard.Analysis.Statement
import SqlGuard.Proofs.Messages.Lowering

/-!
# Messages on one line

A statement whose names have no line breaks is analyzed, or refused with a message on one line. So
a text without line breaks, whatever is wrong with it, is refused on one line. Main statement:
`StatementError.isLine_message`.
-/

namespace SqlGuard

/-- Analysis succeeds, or fails with a message on one line. -/
abbrev FailsOnLine {α : Type} (x : Analyzed α) : Prop :=
  Meets (fun e => Text.IsLine e.message) (fun _ => True) x

section Failures

variable {α β : Type}

theorem FailsOnLine.bind {x : Analyzed α} {f : α → Analyzed β} (h : FailsOnLine x)
    (hf : ∀ a, FailsOnLine (f a)) : FailsOnLine (x >>= f) :=
  Meets.bind h fun a _ => hf a

theorem failsOnLine_ok (a : α) : FailsOnLine (.ok a) := .ok trivial

theorem FailsOnLine.map {x : Analyzed α} (h : FailsOnLine x) (f : α → β) :
    FailsOnLine (f <$> x) :=
  Meets.map h fun _ _ => trivial

theorem failsOnLine_mapM {f : α → Analyzed β} {xs : List α} (each : ∀ x ∈ xs, FailsOnLine (f x)) :
    FailsOnLine (xs.mapM f) :=
  (Meets.mapM each).mono fun _ _ => trivial

end Failures

/-! ### Columns -/

theorem DataType.isLine_render (type : DataType) : Text.IsLine type.render := by
  cases type with
  | decimal precision scale =>
    have hprecision : Text.IsLine (toString precision) := Text.isLine_natToString precision.toNat
    have hscale : Text.IsLine (toString scale) := Text.isLine_natToString scale.toNat
    exact (((Text.IsLine.append (by decide) hprecision).append (by decide)).append hscale).append
      (by decide)
  | _ => decide

namespace AnalysisError

theorem isLine_unknownTable {name : String} (line : Text.IsLine name) :
    Text.IsLine (unknownTable name).message :=
  Text.IsLine.append (by decide) line

theorem isLine_unknownQualifier {qualifier : String} (line : Text.IsLine qualifier) :
    Text.IsLine (unknownQualifier qualifier).message :=
  Text.IsLine.append (by decide) line

theorem isLine_ambiguous {name : String} (line : Text.IsLine name) :
    Text.IsLine (ambiguous name).message :=
  Text.IsLine.append (by decide) line

theorem isLine_incompatibleOperands (op : BinaryOp) (left right : DataType) :
    Text.IsLine (incompatibleOperands op left right).message := by
  have hop : Text.IsLine op.symbol := by
    cases op with
    | arith op | compare op => cases op <;> decide
  have hbefore : Text.IsLine ("incompatible operands for '" ++ op.symbol ++ "': ") :=
    (Text.IsLine.append (by decide) hop).append (by decide)
  exact ((hbefore.append left.isLine_render).append (by decide)).append right.isLine_render

theorem isLine_unknownColumn {qualifier name : String}
    (hqualifier : Text.IsLine qualifier) (hname : Text.IsLine name) :
    Text.IsLine (unknownColumn qualifier name).message := by
  refine Text.IsLine.append (by decide) ?_
  split
  · exact hname
  · exact (hqualifier.append (by decide)).append hname

end AnalysisError

namespace Scope

theorem failsOnLine_theOnly {α : Type} {none several : AnalysisError}
    (hnone : Text.IsLine none.message) (hseveral : Text.IsLine several.message) (as : List α) :
    FailsOnLine (theOnly none several as) := by
  unfold theOnly
  split
  · exact .error hnone
  · exact failsOnLine_ok _
  · exact .error hseveral

theorem failsOnLine_column? {name : String} (line : Text.IsLine name) (entry : ScopeEntry) :
    FailsOnLine (entry.column? name) := by
  unfold ScopeEntry.column? atMostOne
  split
  · exact failsOnLine_ok _
  · exact failsOnLine_ok _
  · exact .error (AnalysisError.isLine_ambiguous line)

theorem failsOnLine_search {name : String} (line : Text.IsLine name) (scope : Scope) :
    ∀ found?, FailsOnLine (search name found? scope) := by
  induction scope with
  | nil => exact fun found? => failsOnLine_ok found?
  | cons entry scope ih =>
    intro found?
    rw [search]
    refine (failsOnLine_column? line entry).bind fun column? => ?_
    split
    · exact ih _
    · exact ih _
    · exact .error (AnalysisError.isLine_ambiguous line)

/-- Only the names of the reference are told. -/
theorem failsOnLine_resolve {qualifier name : String} (hqualifier : Text.IsLine qualifier)
    (hname : Text.IsLine name) (scope : Scope) : FailsOnLine (scope.resolve qualifier name) := by
  have hlookUp : FailsOnLine (scope.lookUp qualifier name) := by
    unfold lookUp
    split
    · exact failsOnLine_search hname scope _
    · refine FailsOnLine.bind ?_ (failsOnLine_column? hname)
      exact failsOnLine_theOnly (AnalysisError.isLine_unknownQualifier hqualifier)
        (AnalysisError.isLine_ambiguous hqualifier) _
  refine hlookUp.bind fun column? => ?_
  split
  · exact failsOnLine_ok _
  · exact .error (AnalysisError.isLine_unknownColumn hqualifier hname)

end Scope

/-! ### Expressions -/

namespace Expr

variable {scope : Scope}

theorem failsOnLine_resolve (scope : Scope) {e : Expr} (line : e.IsLine) :
    FailsOnLine (e.resolve scope) := by
  induction e with
  | field f =>
    obtain ⟨hqualifier, hname⟩ := line f (List.mem_singleton_self f)
    refine FailsOnLine.map ?_ _
    exact (Scope.failsOnLine_resolve hqualifier hname scope).bind fun _ => failsOnLine_ok _
  | literal | starCall => exact failsOnLine_ok _
  | arith op left right type ihl ihr =>
    obtain ⟨hleft, hright⟩ := List.forall_mem_append.1 line
    refine (ihl hleft).bind fun left => (ihr hright).bind fun right => FailsOnLine.bind ?_ fun _ =>
      failsOnLine_ok _
    unfold ArithOp.resultType
    split
    · exact failsOnLine_ok _
    · exact .error (AnalysisError.isLine_incompatibleOperands _ _ _)
  | compare op left right ihl ihr =>
    obtain ⟨hleft, hright⟩ := List.forall_mem_append.1 line
    refine (ihl hleft).bind fun left => (ihr hright).bind fun right => FailsOnLine.bind ?_ fun _ =>
      failsOnLine_ok _
    unfold CompareOp.check
    split
    · exact failsOnLine_ok _
    · exact .error (AnalysisError.isLine_incompatibleOperands _ _ _)

theorem failsOnLine_resolve? (scope : Scope) {e? : Option Expr} (line : ∀ e ∈ e?, e.IsLine) :
    FailsOnLine (resolve? scope e?) := by
  cases e? with
  | none => exact failsOnLine_ok none
  | some e => exact (failsOnLine_resolve scope (line e rfl)).map _

end Expr

theorem Query.failsOnLine_resolveClauses (scope : Scope) (tables : List TableRef) {query : Query}
    (items : ∀ item ∈ query.items, item.expr.IsLine) (condition : ∀ e ∈ query.where?, e.IsLine)
    (grouping : ∀ e ∈ query.groupBy, e.IsLine) :
    FailsOnLine (query.resolveClauses scope tables) := by
  refine FailsOnLine.bind ?_ fun _ => (Expr.failsOnLine_resolve? scope condition).bind fun _ =>
    FailsOnLine.bind ?_ fun _ => failsOnLine_ok _
  · refine failsOnLine_mapM fun item hitem => ?_
    exact (Expr.failsOnLine_resolve scope (items item hitem)).bind fun _ => failsOnLine_ok _
  · exact failsOnLine_mapM fun e he => Expr.failsOnLine_resolve scope (grouping e he)

theorem Join.failsOnLine_resolve? (scope : Scope) {join? : Option Join}
    (line : ∀ e ∈ join? >>= Join.on?, e.IsLine) : FailsOnLine (resolve? scope join?) := by
  cases join? with
  | none => exact failsOnLine_ok none
  | some join =>
    refine FailsOnLine.map ?_ _
    exact (Expr.failsOnLine_resolve? scope line).bind fun _ => failsOnLine_ok _

/-! ### Queries -/

theorem Schema.failsOnLine_columns (schema : Schema) {name : String} (line : Text.IsLine name) :
    FailsOnLine (schema.columns name) := by
  unfold columns
  split
  · exact failsOnLine_ok _
  · exact .error (AnalysisError.isLine_unknownTable line)

section Schema

variable (schema : Schema)

mutual

theorem Query.failsOnLine_analyze : ∀ query : Query, query.IsLine →
    FailsOnLine (query.analyze schema)
  | ⟨items, where?, groupBy, tables⟩, .intro hitems hwhere hgroup htables => by
    rw [Query.analyze]
    exact (failsOnLine_analyzeTables [] tables htables).bind fun _ =>
      Query.failsOnLine_resolveClauses _ _ hitems hwhere hgroup

theorem failsOnLine_analyzeTables : ∀ (scope : Scope) (tables : List TableRef),
    (∀ t ∈ tables, t.IsLine) → FailsOnLine (analyzeTables schema scope tables)
  | scope, [], _ => by
    rw [analyzeTables]
    exact failsOnLine_ok _
  | scope, t :: ts, line => by
    rw [List.forall_mem_cons] at line
    rw [analyzeTables]
    exact (TableRef.failsOnLine_analyze scope t line.1).bind fun _ =>
      (failsOnLine_analyzeTables _ ts line.2).bind fun _ => failsOnLine_ok _

theorem TableRef.failsOnLine_analyze (scope : Scope) : ∀ t : TableRef, t.IsLine →
    FailsOnLine (t.analyze schema scope)
  | ⟨source, alias?, join?⟩, .intro hsource hon => by
    rw [TableRef.analyze]
    exact (Source.failsOnLine_analyze source hsource).bind fun _ =>
      (Join.failsOnLine_resolve? _ hon).bind fun _ => failsOnLine_ok _

theorem Source.failsOnLine_analyze : ∀ source : Source, source.IsLine →
    FailsOnLine (source.analyze schema)
  | .table name, .table line => by
    rw [Source.analyze]
    exact (schema.failsOnLine_columns line).bind fun _ => failsOnLine_ok _
  | .view query, .view line => by
    rw [Source.analyze]
    exact (Query.failsOnLine_analyze query line).bind fun _ => failsOnLine_ok _

end

theorem Statement.failsOnLine_analyze {s : Statement} (line : s.IsLine) :
    FailsOnLine (s.analyze schema) := by
  cases line with
  | select hquery => exact (Query.failsOnLine_analyze schema _ hquery).map _
  | load path htable overwrite =>
    refine FailsOnLine.bind ?_ fun _ => failsOnLine_ok _
    unfold Schema.require
    split
    · exact failsOnLine_ok _
    · exact .error (AnalysisError.isLine_unknownTable htable)

/-- A text without line breaks that is refused is refused with a message on one line. -/
theorem StatementError.isLine_message {sql : String} (line : Text.IsLine sql) {e : StatementError}
    (h : Statement.analyzeText schema sql = .error e) : Text.IsLine e.message := by
  let told (e : StatementError) : Prop := Text.IsLine e.message
  have hparsed : Meets told SyntaxTree.IsLine ((SyntaxTree.ofText sql).mapError .parse) := by
    cases htree : SyntaxTree.ofText sql with
    | error e => exact .error (ParseError.isLine_message htree)
    | ok tree => exact .ok (SyntaxTree.isLine_ofText line htree)
  have hlowered : ∀ tree : SyntaxTree, tree.IsLine →
      Meets told Statement.IsLine ((Statement.ofTree tree).mapError .lowering) :=
    fun tree htree => (Statement.onLine_ofTree htree).mapError fun _ => id
  have hanalyzed : ∀ s : Statement, s.IsLine →
      Meets told (fun _ => True) ((s.analyze schema).mapError .analysis) :=
    fun s hs => (Statement.failsOnLine_analyze schema hs).mapError fun _ => id
  have hall : Meets told (fun _ => True) (Statement.analyzeText schema sql) :=
    hparsed.bind fun tree htree => (hlowered tree htree).bind hanalyzed
  rw [h] at hall
  exact hall.of_error

end Schema

end SqlGuard
