import Mathlib
import SqlGuard.Proofs.Analysis.Places
import SqlGuard.Proofs.Catalog.KnownTypes
import SqlGuard.Proofs.Toml.Types

/-!
# Types in analyzed statements

A column of unknown type is taken for an operand of anything, so operands are checked only where all
types are known. They are where the columns of the tables have known types, which is so of all that
are read from a file: each reference then has a type, and so have the columns of a view, which are
made of its expressions. Main statement: `Statement.isFullyTyped_of_analyze`.
-/

namespace SqlGuard

/-- Both types are types of numbers, or both that of texts, or both that of truth values. -/
def DataType.SameKind (left right : DataType) : Prop :=
  (left.isNumeric = true ∧ right.isNumeric = true) ∨ (left = .string ∧ right = .string) ∨
    (left = .boolean ∧ right = .boolean)

/-- Each reference and all arithmetic has a type, that of numbers for arithmetic, and the operands
    of each operator are of a kind that it takes. -/
def Expr.IsFullyTyped : Expr → Prop
  | .field f => f.type ≠ .unknown
  | .literal _ _ | .starCall _ => True
  | .arith _ left right type => left.IsFullyTyped ∧ right.IsFullyTyped ∧
      left.type.isNumeric = true ∧ right.type.isNumeric = true ∧ type.isNumeric = true
  | .compare _ left right =>
    left.IsFullyTyped ∧ right.IsFullyTyped ∧ left.type.SameKind right.type

/-- The expressions of a query are fully typed, apart from those of its views. The items have types,
    and so have the columns that a query around it sees. -/
structure Query.IsFullyTyped (query : Query) : Prop where
  exprs : ∀ e n, query.Holds e n → e.IsFullyTyped
  items : ∀ item ∈ query.items, item.expr.type ≠ .unknown
  exposed : ∀ column ∈ query.visibleColumns, column.type ≠ .unknown

/-- The query of a statement is fully typed at every level. -/
def Statement.IsFullyTyped (s : Statement) : Prop :=
  ∀ query, s.query? = some query → ∀ level, query.Contains level → level.IsFullyTyped

/-- The schema is that of a database which is decoded from the text of a file: from a catalog, or
    from a configuration. -/
inductive Schema.IsLoaded : Schema → Prop
  | catalog {decoder : Decoder} (reads : decoder.ReadsTypes) {text : String} {catalog : Catalog}
      (loaded : decoder.catalog? text = some catalog) (database : String) :
      IsLoaded (catalog.schema database)
  | config {decoder : Decoder} (reads : decoder.ReadsTypes) {text : String} {config : Config}
      (loaded : decoder.config? text = some config) (database : String) :
      IsLoaded (config.catalog.schema database)

theorem Schema.IsLoaded.knowsTypes {schema : Schema} (loaded : schema.IsLoaded) :
    schema.KnowsTypes := by
  cases loaded with
  | catalog reads loaded database => exact reads.catalog loaded database
  | config reads loaded database => exact reads.config loaded database

/-! ### Types -/

namespace DataType

variable {left right type : DataType}

theorem isNumeric_widen (hleft : left.isNumeric = true) (hright : right.isNumeric = true) :
    (left.widen right).isNumeric = true := by
  unfold widen
  split_ifs with hunknown hrank
  · rcases hunknown with rfl | rfl
    · cases hleft
    · cases hright
  · exact hleft
  · exact hright

theorem sameKind_of_comparable (hleft : left ≠ .unknown) (hright : right ≠ .unknown)
    (comparable : left.comparable right = true) : left.SameKind right := by
  unfold DataType.comparable at comparable
  split at comparable
  · exact absurd rfl hleft
  · exact absurd rfl hright
  · exact .inr (.inl ⟨rfl, rfl⟩)
  · exact .inr (.inr ⟨rfl, rfl⟩)
  · exact .inl (Bool.and_eq_true_iff.1 comparable)

theorem ne_unknown_of_isNumeric (numeric : type.isNumeric = true) : type ≠ .unknown := by
  rintro rfl
  cases numeric

end DataType

/-! ### Expressions -/

theorem LiteralKind.type_ne_unknown (kind : LiteralKind) (text : String) :
    kind.type text ≠ .unknown := by
  cases kind with
  | int =>
    rw [LiteralKind.type]
    split <;> nofun
  | float =>
    rw [LiteralKind.type, decimalLiteralType?]
    split
    · split <;> nofun
    · nofun
  | string => nofun

theorem Expr.IsFullyTyped.type_ne_unknown {e : Expr} (typed : e.IsFullyTyped) :
    e.type ≠ .unknown := by
  cases e with
  | field f => exact typed
  | literal kind text => exact kind.type_ne_unknown text
  | starCall name => nofun
  | arith op left right type => exact DataType.ne_unknown_of_isNumeric typed.2.2.2.2
  | compare op left right => nofun

/-- The type of each column in sight is known. -/
def Scope.KnowsTypes (scope : Scope) : Prop :=
  ∀ entry ∈ scope, ∀ column ∈ entry.columns, column.type ≠ .unknown

theorem Scope.KnowsTypes.take {scope : Scope} (known : scope.KnowsTypes) (n : Nat) :
    Scope.KnowsTypes (scope.take n) :=
  fun entry hentry => known entry (List.mem_of_mem_take hentry)

theorem Scope.KnowsTypes.at? {scope : Scope} (known : scope.KnowsTypes) {p : Place}
    {c : VisibleColumn} (hat : scope.at? p = some c) : c.type ≠ .unknown := by
  obtain ⟨i, j⟩ := p
  obtain ⟨entry, hi, hj⟩ := Scope.at?_eq_some.1 hat
  exact known entry (List.mem_of_getElem? hi) c (List.mem_of_getElem? hj)

/-- What fits a scope of known types is fully typed. -/
theorem Expr.Typed.isFullyTyped {scope : Scope} (known : scope.KnowsTypes) {e e' : Expr}
    (typed : e.Typed scope e') : e'.IsFullyTyped := by
  induction typed with
  | field means column => exact known.at? column
  | literal kind text => trivial
  | starCall name => trivial
  | arith _ _ leftOk rightOk ihl ihr =>
    have hleft := leftOk.resolve_left ihl.type_ne_unknown
    have hright := rightOk.resolve_left ihr.type_ne_unknown
    exact ⟨ihl, ihr, hleft, hright, DataType.isNumeric_widen hleft hright⟩
  | compare _ _ comparable ihl ihr =>
    exact ⟨ihl, ihr,
      DataType.sameKind_of_comparable ihl.type_ne_unknown ihr.type_ne_unknown comparable⟩

/-! ### Queries and statements -/

namespace Query

variable {schema : Schema}

/-- A query whose expressions are fully typed has items and columns of known types. -/
theorem isFullyTyped_of_exprs {query : Query} (exprs : ∀ e n, query.Holds e n → e.IsFullyTyped) :
    query.IsFullyTyped := by
  have items : ∀ item ∈ query.items, item.expr.type ≠ .unknown :=
    fun item selected => (exprs _ _ (.item selected)).type_ne_unknown
  refine ⟨exprs, items, fun column hcolumn => ?_⟩
  obtain ⟨i, hi, rfl⟩ := List.mem_mapIdx.1 hcolumn
  exact items _ (List.getElem_mem hi)

/-- The scope of a query knows the types of its columns if the views of the query are fully
    typed. -/
theorem knowsTypes_of_views {tables tables' : List TableRef} {scope : Scope}
    (known : schema.KnowsTypes) (sources : TablesTyped schema tables tables' scope)
    (views : ∀ t ∈ tables, ∀ view, t.source = .view view → ∀ view', view.Typed schema view' →
      view'.IsFullyTyped) : scope.KnowsTypes := by
  intro entry hentry
  obtain ⟨i, hi⟩ := List.getElem?_of_mem hentry
  obtain ⟨t, t', ht, -, source⟩ := sources.reference_of_entry hi
  generalize hs : t.source = s at source
  generalize hs' : t'.source = s' at source
  generalize hcolumns : entry.columns = columns at source
  cases source with
  | table hknown =>
    intro column hcolumn
    obtain ⟨c, hc, rfl⟩ := List.mem_map.1 hcolumn
    exact known _ _ hknown c hc
  | view typed => exact (views t (List.mem_of_getElem? ht) _ hs _ typed).exposed

/-- A typed query is fully typed at every level. -/
theorem Typed.isFullyTyped (known : schema.KnowsTypes) (query : Query) {query' : Query}
    (typed : query.Typed schema query') {level : Query} (inside : query'.Contains level) :
    level.IsFullyTyped := by
  -- a query sees of its views what these select, so they come first
  induction query using view_induction generalizing query' level with
  | step query ih =>
    obtain ⟨scope, sources, -, -, backward⟩ := typed.scope
    rcases contains_iff.1 inside with rfl | ⟨t', reference, view', source, deeper⟩
    · have hscope : scope.KnowsTypes := knowsTypes_of_views known sources
        fun t reference view source view' hview => ih t reference view source hview (.self view')
      refine isFullyTyped_of_exprs fun e' n holds => ?_
      obtain ⟨e, -, htyped⟩ := backward e' n holds
      exact htyped.isFullyTyped (hscope.take n)
    · obtain ⟨t, view, ht, hs, hview⟩ := sources.view_of_view reference source
      exact ih t ht view hs hview deeper

end Query

/-- Where the types of all columns are known, as they are in each schema that is read from a file,
    an analyzed statement is fully typed at every level. -/
theorem Statement.isFullyTyped_of_analyze {schema : Schema}
    (known : schema.IsLoaded ∨ schema.KnowsTypes) {s r : Statement}
    (analyzed : s.analyze schema = .ok r) : r.IsFullyTyped := by
  have known : schema.KnowsTypes := known.elim Schema.IsLoaded.knowsTypes id
  intro query selects level inside
  cases Statement.analyze_eq_ok_iff.1 analyzed with
  | select typed =>
    cases selects
    exact typed.isFullyTyped known _ inside
  | insert _ typed =>
    cases selects
    exact typed.isFullyTyped known _ inside
  | load _ => cases selects

/-- A view of products that is joined on an expression, over a catalog that is read from a file. -/
theorem Statement.isFullyTyped_of_analyze_loaded :
    let text := "[[databases.d.tables]]\nname='t'\n" ++
      "columns=[['a', 'INT'], ['b', 'Decimal(12, 2)'], ['c', 'varchar']]"
    let field (qualifier name : String) : Expr := .field (.unresolved qualifier name)
    let view : Query :=
      { items := [⟨.arith .mul (field "" "a") (field "" "b") .unknown, some "p"⟩]
        where? := some (.compare .ne (field "" "c") (.literal .string "'x'"))
        tables := [⟨.table "t", none, none⟩] }
    let on : Expr := .compare .eq (field "v" "p") (.arith .add (field "t" "a") (field "v" "p") .int)
    let s : Statement := .insert (some "t") { items := [⟨field "v" "p", none⟩], tables :=
      [⟨.view view, some "v", none⟩, ⟨.table "t", none, some ⟨.inner, some on, 0⟩⟩] }
    let table : Table := ⟨"t", [{ name := "a", type := .int },
      { name := "b", type := .decimal 12 2 }, { name := "c", type := .string }]⟩
    let catalog : Catalog := { databases := [("d", { tables := [("t", table)] })] }
    ∃ r, Toml.decoder.catalog? text = some catalog ∧ s.analyze (catalog.schema "D") = .ok r ∧
      r.IsFullyTyped := by
  intro text field view on s table catalog
  have loaded : Toml.decoder.catalog? text = some catalog := by decide +kernel
  have accepted : (s.analyze (catalog.schema "D")).isOk = true := by cbv
  cases analyzed : s.analyze (catalog.schema "D") with
  | error e =>
    rw [analyzed] at accepted
    cases accepted
  | ok r =>
    have isLoaded : (catalog.schema "D").IsLoaded := .catalog Toml.decoder_readsTypes loaded "D"
    exact ⟨r, loaded, rfl, Statement.isFullyTyped_of_analyze (.inl isLoaded) analyzed⟩

end SqlGuard
