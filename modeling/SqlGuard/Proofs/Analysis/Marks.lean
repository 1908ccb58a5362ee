import Mathlib
import SqlGuard.Proofs.Analysis.SideBySide
import SqlGuard.Proofs.Analysis.Writing

/-!
# Marks of sensitivity

Two catalogs differ in which columns are sensitive, in keys and in parameters, and in nothing else.
What is decided about a statement does not depend on these marks, and where more columns are
sensitive, more of the statement is protected. Main statement: `Statement.analyze_of_marks`.
-/

namespace SqlGuard

/-! ### Catalogs that differ in their marks -/

/-- Columns of one name and type whose sensitivity is related by `P`. Their keys may differ. -/
structure Column.Alike (P : Bool → Bool → Prop) (column column' : Column) : Prop where
  name : column.name = column'.name
  type : column.type = column'.type
  isSensitive : P column.isSensitive column'.isSensitive

/-- Tables of one name with such columns, in the same order. -/
structure Table.Alike (P : Bool → Bool → Prop) (table table' : Table) : Prop where
  name : table.name = table'.name
  columns : List.Forall₂ (Column.Alike P) table.columns table'.columns

/-- Values that are related, under the same keys in the same order. -/
def Keyed.Alike {α : Type} (R : α → α → Prop) (entries entries' : Keyed α) : Prop :=
  List.Forall₂ (fun entry entry' => entry.1 = entry'.1 ∧ R entry.2 entry'.2) entries entries'

/-- Databases with such tables. Their parameters may differ. -/
def Database.Alike (P : Bool → Bool → Prop) (database database' : Database) : Prop :=
  Keyed.Alike (Table.Alike P) database.tables database'.tables

/-- Catalogs with such databases: the same but for parameters, keys and the sensitivity of columns,
    which is related by `P`. -/
def Catalog.Alike (P : Bool → Bool → Prop) (catalog catalog' : Catalog) : Prop :=
  Keyed.Alike (Database.Alike P) catalog.databases catalog'.databases

theorem Keyed.Alike.find? {α : Type} {R : α → α → Prop} {entries entries' : Keyed α}
    (h : Keyed.Alike R entries entries') (key : String) :
    Option.Rel R (entries.find? key) (entries'.find? key) := by
  induction h with
  | nil => exact .none
  | @cons entry entry' _ _ hentry _ ih =>
    obtain ⟨k, a⟩ := entry
    obtain ⟨k', a'⟩ := entry'
    obtain ⟨hkey, hvalue⟩ := hentry
    cases hkey
    rw [Keyed.find?, Keyed.find?]
    split
    · exact .some hvalue
    · exact ih

section

variable {P : Bool → Bool → Prop} {catalog catalog' : Catalog}

theorem Catalog.Alike.table? (h : catalog.Alike P catalog') (database name : String) :
    Option.Rel (Table.Alike P) (catalog.table? database name) (catalog'.table? database name) := by
  have hdatabase := Keyed.Alike.find? h (Text.lower database)
  unfold Catalog.table? Catalog.database?
  revert hdatabase
  generalize catalog.databases.find? (Text.lower database) = entry?,
    catalog'.databases.find? (Text.lower database) = entry?'
  intro hdatabase
  cases hdatabase with
  | none => exact .none
  | some hentry => exact Keyed.Alike.find? hentry (Text.lower name)

theorem Table.Alike.visible {table table' : Table} (h : table.Alike P table') :
    List.Forall₂ (VisibleColumn.Alike P) (table.columns.map Column.visible)
      (table'.columns.map Column.visible) := by
  rw [List.forall₂_map_left_iff, List.forall₂_map_right_iff]
  exact h.columns.imp fun _ _ hcolumn => ⟨hcolumn.name, hcolumn.type, hcolumn.isSensitive⟩

/-! ### Results that differ in protection -/

theorem any_alike {α : Type} {R : α → α → Prop} {f : α → Bool} {xs ys : List α}
    (h : List.Forall₂ R xs ys) (closed : OrClosed P) (each : ∀ x y, R x y → P (f x) (f y)) :
    P (xs.any f) (ys.any f) := by
  induction h with
  | nil => exact closed.false
  | cons hxy _ ih => exact closed.or (each _ _ hxy) ih

theorem any?_alike {α : Type} {R : α → α → Prop} {f : α → Bool} {x? y? : Option α}
    (h : Option.Rel R x? y?) (closed : OrClosed P) (each : ∀ x y, R x y → P (f x) (f y)) :
    P (x?.any f) (y?.any f) := by
  cases h with
  | none => exact closed.false
  | some hxy => exact each _ _ hxy

theorem on?_alike {join? join?' : Option Join} (h : Option.Rel (Join.Alike P) join? join?') :
    Option.Rel (Expr.Alike P) (join? >>= Join.on?) (join?' >>= Join.on?) := by
  cases h with
  | none => exact .none
  | some hjoin => exact hjoin.on

mutual

/-- The flags of queries are related as those of their columns are. -/
theorem Query.Alike.isProtected (closed : OrClosed P) : ∀ {query query' : Query},
    query.Alike P query' → P query.isProtected query'.isProtected
  | ⟨items, where?, groupBy, tables⟩, ⟨items', where?', groupBy', tables'⟩,
    .intro selected condition grouped sources => by
    have hitems : P (items.any (·.expr.isProtected)) (items'.any (·.expr.isProtected)) :=
      any_alike selected closed fun _ _ h => h.expr.isProtected closed
    have hwhere : P (where?.any Expr.isProtected) (where?'.any Expr.isProtected) :=
      any?_alike condition closed fun _ _ h => h.isProtected closed
    have hgroup : P (groupBy.any Expr.isProtected) (groupBy'.any Expr.isProtected) :=
      any_alike grouped closed fun _ _ h => h.isProtected closed
    have htables := TablesAlike.isProtected closed sources
    exact closed.or (closed.or (closed.or hitems hwhere) hgroup) htables

theorem TablesAlike.isProtected (closed : OrClosed P) : ∀ {tables tables' : List TableRef},
    TablesAlike P tables tables' → P (anyProtected tables) (anyProtected tables')
  | [], _, .nil => closed.false
  | ⟨_, _, join?⟩ :: _, ⟨_, _, join?'⟩ :: _, .cons hsource hjoin rest => by
    have hon : P ((join? >>= Join.on?).any Expr.isProtected)
        ((join?' >>= Join.on?).any Expr.isProtected) :=
      any?_alike (on?_alike hjoin) closed fun _ _ h => h.isProtected closed
    have hview := Source.Alike.isProtected closed hsource
    exact closed.or (closed.or hon hview) (TablesAlike.isProtected closed rest)

theorem Source.Alike.isProtected (closed : OrClosed P) : ∀ {source source' : Source},
    source.Alike P source' → P source.isProtected source'.isProtected
  | .table _, _, .table _ => closed.false
  | .view _, _, .view hquery => Query.Alike.isProtected closed hquery

end

theorem Statement.Alike.isProtected (closed : OrClosed P) {s s' : Statement} (h : s.Alike P s') :
    P s.isProtected s'.isProtected := by
  cases h with
  | select hquery => exact hquery.isProtected closed
  | insert target? hquery => exact hquery.isProtected closed
  | load path table overwrite => exact closed.false

/-! ### Marks -/

/-- Only failures of the same kind are let pass. -/
def Leeway.same : Leeway where
  both := Eq
  first _ := False
  second _ := False
  both_self _ := rfl
  both_of_first _ h := h.elim
  both_of_second _ _ h := h.elim

/-- Both computations fail in the same way, or their answers are related. -/
theorem Leeway.Match.same_iff {α β : Type} {R : α → β → Prop} {x : Analyzed α} {y : Analyzed β} :
    Leeway.same.Match R x y ↔
      (∃ e, x = .error e ∧ y = .error e) ∨ ∃ a b, x = .ok a ∧ y = .ok b ∧ R a b := by
  constructor
  · intro h
    rcases h.outcomes (fun _ => id) (fun _ => id) with ⟨e, _, hx, hy, rfl⟩ | answers
    · exact .inl ⟨e, hx, hy⟩
    · exact .inr answers
  · intro given
    rcases given with ⟨e, rfl, rfl⟩ | ⟨a, b, rfl, rfl, related⟩
    · exact .error e
    · exact .ok related

/-- Columns of the same names and types, at the same positions. -/
def Likeness.marks (closed : OrClosed P) : Likeness where
  toLeeway := .same
  flags := P
  flags_or := closed
  columns := List.Forall₂ (VisibleColumn.Alike P)
  columns_nil := .nil
  columns_append h h' := List.rel_append h h'
  columns_of_forall₂ h := h
  theOnly_named none name h := by
    refine .theOnly none _ ?_
    unfold columnsNamed
    induction h with
    | nil => exact .nil
    | @cons c c' _ _ hcolumn _ ih =>
      rw [List.filter_cons, List.filter_cons, ← hcolumn.name]
      split
      · exact .cons hcolumn ih
      · exact ih

theorem Statement.analyze_alike_of_marks (closed : OrClosed P) (alike : catalog.Alike P catalog')
    (database : String) (s : Statement) :
    Leeway.same.Match (Statement.Alike P) (s.analyze (catalog.schema database))
      (s.analyze (catalog'.schema database)) := by
  refine Statement.analyze_alike (.marks closed) s fun name _ => ?_
  have htable := alike.table? database name
  unfold Schema.columns Catalog.schema
  revert htable
  generalize catalog.table? database name = table?, catalog'.table? database name = table?'
  intro htable
  cases htable with
  | none => exact .error _
  | some htable => exact .ok htable.visible

end

/-- An analyzed statement is written as it was before. -/
theorem Statement.render_of_analyze {schema : Schema} {s r : Statement}
    (analyzed : s.analyze schema = .ok r) : r.render = s.render := by
  cases Statement.analyze_eq_ok_iff.1 analyzed with
  | select typed => exact typed.written.2
  | @insert target? _ _ known typed =>
    cases target? with
    | none => exact typed.written.2
    | some target => exact congrArg (_ ++ ·) typed.written.2
  | load known => rfl

/-- The second flag is set wherever the first one is. -/
def Raised (b b' : Bool) : Prop := b = true → b' = true

theorem orClosed_raised : OrClosed Raised where
  false := id
  or ha hb h := by
    rw [Bool.or_eq_true] at h ⊢
    exact h.imp ha hb

/-- Against two catalogs that are the same but for parameters, keys and the sensitivity of columns,
    a statement fails in the same way, or is analyzed to statements that are written the same and
    are the same but for the protection of columns. If every column that is sensitive in the first
    catalog is so in the second, every column that is protected in the first result is so in the
    second, and the second statement is protected if the first one is. -/
theorem Statement.analyze_of_marks {catalog catalog' : Catalog}
    (same : catalog.Alike (fun _ _ => True) catalog') (database : String) (s : Statement) :
    (∃ e, s.analyze (catalog.schema database) = .error e ∧
      s.analyze (catalog'.schema database) = .error e) ∨
    ∃ r r', s.analyze (catalog.schema database) = .ok r ∧
      s.analyze (catalog'.schema database) = .ok r' ∧
      r.Alike (fun _ _ => True) r' ∧ r.render = r'.render ∧
      (catalog.Alike Raised catalog' →
        r.Alike Raised r' ∧ (r.isProtected = true → r'.isProtected = true)) := by
  have anyFlags : OrClosed fun _ _ => True := ⟨trivial, fun _ _ => trivial⟩
  have hsame := Statement.analyze_alike_of_marks anyFlags same database s
  rcases Leeway.Match.same_iff.1 hsame with hfail | ⟨r, r', analyzed, analyzed', hr⟩
  · exact .inl hfail
  have hrender : r.render = r'.render := by
    rw [Statement.render_of_analyze analyzed, Statement.render_of_analyze analyzed']
  refine .inr ⟨r, r', analyzed, analyzed', hr, hrender, ?_⟩
  intro raised
  have hraised := Statement.analyze_alike_of_marks orClosed_raised raised database s
  rw [analyzed, analyzed'] at hraised
  cases hraised with
  | ok alike => exact ⟨alike, alike.isProtected orClosed_raised⟩

/-- A column that a view computes with becomes sensitive, and keys and parameters are set. -/
theorem Statement.analyze_of_marks_view :
    let a : Column := { name := "a", type := .int }
    let a' : Column := { name := "a", type := .int, isSensitive := true, key := ⟨"7", "3"⟩ }
    let b : Column := { name := "b", type := .double }
    let before : Catalog := ⟨[("default", { tables := [("t", ⟨"t", [a, b]⟩)] })]⟩
    let after : Catalog :=
      ⟨[("default", { params := ⟨"35", "5", "7", "2"⟩, tables := [("t", ⟨"t", [a', b]⟩)] })]⟩
    let sum : Expr := .arith .add (.field ⟨"", "a", .unknown, false⟩)
      (.field ⟨"", "b", .unknown, false⟩) .unknown
    let view : Query := { items := [⟨sum, some "s"⟩], tables := [⟨.table "t", none, none⟩] }
    let s : Statement := .select
      { items := [⟨.field ⟨"v", "s", .unknown, false⟩, none⟩],
        tables := [⟨.view view, some "v", none⟩] }
    before.Alike Raised after ∧
      ∃ r r', s.analyze (before.schema "default") = .ok r ∧
        s.analyze (after.schema "default") = .ok r' ∧
        r.Alike Raised r' ∧ r.render = r'.render ∧
        (r.isProtected = true → r'.isProtected = true) := by
  intro a a' b before after sum view s
  have columns {P : Bool → Bool → Prop} (h : ∀ flag, P false flag) : before.Alike P after := by
    have ha : a.Alike P a' := ⟨rfl, rfl, h true⟩
    have hb : b.Alike P b := ⟨rfl, rfl, h false⟩
    have htable : Table.Alike P ⟨"t", [a, b]⟩ ⟨"t", [a', b]⟩ := ⟨rfl, .cons ha (.cons hb .nil)⟩
    exact .cons ⟨rfl, .cons ⟨rfl, htable⟩ .nil⟩ .nil
  have raised : before.Alike Raised after := columns fun _ h => nomatch h
  have succeeds : (s.analyze (before.schema "default")).isOk = true := by cbv
  refine ⟨raised, ?_⟩
  rcases Statement.analyze_of_marks (columns fun _ => trivial) "default" s with
    ⟨e, failed, -⟩ | ⟨r, r', analyzed, analyzed', -, hrender, monotone⟩
  · rw [failed] at succeeds
    cases succeeds
  · obtain ⟨hr, hprotected⟩ := monotone raised
    exact ⟨r, r', analyzed, analyzed', hr, hrender, hprotected⟩

end SqlGuard
