import Mathlib
import SqlGuard.Proofs.Analysis.SideBySide

/-!
# Tables that grow

A table may get more columns, at any positions. A statement that was analyzed before is then
analyzed to the same, or one of its references has become ambiguous: no reference ever comes to mean
another column. Main statement: `Statement.analyze_of_grown`.
-/

namespace SqlGuard

/-- The second table has the columns of the first, in their order, and possibly more. Keys do not
    count. -/
def Table.GrownTo (table table' : Table) : Prop :=
  (table.columns.map Column.visible).Sublist (table'.columns.map Column.visible)

/-! ### Statements that are the same -/

theorem Expr.Alike.eq {e e' : Expr} (h : e.Alike Eq e') : e = e' := by
  induction h with
  | field f isProtected => rw [isProtected]
  | literal kind text => rfl
  | starCall name => rfl
  | arith op type _ _ ihl ihr => rw [ihl, ihr]
  | compare op _ _ ihl ihr => rw [ihl, ihr]

theorem SelectItem.Alike.eq {item item' : SelectItem} (h : item.Alike Eq item') :
    item = item' := by
  obtain ⟨e, alias?⟩ := item
  obtain ⟨e', alias?'⟩ := item'
  obtain ⟨hexpr, halias⟩ := h
  cases halias
  cases hexpr.eq
  rfl

theorem eq_of_forall₂ {α : Type} {R : α → α → Prop} {xs ys : List α} (h : List.Forall₂ R xs ys)
    (same : ∀ x y, R x y → x = y) : xs = ys := by
  induction h with
  | nil => rfl
  | cons hxy _ ih => rw [same _ _ hxy, ih]

theorem eq_of_rel {α : Type} {R : α → α → Prop} {x? y? : Option α} (h : Option.Rel R x? y?)
    (same : ∀ x y, R x y → x = y) : x? = y? := by
  cases h with
  | none => rfl
  | some hxy => rw [same _ _ hxy]

theorem Join.Alike.eq {join join' : Join} (h : join.Alike Eq join') : join = join' := by
  obtain ⟨op, on?, left⟩ := join
  obtain ⟨op', on?', left'⟩ := join'
  obtain ⟨hop, hleft, hon⟩ := h
  cases hop
  cases hleft
  cases eq_of_rel hon fun _ _ => Expr.Alike.eq
  rfl

mutual

/-- Queries whose columns have the same protection are the same. -/
theorem Query.Alike.eq : ∀ {query query' : Query}, query.Alike Eq query' → query = query'
  | ⟨_, _, _, _⟩, _, .intro selected condition grouped sources => by
    rw [eq_of_forall₂ selected fun _ _ => SelectItem.Alike.eq,
      eq_of_rel condition fun _ _ => Expr.Alike.eq,
      eq_of_forall₂ grouped fun _ _ => Expr.Alike.eq, TablesAlike.eq sources]

theorem TablesAlike.eq : ∀ {tables tables' : List TableRef}, TablesAlike Eq tables tables' →
    tables = tables'
  | [], _, .nil => rfl
  | ⟨_, _, _⟩ :: _, _, .cons hsource hjoin rest => by
    rw [Source.Alike.eq hsource, eq_of_rel hjoin fun _ _ => Join.Alike.eq, TablesAlike.eq rest]

theorem Source.Alike.eq : ∀ {source source' : Source}, source.Alike Eq source' → source = source'
  | .table _, _, .table _ => rfl
  | .view _, _, .view hquery => by rw [Query.Alike.eq hquery]

end

theorem Statement.Alike.eq {s s' : Statement} (h : s.Alike Eq s') : s = s' := by
  cases h with
  | select hquery => rw [hquery.eq]
  | insert target? hquery => rw [hquery.eq]
  | load path table overwrite => rfl

/-! ### Growth -/

/-- What failed before may do anything now, and what succeeded may have become ambiguous. -/
def Leeway.growth : Leeway where
  both _ _ := True
  first _ := True
  second e := ∃ name, e = .ambiguous name
  both_self _ := trivial
  both_of_first _ _ := trivial
  both_of_second _ _ _ := trivial

theorem VisibleColumn.Alike.eq {c c' : VisibleColumn} (h : c.Alike Eq c') : c = c' := by
  obtain ⟨name, type, isProtected⟩ := c
  obtain ⟨name', type', isProtected'⟩ := c'
  obtain ⟨hname, htype, hprotected⟩ := h
  cases hname
  cases htype
  cases hprotected
  rfl

theorem VisibleColumn.Alike.refl (c : VisibleColumn) : c.Alike Eq c := ⟨rfl, rfl, rfl⟩

/-- The only column of its name stays the only one, or becomes one of several. -/
theorem theOnly_of_sublist {cs cs' : List VisibleColumn} (none : AnalysisError) (name : String)
    (h : cs.Sublist cs') :
    Leeway.growth.Match (VisibleColumn.Alike Eq) (Scope.theOnly none (.ambiguous name) cs)
      (Scope.theOnly none (.ambiguous name) cs') := by
  match cs, cs', h with
  | [], [], _ => exact .error none
  | [], [c'], _ => exact .first trivial c'
  | [], _ :: _ :: _, _ => exact .both trivial
  | [c], [c'], h =>
    rw [List.singleton_sublist.1 h |> List.mem_singleton.1]
    exact .ok (.refl c')
  | [c], _ :: _ :: _, _ => exact .second c ⟨name, rfl⟩
  | _ :: _ :: _, _ :: _ :: _, _ => exact .error _
  | _ :: _ :: _, [c'], _ => exact .first trivial c'

/-- Columns may be added anywhere. -/
def Likeness.growth : Likeness where
  toLeeway := .growth
  flags := Eq
  flags_or := ⟨rfl, fun h h' => by rw [h, h']⟩
  columns := List.Sublist
  columns_nil := .slnil
  columns_append h h' := h.append h'
  columns_of_forall₂ h := by rw [eq_of_forall₂ h fun _ _ => VisibleColumn.Alike.eq]
  theOnly_named none name h := theOnly_of_sublist none name (h.filter _)

/-- Where the tables of one database that a statement names have got more columns, the statement is
    analyzed to what it was before, or is refused as ambiguous. The other tables and databases may
    have changed in any way. -/
theorem Statement.analyze_of_grown {catalog catalog' : Catalog} {database : String}
    {s r : Statement}
    (grown : ∀ name, s.Names name → ∀ table, catalog.table? database name = some table →
      ∃ table', catalog'.table? database name = some table' ∧ table.GrownTo table')
    (analyzed : s.analyze (catalog.schema database) = .ok r) :
    s.analyze (catalog'.schema database) = .ok r ∨
      ∃ name, s.analyze (catalog'.schema database) = .error (.ambiguous name) := by
  have columns : ∀ name, s.Names name → Leeway.growth.Match List.Sublist
      ((catalog.schema database).columns name) ((catalog'.schema database).columns name) := by
    intro name named
    unfold Schema.columns Catalog.schema
    cases known : catalog.table? database name with
    | none =>
      cases catalog'.table? database name with
      | none => exact .error _
      | some table' => exact .first trivial _
    | some table =>
      obtain ⟨table', known', hgrown⟩ := grown name named table known
      rw [known']
      exact .ok hgrown
  have hmatch := Statement.analyze_alike .growth s columns
  rw [analyzed] at hmatch
  generalize s.analyze (catalog'.schema database) = answer at hmatch ⊢
  cases hmatch with
  | ok alike => exact .inl (by rw [alike.eq])
  | second _ ambiguous =>
    obtain ⟨name, rfl⟩ := ambiguous
    exact .inr ⟨name, rfl⟩

/-- A join, on one of whose sides a column has been added that is named like one of the other
    side. -/
theorem Statement.analyze_of_grown_join :
    let a : Column := { name := "a", type := .int }
    let b : Column := { name := "b", type := .int }
    let c : Column := { name := "B", type := .string, isSensitive := true }
    let u : Table := ⟨"u", [{ name := "id", type := .bigInt }, b]⟩
    let before : Catalog := (Catalog.empty.addTable "default" ⟨"t", [a]⟩).addTable "default" u
    let after : Catalog := (Catalog.empty.addTable "default" ⟨"t", [c, a]⟩).addTable "default" u
    let field (name : String) (type : DataType) : Expr := .field ⟨"", name, type, false⟩
    let joining (b a id : DataType) : Statement := .select
      { items := [⟨field "b" b, none⟩],
        tables := [⟨.table "t", none, none⟩,
          ⟨.table "u", none, some ⟨.inner, some (.compare .eq (field "a" a) (field "id" id)), 0⟩⟩] }
    let s := joining .unknown .unknown .unknown
    let r := joining .int .int .bigInt
    s.analyze (before.schema "default") = .ok r ∧
      (s.analyze (after.schema "default") = .ok r ∨
        ∃ name, s.analyze (after.schema "default") = .error (.ambiguous name)) := by
  intro a b c u before after field joining s r
  have analyzed : s.analyze (before.schema "default") = .ok r := by cbv
  refine ⟨analyzed, Statement.analyze_of_grown ?_ analyzed⟩
  have ht : after.table? "default" "t" = some ⟨"t", [c, a]⟩ := by cbv
  have ht' : before.table? "default" "t" = some ⟨"t", [a]⟩ := by cbv
  have hu : after.table? "default" "u" = some u := by cbv
  have hu' : before.table? "default" "u" = some u := by cbv
  intro name named table known
  have hname : name = "t" ∨ name = "u" := by
    obtain ⟨t, reference, hsource⟩ := Query.names_iff.1 (Statement.names_select_iff.1 named)
    rcases List.mem_pair.1 reference with rfl | rfl
    · rcases hsource with source | ⟨view, source, -⟩ <;> cases source
      exact .inl rfl
    · rcases hsource with source | ⟨view, source, -⟩ <;> cases source
      exact .inr rfl
  rcases hname with rfl | rfl
  · rw [ht'] at known
    cases known
    exact ⟨_, ht, List.sublist_cons_self _ _⟩
  · rw [hu'] at known
    cases known
    exact ⟨_, hu, .refl _⟩

end SqlGuard
