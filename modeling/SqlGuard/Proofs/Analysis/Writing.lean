import SqlGuard.Proofs.Analysis.Typing
import SqlGuard.Proofs.Statement.Tokens
import SqlGuard.Statement.Render

/-!
# Notes are not written

A query with its notes has the written form and the tokens of the query without them. Main
statement: `Query.Typed.written`.
-/

namespace SqlGuard

/-! ### Expressions and clauses -/

/-- The second expression is written as the first one. -/
structure Expr.SameWriting (e e' : Expr) : Prop where
  isArith : e'.isArith = e.isArith
  tokens : e'.tokens = e.tokens
  render : e'.render = e.render

theorem Expr.Typed.written {scope : Scope} {e e' : Expr} (typed : e.Typed scope e') :
    e.SameWriting e' := by
  induction typed with
  | field means column => exact ⟨rfl, rfl, rfl⟩
  | literal kind text => exact ⟨rfl, rfl, rfl⟩
  | starCall name => exact ⟨rfl, rfl, rfl⟩
  | arith _ _ _ _ ihl ihr =>
    refine ⟨rfl, ?_, ?_⟩
    · rw [Expr.tokens, Expr.tokens, ihl.isArith, ihl.tokens, ihr.isArith, ihr.tokens]
    · rw [Expr.render, Expr.render, ihl.isArith, ihl.render, ihr.isArith, ihr.render]
  | compare _ _ _ ihl ihr =>
    refine ⟨rfl, ?_, ?_⟩
    · rw [Expr.tokens, Expr.tokens, ihl.tokens, ihr.tokens]
    · rw [Expr.render, Expr.render, ihl.render, ihr.render]

theorem SelectItem.Typed.written {scope : Scope} {item item' : SelectItem}
    (typed : item.Typed scope item') :
    item'.tokens = item.tokens ∧ item'.render = item.render := by
  obtain ⟨e, alias?⟩ := item
  obtain ⟨e', alias?'⟩ := item'
  obtain ⟨hexpr, halias⟩ := typed
  cases halias
  have same := hexpr.written
  cases alias? with
  | none => exact ⟨same.tokens, same.render⟩
  | some name =>
    constructor
    · exact congrArg (· ++ _) same.tokens
    · exact congrArg (· ++ _ ++ _) same.render

theorem map_eq_of_forall₂ {α β : Type} {R : α → α → Prop} {f : α → β} {xs ys : List α}
    (h : List.Forall₂ R xs ys) (same : ∀ x y, R x y → f y = f x) : ys.map f = xs.map f := by
  induction h with
  | nil => rfl
  | cons hxy _ ih => rw [List.map_cons, List.map_cons, same _ _ hxy, ih]

theorem map_eq_of_rel {α β : Type} {R : α → α → Prop} {f : α → β} {x? y? : Option α}
    (h : Option.Rel R x? y?) (same : ∀ x y, R x y → f y = f x) : y?.map f = x?.map f := by
  cases h with
  | none => rfl
  | some hxy => exact congrArg some (same _ _ hxy)

theorem Join.Typed.written {scope : Scope} {join? join?' : Option Join}
    (typed : Option.Rel (Join.Typed scope) join? join?') :
    (∀ ts, linkTokens ts join?' = linkTokens ts join?) ∧
      ∀ reference, renderLink reference join?' = renderLink reference join? := by
  cases typed with
  | none => exact ⟨fun _ => rfl, fun _ => rfl⟩
  | @some join join' typed =>
    obtain ⟨hop, -, hon⟩ := typed
    have htokens := map_eq_of_rel hon fun _ _ he => he.written.tokens
    have hrender := map_eq_of_rel hon fun _ _ he => he.written.render
    constructor
    · intro ts
      rw [linkTokens, linkTokens, hop, htokens]
    · intro reference
      rw [renderLink, renderLink, hop, hrender]

/-! ### Queries -/

/-- The references behind the first, and all of them, are written the same. -/
structure SameTables (tables tables' : List TableRef) : Prop where
  tokens? : tableTokens? tables' = tableTokens? tables
  render? : renderTables? tables' = renderTables? tables
  linkedTokens : linkedTokens tables' = linkedTokens tables
  renderLinked : renderLinked tables' = renderLinked tables

mutual

/-- A query with its notes is written as the query without them. -/
theorem Query.Typed.written {schema : Schema} : ∀ {query query' : Query},
    query.Typed schema query' → query'.tokens = query.tokens ∧ query'.render = query.render
  | ⟨items, where?, groupBy, tables⟩, query', typed => by
    cases typed with
    | @intro _ items' _ where?' _ groupBy' _ tables' scope sources joins selected condition
        grouped =>
      have same := TablesTyped.written sources joins
      have hempty : groupBy'.isEmpty = groupBy.isEmpty := by
        cases grouped <;> rfl
      constructor
      · rw [Query.tokens, Query.tokens, same.tokens?,
          map_eq_of_forall₂ selected fun _ _ h => h.written.1,
          map_eq_of_rel condition fun _ _ h => h.written.tokens, groupTokens?, groupTokens?, hempty,
          map_eq_of_forall₂ grouped fun _ _ h => h.written.tokens]
      · rw [Query.render, Query.render, same.render?,
          map_eq_of_forall₂ selected fun _ _ h => h.written.2,
          map_eq_of_rel condition fun _ _ h => h.written.render, renderGroupBy?, renderGroupBy?,
          hempty, map_eq_of_forall₂ grouped fun _ _ h => h.written.render]

/-- References with their notes are written as those without them. -/
theorem TablesTyped.written {schema : Schema} : ∀ {tables tables' : List TableRef}
    {outer scope : Scope}, TablesTyped schema tables tables' scope →
      JoinsTyped outer scope tables tables' → SameTables tables tables'
  | [], _, _, _, sources, _ => by
    cases sources
    exact ⟨rfl, rfl, rfl, rfl⟩
  | ⟨source, alias?, join?⟩ :: ts, _, _, _, sources, joins => by
    cases sources with
    | @cons _ t' _ ts' columns scope hsource halias rest =>
      obtain ⟨source', alias?', join?'⟩ := t'
      cases halias
      obtain ⟨hjoin, hjoins⟩ := joinsTyped_cons.1 joins
      obtain ⟨linkTokens_eq, renderLink_eq⟩ := Join.Typed.written hjoin
      have same := TablesTyped.written rest hjoins
      obtain ⟨hsourceTokens, hsourceRender⟩ := Source.Typed.written hsource
      have htokens : TableRef.sourceTokens ⟨source', alias?, join?'⟩ =
          TableRef.sourceTokens ⟨source, alias?, join?⟩ := by
        rw [TableRef.sourceTokens, TableRef.sourceTokens, hsourceTokens]
      have hrender : TableRef.renderSource ⟨source', alias?, join?'⟩ =
          TableRef.renderSource ⟨source, alias?, join?⟩ := by
        rw [TableRef.renderSource, TableRef.renderSource, hsourceRender]
      refine ⟨?_, ?_, ?_, ?_⟩
      · rw [tableTokens?, tableTokens?, htokens, same.linkedTokens]
      · rw [renderTables?, renderTables?, hrender, same.renderLinked]
      · rw [linkedTokens, linkedTokens, htokens, linkTokens_eq, same.linkedTokens]
      · rw [renderLinked, renderLinked, hrender, renderLink_eq, same.renderLinked]

/-- A source with its notes is written as the source without them. -/
theorem Source.Typed.written {schema : Schema} : ∀ {source source' : Source}
    {columns : List VisibleColumn}, source.Typed schema source' columns →
      source'.tokens = source.tokens ∧ source'.render = source.render
  | .table name, _, _, typed => by
    cases typed
    exact ⟨rfl, rfl⟩
  | .view query, _, _, typed => by
    cases typed with
    | view typed =>
      obtain ⟨htokens, hrender⟩ := Query.Typed.written typed
      constructor
      · rw [Source.tokens, Source.tokens, htokens]
      · rw [Source.render, Source.render, hrender]

end

end SqlGuard
