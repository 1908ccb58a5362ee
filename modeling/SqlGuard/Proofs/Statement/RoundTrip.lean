import SqlGuard.Analysis.Statement
import SqlGuard.Proofs.Lowering.Written
import SqlGuard.Proofs.Statement.Spelling

/-!
# Written statements are read back

The written form of a plain statement is a text of that statement: scanning, reading and lowering
undo writing. Main statement: `Statement.ofText_render_eq_ok`.
-/

namespace SqlGuard

open Reader Grammar

/-! ### The tokens of a statement as a whole -/

theorem Grammar.run_wholeStatement {ts : List Token} {tree : SyntaxTree}
    (h : statement.run ts = .ok (tree, [.eof])) :
    wholeStatement.run ts = .ok (tree, [.eof]) := by
  have hsemicolon : (accept (.mark .semicolon) : TokenReader Bool).run [.eof] =
      .ok (false, [.eof]) :=
    run_accept_none (heads_cons.2 (by decide))
  rw [wholeStatement, run_bind_ok h, run_bind_ok hsemicolon]
  rfl

theorem Query.tokens_eq_cons (query : Query) : ∃ ts, query.tokens = .keyword .SELECT :: ts := by
  obtain ⟨items, where?, groupBy, tables⟩ := query
  rw [Query.tokens]
  exact ⟨_, rfl⟩

theorem heads_eof : Heads (· ∈ behindQuery) [.eof] := heads_cons.2 (by decide)

theorem Query.IsShaped.run_statement {query : Query} (shaped : query.IsShaped) :
    statement.run (query.tokens ++ [.eof]) = .ok (query.tree tempDestination, [.eof]) := by
  have hquery : (Grammar.query tempDestination).run (query.tokens ++ [.eof]) =
      .ok (query.tree tempDestination, [.eof]) := shaped.run_query heads_eof
  obtain ⟨ts, hts⟩ := query.tokens_eq_cons
  rw [hts] at hquery ⊢
  exact hquery

/-- The table that the rows of a query go to. -/
def targetTree (target : String) : SyntaxTree :=
  .node .targetTable [.node .tableName [nameLeaf target]]

theorem run_tableName {name : String} {rest : List Token} (behind : Heads (· ≠ .mark .dot) rest) :
    tableName.run (.ident name :: rest) = .ok (.node .tableName [nameLeaf name], rest) := by
  rw [tableName, run_bind_ok (a := name) rfl, run_bind_ok (run_after?_none behind)]
  rfl

theorem Query.IsShaped.run_insert {query : Query} (shaped : query.IsShaped) (target : String) :
    statement.run ((Statement.insert (some target) query).tokens ++ [.eof]) =
      .ok (query.tree (targetTree target), [.eof]) := by
  have hquery : (Grammar.query (targetTree target)).run (query.tokens ++ [.eof]) = _ :=
    shaped.run_query heads_eof
  have htable : tableName.run (.ident target :: (query.tokens ++ [.eof])) =
      .ok (.node .tableName [nameLeaf target], query.tokens ++ [.eof]) := by
    obtain ⟨ts, hts⟩ := query.tokens_eq_cons
    rw [hts]
    exact run_tableName (heads_cons.2 (by decide))
  have hinsert : insert.run (.keyword .OVERWRITE :: .keyword .TABLE :: .ident target ::
      (query.tokens ++ [.eof])) = .ok (query.tree (targetTree target), [.eof]) := by
    unfold Grammar.insert
    rw [expect, expect, run_bind_ok run_demand, run_bind_ok run_demand, run_bind_ok htable]
    exact hquery
  exact hinsert

theorem run_load (path table : String) :
    statement.run ((Statement.load path table true).tokens ++ [.eof]) =
      .ok (.node .load [.leaf .stringLiteral ("'" ++ path ++ "'"), targetTree table,
        .leaf .overwriteFlag "OVERWRITE"], [.eof]) := by
  rfl

/-! ### Reading texts -/

/-- A text whose tokens are those of a statement is the statement that their tree is. -/
theorem Statement.ofText_eq_ok {sql : String} {ts : List Token} {tree : SyntaxTree} {s : Statement}
    (scanned : Token.ofText sql = .ok ts) (read : statement.run ts = .ok (tree, [.eof]))
    (lowered : Statement.ofTree tree = .ok s) : Statement.ofText sql = .ok s := by
  have htree : SyntaxTree.ofText sql = .ok tree := by
    rw [SyntaxTree.ofText, scanned]
    simp only [SyntaxTree.ofTokens, run_wholeStatement read, Except.map]
  rw [Statement.ofText, htree]
  simp only [Except.mapError, bind, Except.bind, lowered]

theorem Query.IsShaped.ofTree_statement {query : Query} (shaped : query.IsShaped)
    (destination : SyntaxTree) :
    Statement.ofTree (query.tree destination) = .ok (.select query) := by
  have htag : (query.tree destination).tag = .query := by
    obtain ⟨items, where?, groupBy, tables⟩ := query
    rw [Query.tree]
    rfl
  rw [Statement.ofTree, htag]
  simp only [shaped.ofTree_tree]
  rfl

/-- A path that can stand between single quotes is written between them as it is. -/
theorem Token.isQuoted_of_isEscaped {path : String} (escaped : IsEscaped '\x27' path.toList) :
    IsQuoted ("'" ++ path ++ "'") := by
  refine ⟨'\x27', path.toList, .inl rfl, escaped, ?_⟩
  rw [String.toList_append, String.toList_append]
  rfl

/-- So is a path without quotes and backslashes. -/
theorem Token.isQuoted_path {path : String} (noQuote : '\x27' ∉ path.toList)
    (noSlash : '\x5c' ∉ path.toList) : IsQuoted ("'" ++ path ++ "'") := by
  apply isQuoted_of_isEscaped
  generalize path.toList = cs at noQuote noSlash
  induction cs with
  | nil => exact .nil
  | cons c cs ih =>
    rw [List.mem_cons, not_or] at noQuote noSlash
    exact .char (Ne.symm noQuote.1) (Ne.symm noSlash.1) (ih noQuote.2 noSlash.2)

/-- What stands between two quotes. -/
theorem withoutQuotes_eq {quote : Char} {text : String} {body : List Char}
    (isQuote : quote = '\x27' ∨ quote = '\x22')
    (quoted : text.toList = quote :: (body ++ [quote])) : withoutQuotes text = String.ofList body := by
  have hbody : ∀ c, withoutQuotes? c (c :: (body ++ [c])) = some body := by
    intro c
    simp [withoutQuotes?]
  unfold withoutQuotes
  rw [quoted]
  rcases isQuote with rfl | rfl
  · rw [hbody]
    rfl
  · rw [hbody]
    rfl

theorem Statement.ofTree_load (path table : String) :
    Statement.ofTree (.node .load [.leaf .stringLiteral ("'" ++ path ++ "'"), targetTree table,
      .leaf .overwriteFlag "OVERWRITE"]) = .ok (.load path table true) := by
  have htext : ("'" ++ path ++ "'").toList = '\x27' :: (path.toList ++ ['\x27']) := by
    rw [String.toList_append, String.toList_append]
    rfl
  have hpath : withoutQuotes ("'" ++ path ++ "'") = path := by
    rw [withoutQuotes_eq (.inl rfl) htext, String.ofList_toList]
  have hload : Statement.ofTree (.node .load [.leaf .stringLiteral ("'" ++ path ++ "'"),
      targetTree table, .leaf .overwriteFlag "OVERWRITE"]) =
        .ok (.load (withoutQuotes ("'" ++ path ++ "'")) table true) := rfl
  rw [hload, hpath]

/-- The written form of a plain query is read back as the query. -/
theorem Query.IsPlain.ofText_render {query : Query} (plain : query.IsPlain) :
    Statement.ofText query.render = .ok (.select query) := by
  have scanned := Statement.ofText_render (s := .select query) plain.tokens
  exact Statement.ofText_eq_ok scanned plain.shaped.run_statement
    (plain.shaped.ofTree_statement tempDestination)

/-- The written form of a plain statement is read back as the statement. A plain query is also read
    back from an `INSERT` of its rows into a table with a plain name. -/
theorem Statement.ofText_render_eq_ok :
    (∀ s : Statement, s.IsPlain → Statement.ofText s.render = .ok s) ∧
      ∀ (target : String) (query : Query), Token.isPlainName target = true → query.IsPlain →
        Statement.ofText (Statement.insert (some target) query).render = .ok (.select query) := by
  constructor
  · intro s plain
    cases plain with
    | select plain => exact plain.ofText_render
    | @load path table noQuote noSlash name =>
      have htokens : ∀ t ∈ (Statement.load path table true).tokens, t.IsPlain := by
        simp [Statement.tokens, Token.IsPlain, name, Token.isQuoted_path noQuote noSlash]
      exact Statement.ofText_eq_ok (Statement.ofText_render htokens) (run_load path table)
        (Statement.ofTree_load path table)
  · intro target query name plain
    have hwords : ∀ t ∈ [Token.keyword .INSERT, .keyword .OVERWRITE, .keyword .TABLE,
        .ident target], t.IsPlain := by
      simp [Token.IsPlain, name]
    have htokens : ∀ t ∈ (Statement.insert (some target) query).tokens, t.IsPlain :=
      List.forall_mem_append.2 ⟨hwords, plain.tokens⟩
    exact Statement.ofText_eq_ok (Statement.ofText_render htokens) (plain.shaped.run_insert target)
      (plain.shaped.ofTree_statement _)

/-- A sum with a negative number, and a join with a view on an equality. -/
theorem Statement.ofText_render_join_with_view :
    let a : Expr := .field (.unresolved "t" "a")
    let b : Expr := .field (.unresolved "v" "b")
    let view : Query :=
      { items := [⟨.field (.unresolved "" "b"), none⟩], tables := [⟨.table "u", none, none⟩] }
    let query : Query :=
      { items := [⟨.arith .add a (.literal .int "-2") .unknown, some "s"⟩],
        tables := [⟨.table "t", none, none⟩,
          ⟨.view view, some "v", some ⟨.inner, some (.compare .eq a b), 0⟩⟩] }
    Statement.ofText "SELECT t.a + -2 AS s FROM t JOIN (SELECT b FROM u) v ON t.a = v.b" =
      .ok (.select query) := by
  intro a b view query
  have hview : view.IsShaped := by
    refine .intro (by decide) ?_ ?_ ?_ ⟨?_, ?_⟩ ?_
    · exact List.forall_mem_singleton.2 (.field "" "b")
    · exact fun e he => by cases he
    · exact fun e he => by cases he
    · exact fun t ht => by cases ht; rfl
    · exact fun k t ht => by cases ht
    · exact List.forall_mem_singleton.2 fun v hv => by cases hv
  have hquery : query.IsShaped := by
    refine .intro (by decide) ?_ ?_ ?_ ⟨?_, ?_⟩ ?_
    · exact List.forall_mem_singleton.2 (.arith .add (.field "t" "a") (.number rfl))
    · exact fun e he => by cases he
    · exact fun e he => by cases he
    · exact fun t ht => by cases ht; rfl
    · intro k t ht
      cases k with
      | zero =>
        cases ht
        refine ⟨_, rfl, rfl, ?_⟩
        intro e he
        cases he
        exact .eq (.field "t" "a") (.field "v" "b")
      | succ k => cases ht
    · refine List.forall_mem_cons.2 ⟨fun v hv => (by cases hv), List.forall_mem_singleton.2 ?_⟩
      rintro v hv
      cases hv
      exact hview
  have htwo : Token.IsNumber "2" :=
    ⟨['2'], [], [], by decide, by decide, by decide, .inl rfl, by simp [Token.IsSuffix]⟩
  have htokens : ∀ t ∈ query.tokens, t.IsPlain := by
    simp [query, view, a, b, Query.tokens, commaTokens, SelectItem.tokens, Expr.tokens,
      Field.unresolved, enclosedTokens, Expr.isArith, numberTokens, clauseTokens, tableTokens?,
      linkedTokens, linkTokens, JoinOp.tokens, TableRef.sourceTokens, withAliasTokens,
      Source.tokens, groupTokens?, Token.IsPlain, htwo]
    decide
  have hrender : (Statement.select query).render =
      "SELECT t.a + -2 AS s FROM t JOIN (SELECT b FROM u) v ON t.a = v.b" := by
    decide
  rw [← hrender]
  exact Statement.ofText_render_eq_ok.1 (.select query) (.select ⟨hquery, htokens⟩)

end SqlGuard
