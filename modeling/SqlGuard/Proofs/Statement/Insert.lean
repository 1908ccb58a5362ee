import Mathlib
import SqlGuard.Proofs.CommandLine.Runs
import SqlGuard.Proofs.Grammar.DerivedQuery
import SqlGuard.Proofs.Grammar.ParsedQuery
import SqlGuard.Proofs.Lowering.Nodes
import SqlGuard.Proofs.Token.Gaps

/-!
# Queries behind an `INSERT`

An `INSERT OVERWRITE TABLE` is read, lowered, analyzed and shown as the query behind its target, or
refused for the same reason in the same stage. A query is read as its clauses, and where its rows go
is put into its tree behind that, which no later stage looks at. Main statements:
`SyntaxTree.exists_clauses_of_insertInto` and `Statement.ofText_insertInto`.
-/

namespace SqlGuard

open Reader Grammar

/-- A text that names a table, with its database or without. -/
def Text.NamesTable (text : String) : Prop :=
  (∃ name, Token.ofText text = .ok [.ident name, .eof]) ∨
    ∃ database name,
      Token.ofText text = .ok [.ident database, .mark .dot, .ident name, .eof]

/-- The text starts with a token, or is not scanned at all. -/
def Text.StartsWith (text : String) (t : Token) : Prop :=
  ∀ ts, Token.ofText text = .ok ts → ts.head? = some t

/-- The text that stores the rows of a query in a table. -/
def Text.insertInto (table query : String) : String :=
  "INSERT OVERWRITE TABLE " ++ table ++ " " ++ query

/-- The trees of the clauses of a query. -/
structure QueryClauses where
  items : List SyntaxTree
  from? : Option SyntaxTree
  where? : Option SyntaxTree
  group? : Option (List SyntaxTree)

/-- The tree of the query with these clauses, whose rows go to a destination. -/
def QueryClauses.node (destination : SyntaxTree) (clauses : QueryClauses) : SyntaxTree :=
  queryNode destination clauses.items clauses.from? clauses.where? clauses.group?

/-! ### Reading -/

namespace Grammar

/-- The clauses of a query behind the word `SELECT`. -/
def clauses (subquery : TokenReader SyntaxTree) : TokenReader QueryClauses := do
  let items ← commaSeparated selectItem
  let from? ← after? (.keyword .FROM) (fromElement subquery)
  let where? ← after? (.keyword .WHERE) expression
  let group? ← after? (.keyword .GROUP) do
    expect (.keyword .BY)
    commaSeparated expression
  return { items, from?, where?, group? }

theorem queryOver_eq (subquery : TokenReader SyntaxTree) (destination : SyntaxTree) :
    queryOver subquery destination = QueryClauses.node destination <$> clauses subquery := by
  simp only [queryOver, clauses, map_bind, map_pure]
  rfl

/-- The clauses of a query behind the word `SELECT`, up to the end of the tokens. -/
def wholeClauses : TokenReader QueryClauses := do
  let clauses ← clauses (query tempDestination)
  let _ ← accept (.mark .semicolon)
  atEnd
  return clauses

theorem run_query_select (destination : SyntaxTree) (ts : List Token) :
    (query destination).run (.keyword .SELECT :: ts) =
      (QueryClauses.node destination <$> clauses (query tempDestination)).run ts := by
  rw [run_select, queryOver_eq]

theorem run_statement_select (ts : List Token) :
    statement.run (.keyword .SELECT :: ts) =
      (QueryClauses.node tempDestination <$> clauses (query tempDestination)).run ts :=
  run_query_select tempDestination ts

theorem run_statement_insert {ws : List Token} {table : SyntaxTree}
    (target : Derivation.TableName ws table) (ts : List Token) :
    statement.run (.keyword .INSERT :: .keyword .OVERWRITE :: .keyword .TABLE ::
        (ws ++ .keyword .SELECT :: ts)) =
      (QueryClauses.node (.node .targetTable [table]) <$> clauses (query tempDestination)).run
        ts := by
  have htable := Derivation.reads_tableName.run_before (t := .keyword .SELECT) target (by decide) ts
  calc
    _ = (tableName >>= fun table => query (.node .targetTable [table])).run
          (ws ++ .keyword .SELECT :: ts) := rfl
    _ = (query (.node .targetTable [table])).run (.keyword .SELECT :: ts) := run_bind_ok htable
    _ = _ := run_query_select _ ts

/-- A statement that is read as clauses is the tree of all of them, with the same end. -/
theorem ofTokens_of_run {us ts : List Token} {destination : SyntaxTree}
    (h : statement.run us =
      (QueryClauses.node destination <$> clauses (query tempDestination)).run ts) :
    SyntaxTree.ofTokens us =
      ((wholeClauses.run ts).map Prod.fst).map (QueryClauses.node destination) := by
  have hwhole : wholeStatement.run us = (QueryClauses.node destination <$> wholeClauses).run ts := by
    rw [wholeStatement, run_bind_congr h]
    simp only [wholeClauses, map_eq_pure_bind, bind_assoc, pure_bind]
  rw [SyntaxTree.ofTokens, hwhole, run_map]
  cases wholeClauses.run ts <;> rfl

theorem ofText_of_run {sql : String} {us ts : List Token} {destination : SyntaxTree}
    (scanned : Token.ofText sql = .ok us)
    (h : statement.run us =
      (QueryClauses.node destination <$> clauses (query tempDestination)).run ts) :
    SyntaxTree.ofText sql =
      (((wholeClauses.run ts).map Prod.fst).mapError ParseError.grammar).map
        (QueryClauses.node destination) := by
  rw [SyntaxTree.ofText_eq_bind, scanned]
  show (SyntaxTree.ofTokens us).mapError ParseError.grammar = _
  rw [ofTokens_of_run h]
  cases wholeClauses.run ts <;> rfl

end Grammar

/-! ### Texts -/

/-- The tokens of a name of a table, and the tree that they are. -/
theorem Text.NamesTable.exists_tree {text : String} (h : Text.NamesTable text) :
    ∃ ws table, Token.ofText text = .ok (ws ++ [.eof]) ∧
      Derivation.Derives Derivation.TableName table ws := by
  rcases h with ⟨name, hscan⟩ | ⟨database, name, hscan⟩
  · exact ⟨[.ident name], _, hscan, ⟨.plain name⟩⟩
  · exact ⟨[.ident database, .mark .dot, .ident name], _, hscan, ⟨.qualified database name⟩⟩

/-- The words and the target stand in front of the tokens of the query. -/
theorem Token.ofText_insertWords {table : String} {ws : List Token}
    (target : Token.ofText table = .ok (ws ++ [.eof])) (query : String) :
    Token.ofText (Text.insertInto table query) =
      (Token.ofText query).map
        (.keyword .INSERT :: .keyword .OVERWRITE :: .keyword .TABLE :: ws ++ ·) := by
  have isGap : Text.IsGap " " := ⟨by decide, by decide⟩
  have hwords : Token.ofText "INSERT OVERWRITE TABLE" =
      .ok ([.keyword .INSERT, .keyword .OVERWRITE, .keyword .TABLE] ++ [.eof]) := by cbv
  have hfront : Token.ofText ("INSERT OVERWRITE TABLE" ++ " " ++ table) =
      .ok ([.keyword .INSERT, .keyword .OVERWRITE, .keyword .TABLE] ++ ws ++ [.eof]) := by
    rw [ofText_append_of_ok isGap hwords, target, List.append_assoc]
    rfl
  have htext : Text.insertInto table query =
      "INSERT OVERWRITE TABLE" ++ " " ++ table ++ " " ++ query := rfl
  rw [htext, ofText_append_of_ok isGap hfront]
  rfl

variable {table query : String}

/-- A query is read as the same clauses behind an `INSERT` as alone, or refused for the same
    reason. -/
theorem SyntaxTree.exists_clauses_of_insertInto (target : Text.NamesTable table)
    (selects : Text.StartsWith query (.keyword .SELECT)) :
    ∃ (read : Except ParseError QueryClauses) (destination : SyntaxTree),
      ofText query = read.map (QueryClauses.node tempDestination) ∧
        ofText (Text.insertInto table query) = read.map (QueryClauses.node destination) := by
  obtain ⟨ws, tree, hscan, ⟨name⟩⟩ := target.exists_tree
  have hinsert := Token.ofText_insertWords hscan query
  cases hquery : Token.ofText query with
  | error e =>
    rw [hquery] at hinsert
    refine ⟨.error (.scan e), tempDestination, ?_, ?_⟩
    · rw [ofText_eq_bind, hquery]
      rfl
    · rw [ofText_eq_bind, hinsert]
      rfl
  | ok ts =>
    obtain ⟨ts, rfl⟩ := List.head?_eq_some_iff.1 (selects ts hquery)
    rw [hquery] at hinsert
    exact ⟨_, .node .targetTable [tree], ofText_of_run hquery (run_statement_select ts),
      ofText_of_run hinsert (run_statement_insert name ts)⟩

/-! ### Lowering and answers -/

/-- Where the rows go is not looked at. -/
theorem QueryClauses.ofTree_node (clauses : QueryClauses) (destination destination' : SyntaxTree) :
    Statement.ofTree (clauses.node destination) = Statement.ofTree (clauses.node destination') := by
  show Statement.select <$> Query.ofTree (clauses.node destination) =
    Statement.select <$> Query.ofTree (clauses.node destination')
  rw [QueryClauses.node, QueryClauses.node, Query.ofTree_queryNode, Query.ofTree_queryNode]

theorem QueryClauses.exists_query {clauses : QueryClauses} {destination : SyntaxTree}
    {s : Statement} (h : Statement.ofTree (clauses.node destination) = .ok s) :
    ∃ query, s = .select query := by
  have hselect : Statement.select <$> Query.ofTree (clauses.node destination) = .ok s := h
  obtain ⟨query, -, rfl⟩ := map_eq_ok.1 hselect
  exact ⟨query, rfl⟩

/-- An `INSERT` into a table is the statement that its query is, and is refused where the query is,
    in the same stage for the same reason. What is analyzed and what is written for it are those of
    the query, unless its tree is shown. -/
theorem Statement.ofText_insertInto (target : Text.NamesTable table)
    (selects : Text.StartsWith query (.keyword .SELECT)) :
    ofText (Text.insertInto table query) = ofText query ∧
    (∀ e, SyntaxTree.ofText (Text.insertInto table query) = .error e ↔
      SyntaxTree.ofText query = .error e) ∧
    (∀ s, ofText (Text.insertInto table query) = .ok s → ∃ selected, s = .select selected) ∧
    (∀ schema, analyzeText schema (Text.insertInto table query) = analyzeText schema query) ∧
    ∀ batch : Batch, batch.showTree = false →
      batch.answerText (Text.insertInto table query) = batch.answerText query := by
  obtain ⟨read, destination, hquery, hinsert⟩ :=
    SyntaxTree.exists_clauses_of_insertInto target selects
  have hanalyzed : ∀ schema,
      analyzeText schema (Text.insertInto table query) = analyzeText schema query := by
    intro schema
    rw [analyzeText, analyzeText, hquery, hinsert]
    cases read with
    | error e => rfl
    | ok clauses =>
      show analyzeTree schema (clauses.node destination) = analyzeTree schema (clauses.node _)
      rw [analyzeTree, analyzeTree, clauses.ofTree_node destination tempDestination]
  refine ⟨?_, ?_, ?_, hanalyzed, fun batch hidden =>
    Batch.answerText_congr hidden (hanalyzed batch.schema)⟩
  · rw [ofText, ofText, hquery, hinsert]
    cases read with
    | error e => rfl
    | ok clauses =>
      exact congrArg (Except.mapError StatementError.lowering)
        (clauses.ofTree_node destination tempDestination)
  · intro e
    rw [hquery, hinsert]
    cases read with
    | error e' => exact Iff.rfl
    | ok clauses =>
      constructor <;>
      · intro h
        cases h
  · intro s hs
    rw [ofText, hinsert, bind_eq_ok] at hs
    obtain ⟨tree, hread, hs⟩ := hs
    cases read with
    | error e => cases hread
    | ok clauses =>
      cases hread
      exact QueryClauses.exists_query (mapError_eq_ok.1 hs)

/-- A qualified target with a name in backticks, and a query that is refused behind its clauses. -/
theorem Statement.ofText_insertInto_refused :
    let table := "db.`x y`"
    let query := "select k FROM t a JOIN u v w"
    Text.NamesTable table ∧ Text.StartsWith query (.keyword .SELECT) ∧
      ofText (Text.insertInto table query) = ofText query ∧
      SyntaxTree.ofText (Text.insertInto table query) =
        .error (.grammar ⟨.endOfStatement, [.ident "w", .eof]⟩) := by
  intro table query
  have target : Text.NamesTable table := .inr ⟨"db", "x y", by cbv⟩
  have hscan : Token.ofText query = .ok [.keyword .SELECT, .ident "k", .keyword .FROM, .ident "t",
      .ident "a", .keyword .JOIN, .ident "u", .ident "v", .ident "w", .eof] := by cbv
  have selects : Text.StartsWith query (.keyword .SELECT) := by
    intro ts hts
    cases hscan.symm.trans hts
    rfl
  obtain ⟨same, refused, -⟩ := ofText_insertInto target selects
  exact ⟨target, selects, same, (refused _).2 (by cbv)⟩

end SqlGuard
