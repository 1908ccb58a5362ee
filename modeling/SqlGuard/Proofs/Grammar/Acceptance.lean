import Mathlib
import SqlGuard.Proofs.Grammar.DerivedTokens
import SqlGuard.Proofs.Outcome

/-!
# What the grammar accepts

The tokens that are a statement are those that derive one, and no statement is derived in two ways.
Main statement: `SyntaxTree.ofTokens_eq_ok_iff`.
-/

namespace SqlGuard

open Reader Grammar

namespace Derivation

theorem statement_run {ws : List Token} {tree : SyntaxTree} (d : Statement ws tree) :
    wholeStatement.run (ws ++ [.eof]) = .ok (tree, [.eof]) := by
  cases d with
  | bare plain =>
    have hplain := reads_statement.run_before plain (show .eof ∈ queryEnds by decide) []
    rw [wholeStatement, run_bind_ok hplain]
    rfl
  | terminated plain =>
    have hplain := reads_statement.run_before plain (show .mark .semicolon ∈ queryEnds by decide)
      [.eof]
    rw [List.append_assoc, wholeStatement]
    exact (run_bind_ok hplain).trans rfl

/-- What is read as a whole derives it, up to a token that is the end. -/
theorem statement_of_run {ts rest : List Token} {tree : SyntaxTree}
    (hrun : wholeStatement.run ts = .ok (tree, rest)) :
    ∃ ws, Derives Statement tree ws ∧ ts = ws ++ rest ∧ rest.headD .eof = .eof := by
  obtain ⟨tree', behind, hplain, hrun⟩ := run_bind_eq_ok.1 hrun
  obtain ⟨closed, behind', hclosed, hrun⟩ := run_bind_eq_ok.1 hrun
  obtain ⟨_, behind'', hend, hrun⟩ := run_bind_eq_ok.1 hrun
  cases hrun
  obtain ⟨ws, ⟨plain⟩, rfl⟩ := takes_statement _ _ _ hplain
  obtain ⟨us, hus, rfl⟩ := takes_accept _ _ _ hclosed
  have hatEnd : rest = behind' ∧ behind'.headD .eof = .eof := by
    simp only [atEnd, look] at hend
    split at hend
    · rename_i hhead
      cases hend
      exact ⟨rfl, hhead⟩
    · cases hend
  obtain ⟨rfl, hhead⟩ := hatEnd
  refine ⟨ws ++ us, ?_, by rw [List.append_assoc], hhead⟩
  rw [hus]
  cases closed with
  | true => exact ⟨.terminated plain⟩
  | false =>
    rw [if_neg Bool.false_ne_true, List.append_nil]
    exact ⟨.bare plain⟩

theorem noEnd_of_statement {ws : List Token} {tree : SyntaxTree} (d : Statement ws tree) :
    .eof ∉ ws := by
  intro hend
  cases d with
  | bare plain => exact (leave_plain _ _ plain _ hend).noEnd rfl
  | terminated plain =>
    rcases List.mem_append.1 hend with hend | hend
    · exact (leave_plain _ _ plain _ hend).noEnd rfl
    · cases List.mem_singleton.1 hend

theorem statement_unique (p q : Parse Statement) (same : p.tokens = q.tokens) : p = q := by
  obtain ⟨_, _, d⟩ := p
  obtain ⟨_, _, e⟩ := q
  have semicolon : .mark .semicolon ∈ queryEnds := by decide
  cases d with
  | bare plain =>
    cases e with
    | bare plain' =>
      cases reads_statement.unique ⟨_, _, plain⟩ ⟨_, _, plain'⟩ same
      rfl
    | terminated plain' =>
      exact absurd same (reads_statement.ne_append ⟨_, _, plain⟩ ⟨_, _, plain'⟩ semicolon)
  | terminated plain =>
    cases e with
    | bare plain' =>
      exact absurd same.symm (reads_statement.ne_append ⟨_, _, plain'⟩ ⟨_, _, plain⟩ semicolon)
    | terminated plain' =>
      cases reads_statement.unique ⟨_, _, plain⟩ ⟨_, _, plain'⟩ (List.append_cancel_right same)
      rfl

/-- The front part of a list up to the end is the part before the first end. -/
theorem eq_of_append_end {τ : Type} {t : τ} {ts ws rest : List τ} (h : ts ++ [t] = ws ++ rest)
    (hts : t ∉ ts) (hws : t ∉ ws) (head : rest.headD t = t) : ws = ts := by
  rcases List.append_eq_append_iff.1 h with ⟨us, rfl, hend⟩ | ⟨us, rfl, rfl⟩
  · rcases List.append_eq_singleton_iff.1 hend.symm with ⟨rfl, -⟩ | ⟨rfl, -⟩
    · rw [List.append_nil]
    · exact absurd (List.mem_append_right ts (List.mem_singleton_self t)) hws
  · cases us with
    | nil => rw [List.append_nil]
    | cons u us =>
      have hu : u = t := head
      rw [hu] at hts
      exact absurd (List.mem_append_right ws (List.mem_cons_self ..)) hts

end Derivation

/-- Tokens up to the only end are parsed as a tree if and only if they derive it, and there is at
    most one derivation of any tree. -/
theorem SyntaxTree.ofTokens_eq_ok_iff {ts : List Token} (noEnd : .eof ∉ ts) (tree : SyntaxTree) :
    (SyntaxTree.ofTokens (ts ++ [.eof]) = .ok tree ↔ Nonempty (Derivation.Statement ts tree)) ∧
      Subsingleton (Σ tree, Derivation.Statement ts tree) := by
  refine ⟨?_, ⟨?_⟩⟩
  · unfold SyntaxTree.ofTokens
    constructor
    · intro h
      obtain ⟨⟨tree', rest⟩, hrun, rfl⟩ := map_eq_ok.1 h
      obtain ⟨ws, ⟨d⟩, hts, hhead⟩ := Derivation.statement_of_run hrun
      rw [← Derivation.eq_of_append_end hts noEnd (Derivation.noEnd_of_statement d) hhead]
      exact ⟨d⟩
    · intro given
      obtain ⟨d⟩ := given
      exact map_eq_ok.2 ⟨_, Derivation.statement_run d, rfl⟩
  · rintro ⟨tree, d⟩ ⟨tree', d'⟩
    cases Derivation.statement_unique ⟨ts, tree, d⟩ ⟨ts, tree', d'⟩ rfl
    rfl

/-- A nested query that counts rows, and a comparison of a call with a negative number. -/
theorem SyntaxTree.ofTokens_nested_count :
    let count : List Token := [.ident "count", .mark .lparen, .mark .asterisk, .mark .rparen]
    let nested : List Token := ([.keyword .SELECT] : List Token) ++ count ++
      ([.keyword .AS, .ident "n", .keyword .FROM, .ident "d", .mark .dot, .ident "t"] : List Token)
    let ts : List Token :=
      ([.keyword .SELECT, .ident "n", .keyword .FROM, .mark .lparen] : List Token) ++ nested ++
        ([.mark .rparen, .ident "v", .keyword .WHERE, .ident "f", .mark .lparen, .ident "n",
          .mark .rparen, .mark .gt, .mark .minus, .number "1", .mark .semicolon] : List Token)
    let name : SyntaxTree := Grammar.columnNode "n"
    let table : SyntaxTree :=
      .node .tableRef [.node .tableName [Grammar.nameLeaf "d", Grammar.nameLeaf "t"]]
    let item : SyntaxTree :=
      .node .selectItem [Grammar.starCallNode "count", Grammar.nameLeaf "n"]
    let view : SyntaxTree :=
      Grammar.queryNode Grammar.tempDestination [item] (some table) none none
    let tree : SyntaxTree := Grammar.queryNode Grammar.tempDestination [.node .selectItem [name]]
      (some (.node .subquery [view, Grammar.nameLeaf "v"]))
      (some (.node (.compare .gt) [Grammar.callNode "f" [name], Grammar.numberLiteral "-1"])) none
    .eof ∉ ts ∧ Nonempty (Derivation.Statement ts tree) ∧
      Subsingleton (Σ tree, Derivation.Statement ts tree) := by
  intro count nested ts name table item view tree
  have noEnd : .eof ∉ ts := by decide
  have parsed : SyntaxTree.ofTokens (ts ++ [.eof]) = .ok tree := by cbv
  obtain ⟨derived, unique⟩ := SyntaxTree.ofTokens_eq_ok_iff noEnd tree
  exact ⟨noEnd, derived.1 parsed, unique⟩

end SqlGuard
