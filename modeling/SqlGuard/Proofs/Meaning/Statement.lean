import SqlGuard.Analysis.Statement
import SqlGuard.Proofs.Lowering.Accepted
import SqlGuard.Proofs.Meaning.Query

/-!
# Texts are read as what they mean

Main statement: `Statement.ofText_eq_select_iff`.
-/

namespace SqlGuard

open SqlGuard.Derivation (Derives)

namespace Meaning

theorem means_plain : Means Derivation.Plain SqlGuard.Query.ofTree Plain := by
  intro ws query
  constructor
  · intro given
    obtain ⟨d⟩ := given
    cases d with
    | select rows =>
      obtain ⟨tree, ⟨d⟩, hquery⟩ := (means_query _ _ _).1 ⟨rows⟩
      exact ⟨tree, ⟨.select d⟩, hquery⟩
    | insert name rows =>
      obtain ⟨tree, ⟨d⟩, hquery⟩ := (means_query _ _ _).1 ⟨rows⟩
      exact ⟨tree, ⟨.insert (.plain name) d⟩, hquery⟩
    | insertQualified database name rows =>
      obtain ⟨tree, ⟨d⟩, hquery⟩ := (means_query _ _ _).1 ⟨rows⟩
      exact ⟨tree, ⟨.insert (.qualified database name) d⟩, hquery⟩
  · intro given
    obtain ⟨tree, ⟨d⟩, hquery⟩ := given
    cases d with
    | select rows => exact ((means_query _ _ _).2 ⟨_, ⟨rows⟩, hquery⟩).map .select
    | insert target rows =>
      obtain ⟨rows'⟩ := (means_query _ _ _).2 ⟨_, ⟨rows⟩, hquery⟩
      cases target with
      | plain name => exact ⟨.insert name rows'⟩
      | qualified database name => exact ⟨.insertQualified database name rows'⟩
    | load isLocal overwrite file target => cases hquery

theorem means_statement : Means Derivation.Statement SqlGuard.Query.ofTree Statement := by
  intro ws query
  constructor
  · intro given
    obtain ⟨d⟩ := given
    cases d with
    | bare plain =>
      obtain ⟨tree, ⟨d⟩, hquery⟩ := (means_plain _ _).1 ⟨plain⟩
      exact ⟨tree, ⟨.bare d⟩, hquery⟩
    | terminated plain =>
      obtain ⟨tree, ⟨d⟩, hquery⟩ := (means_plain _ _).1 ⟨plain⟩
      exact ⟨tree, ⟨.terminated d⟩, hquery⟩
  · intro given
    obtain ⟨tree, ⟨d⟩, hquery⟩ := given
    cases d with
    | bare plain => exact ((means_plain _ _).2 ⟨_, ⟨plain⟩, hquery⟩).map .bare
    | terminated plain => exact ((means_plain _ _).2 ⟨_, ⟨plain⟩, hquery⟩).map .terminated

end Meaning

/-! ### Texts -/

theorem SyntaxTree.ofText_eq_ok_iff_derives {sql : String} {tree : SyntaxTree} :
    SyntaxTree.ofText sql = .ok tree ↔
      ∃ ts, Token.ofText sql = .ok (ts ++ [.eof]) ∧ Derives Derivation.Statement tree ts := by
  refine ⟨Derivation.exists_statement_of_ofText, fun given => ?_⟩
  obtain ⟨ts, hscan, ⟨d⟩⟩ := given
  simp only [SyntaxTree.ofText, hscan, SyntaxTree.ofTokens, Derivation.statement_run d, Except.map]

/-- The statements that select are the queries, wherever their rows go. -/
theorem Statement.ofTree_eq_select_iff {tree : SyntaxTree} {query : Query} :
    Statement.ofTree tree = .ok (.select query) ↔ Query.ofTree tree = .ok query := by
  unfold Statement.ofTree Query.ofTree
  split
  · rename_i htag
    rw [if_pos htag, map_eq_ok]
    simp only [Statement.select.injEq, exists_eq_right]
  · rename_i htag
    rw [htag, if_neg (by decide), Statement.loadOfTree, if_pos htag]
    constructor
    · intro given
      simp only [bind_eq_ok] at given
      obtain ⟨parts, -, given⟩ := given
      split at given <;> cases given
    · intro given
      cases given
  · rename_i noQuery _
    rw [if_neg noQuery]
    constructor <;> intro given <;> cases given

/-- The statement of a text is a query if and only if the tokens of the text mean that query. -/
theorem Statement.ofText_eq_select_iff {sql : String} {query : Query} :
    Statement.ofText sql = .ok (.select query) ↔
      ∃ ts, Token.ofText sql = .ok (ts ++ [.eof]) ∧ Derives Meaning.Statement query ts := by
  simp only [Statement.ofText, bind_eq_ok, mapError_eq_ok, SyntaxTree.ofText_eq_ok_iff_derives,
    Statement.ofTree_eq_select_iff]
  constructor
  · intro given
    obtain ⟨tree, ⟨ts, hscan, derived⟩, hquery⟩ := given
    exact ⟨ts, hscan, (Meaning.means_statement _ _).2 ⟨tree, derived, hquery⟩⟩
  · intro given
    obtain ⟨ts, hscan, meant⟩ := given
    obtain ⟨tree, derived, hquery⟩ := (Meaning.means_statement _ _).1 meant
    exact ⟨tree, ⟨ts, hscan, derived⟩, hquery⟩

end SqlGuard
