import SqlGuard.Grammar.Statement
import SqlGuard.Proofs.Grammar.DerivedQuery

/-!
# Statements are read as they are derived

Main statements: `reads_statement` and `takes_statement`, for statements without their semicolon.
-/

namespace SqlGuard

open Reader Grammar

namespace Derivation

/-- A query starts with its word. -/
theorem starts_query {Q : Language SyntaxTree} {destination : SyntaxTree} :
    Starts (Query Q destination) (· = .keyword .SELECT) := by
  intro ws tree d
  cases d with
  | mk selected tables condition grouped => exact ⟨_, _, rfl, rfl⟩

theorem run_accept_wordIf {isThere : Bool} {word : Keyword} {ts : List Token}
    (h : Heads (· ≠ .keyword word) ts) :
    (accept (.keyword word) : TokenReader Bool).run (wordIf isThere word ++ ts) =
      .ok (isThere, ts) := by
  cases isThere with
  | true => simp only [wordIf, if_true, List.singleton_append, accept, run_onNext_cons, run_pure]
  | false => exact run_accept_none h

theorem load_run (isLocal overwrite : Bool) (file : String) {ws rest : List Token}
    {table : SyntaxTree} (target : TableName ws table) (ends : Heads (· ≠ .mark .dot) rest) :
    load.run (.keyword .DATA :: (wordIf isLocal .LOCAL ++ .keyword .INPATH :: .string file ::
        (wordIf overwrite .OVERWRITE ++ .keyword .INTO :: .keyword .TABLE :: (ws ++ rest)))) =
      .ok
        (.node .load ([.leaf .stringLiteral file, .node .targetTable [table]] ++
          flagIf isLocal .localFlag "LOCAL" ++ flagIf overwrite .overwriteFlag "OVERWRITE"),
          rest) := by
  have hpath : ∀ ts, path.run (.string file :: ts) = .ok (file, ts) := fun _ => rfl
  simp only [load, expect]
  rw [run_bind_ok run_demand, run_bind_ok (run_accept_wordIf (heads_cons.2 (by decide))),
    run_bind_ok run_demand, run_bind_ok (hpath _),
    run_bind_ok (run_accept_wordIf (heads_cons.2 (by decide))), run_bind_ok run_demand,
    run_bind_ok run_demand, run_bind_ok (reads_tableName.complete target ends)]
  rfl

theorem plain_run {ws rest : List Token} {tree : SyntaxTree} (d : Plain ws tree)
    (ends : Heads (· ∈ queryEnds) rest) : statement.run (ws ++ rest) = .ok (tree, rest) := by
  cases d with
  | select query =>
    have hquery := (reads_query tempDestination).complete query ends
    obtain ⟨t, us, rfl, rfl⟩ := starts_query _ _ query
    exact hquery
  | @insert ws us table tree target query =>
    have hquery := (reads_query (.node .targetTable [table])).complete query ends
    have hselect : Heads (· ≠ .mark .dot) (us ++ rest) :=
      (starts_query.heads query rest).mono fun t ht => by rw [ht]; decide
    have hinsert : statement.run (.keyword .INSERT :: .keyword .OVERWRITE :: .keyword .TABLE ::
        (ws ++ us) ++ rest) =
          (tableName >>= fun table => Grammar.query (.node .targetTable [table])).run
            (ws ++ us ++ rest) := rfl
    rw [hinsert, List.append_assoc, run_bind_ok (reads_tableName.complete target hselect)]
    exact hquery
  | @load isLocal overwrite file ws table target =>
    have hload := load_run isLocal overwrite file target (ends.mono (by decide))
    have hstatement : ∀ ts, statement.run (.keyword .LOAD :: ts) = Grammar.load.run ts :=
      fun _ => rfl
    simp only [List.cons_append, List.append_assoc]
    rw [hstatement]
    exact hload

/-- The words that may be left out are told by the next word, which is another one. -/
theorem wordIf_cut {isThere isThere' : Bool} {word : Keyword} {t : Token} {ts ts' : List Token}
    (other : t ≠ .keyword word)
    (same : wordIf isThere word ++ t :: ts = wordIf isThere' word ++ t :: ts') :
    isThere = isThere' ∧ ts = ts' := by
  have hrun : (accept (.keyword word) : TokenReader Bool).run (wordIf isThere word ++ t :: ts) =
      .ok (isThere, t :: ts) := run_accept_wordIf (heads_cons.2 other)
  rw [same, run_accept_wordIf (heads_cons.2 other), Except.ok.injEq, Prod.mk.injEq] at hrun
  exact ⟨hrun.1.symm, (List.cons.inj hrun.2).2.symm⟩

theorem plain_unique (p q : Parse Plain) (same : p.tokens = q.tokens) : p = q := by
  obtain ⟨_, _, d⟩ := p
  obtain ⟨_, _, e⟩ := q
  have noQuery : ∀ {ws us : List Token} {tree : SyntaxTree} {t : Token},
      Query Subquery tempDestination ws tree → t ≠ .keyword .SELECT → ws ≠ t :: us := by
    intro ws us tree t query ht heq
    obtain ⟨t', vs, rfl, rfl⟩ := starts_query _ _ query
    exact ht (List.cons.inj heq).1.symm
  cases d with
  | select query =>
    cases e with
    | select query' =>
      cases (reads_query _).unique ⟨_, _, query⟩ ⟨_, _, query'⟩ same
      rfl
    | insert target' query' => exact absurd same (noQuery query (by decide))
    | load _ _ _ target' => exact absurd same (noQuery query (by decide))
  | insert target query =>
    cases e with
    | select query' => exact absurd same.symm (noQuery query' (by decide))
    | insert target' query' =>
      have ends : ∀ {us : List Token} {table tree : SyntaxTree},
          Query Subquery (.node .targetTable [table]) us tree → Heads (· ≠ .mark .dot) us := by
        intro us table tree query
        refine heads_of_append_nil ((starts_query.heads query []).mono fun t ht => ?_)
        rw [ht]
        decide
      obtain ⟨htable, hrest⟩ := reads_tableName.cut ⟨_, _, target⟩ ⟨_, _, target'⟩
        (List.cons.inj (List.cons.inj (List.cons.inj same).2).2).2 (ends query) (ends query')
      cases htable
      cases (reads_query _).unique ⟨_, _, query⟩ ⟨_, _, query'⟩ hrest
      rfl
    | load _ _ _ target' => cases same
  | load isLocal overwrite file target =>
    cases e with
    | select query' => exact absurd same.symm (noQuery query' (by decide))
    | insert target' query' => cases same
    | load isLocal' overwrite' file' target' =>
      obtain ⟨rfl, behindLocal⟩ :=
        wordIf_cut (by decide) (List.cons.inj (List.cons.inj same).2).2
      obtain ⟨hfile, behindFile⟩ := List.cons.inj behindLocal
      cases hfile
      obtain ⟨rfl, behindOverwrite⟩ := wordIf_cut (by decide) behindFile
      cases reads_tableName.unique ⟨_, _, target⟩ ⟨_, _, target'⟩ (List.cons.inj behindOverwrite).2
      rfl

/-- A statement is read as it is derived, and there is only one derivation. -/
theorem reads_statement : Reads statement Plain (· ∈ queryEnds) where
  complete d _ ends := plain_run d ends
  unique := plain_unique

theorem takes_path : Takes path fun file ws => ws = [.string file] := by
  refine Takes.onNext ?_ takes_refuse
  intro t r hr
  split at hr
  · cases hr
    exact takes_pure rfl
  · cases hr

theorem takes_insert :
    Takes insert fun tree ws => Derives Plain tree (.keyword .INSERT :: ws) := by
  refine takes_demand.bind fun _ ws hws => takes_demand.bind fun _ us hus =>
    takes_tableName.bind fun table vs hvs => (takes_query _).mono fun tree xs hxs => ?_
  obtain ⟨target⟩ := hvs
  obtain ⟨query⟩ := hxs
  rw [hws, hus]
  show Derives Plain tree
    (.keyword .INSERT :: .keyword .OVERWRITE :: .keyword .TABLE :: (vs ++ xs))
  exact ⟨.insert target query⟩

theorem takes_load : Takes load fun tree ws => Derives Plain tree (.keyword .LOAD :: ws) := by
  refine takes_demand.bind fun _ ws hws => takes_accept.bind fun isLocal us hus =>
    takes_demand.bind fun _ vs hvs => takes_path.bind fun file xs hxs =>
    takes_accept.bind fun overwrite ys hys => takes_demand.bind fun _ zs hzs =>
    takes_demand.bind fun _ ts hts => takes_tableName.bind fun table names hnames =>
    takes_pure ?_
  obtain ⟨target⟩ := hnames
  rw [hws, hus, hvs, hxs, hys, hzs, hts, List.append_nil]
  exact ⟨.load isLocal overwrite file target⟩

/-- What is read as a statement derives it. -/
theorem takes_statement : Takes statement (Derives Plain) := by
  refine takes_look fun ts => ?_
  split
  · refine (takes_query _).mono fun tree ws hquery => ?_
    obtain ⟨query⟩ := hquery
    exact ⟨.select query⟩
  · refine takes_demand.bind fun _ ws hws => ?_
    rw [hws]
    exact takes_insert
  · refine takes_demand.bind fun _ ws hws => ?_
    rw [hws]
    exact takes_load
  · exact takes_refuse

end Derivation

end SqlGuard
