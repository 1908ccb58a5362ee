import SqlGuard.Proofs.Meaning.Expression

/-!
# Queries are lowered to what they mean

The clauses of a query are lowered one by one. The sources of a FROM clause come out in their order,
although the grammar nests joins to the left and lowering puts whole chains together: at each join
the chain so far gets one more reference, joined with its last one. Main statement: `means_query`.
-/

namespace SqlGuard

open SqlGuard.Derivation Grammar

namespace Meaning

/-! ### Parts of queries -/

section Parts

variable {α β : Type} {L : Language α} {f : α → Lowered β} {M : Language β}

theorem means_listed (h : Means L f M) : Means (Listed L) (fun as => as.mapM f) (Listed M) := by
  intro ws bs
  constructor
  · intro given
    obtain ⟨d⟩ := given
    induction d with
    | last item =>
      obtain ⟨a, ⟨d⟩, ha⟩ := (h _ _).1 ⟨item⟩
      exact ⟨[a], ⟨.last d⟩, mapM_eq_ok.2 (.cons ha .nil)⟩
    | more item items ih =>
      obtain ⟨a, ⟨d⟩, ha⟩ := (h _ _).1 ⟨item⟩
      obtain ⟨as, ⟨ds⟩, has⟩ := ih
      exact ⟨a :: as, ⟨.more d ds⟩, mapM_eq_ok.2 (.cons ha (mapM_eq_ok.1 has))⟩
  · intro given
    obtain ⟨as, ⟨d⟩, hbs⟩ := given
    rw [mapM_eq_ok] at hbs
    induction d generalizing bs with
    | last item =>
      obtain ⟨b, bs, hb, hnil, rfl⟩ := List.forall₂_cons_left_iff.1 hbs
      cases hnil
      obtain ⟨first⟩ := (h _ _).2 ⟨_, ⟨item⟩, hb⟩
      exact ⟨.last first⟩
    | more item items ih =>
      obtain ⟨b, bs, hb, hmore, rfl⟩ := List.forall₂_cons_left_iff.1 hbs
      obtain ⟨first⟩ := (h _ _).2 ⟨_, ⟨item⟩, hb⟩
      obtain ⟨more⟩ := ih _ hmore
      exact ⟨.more first more⟩

theorem means_clause (words : List Token) (h : Means L f M) :
    Means (Derivation.Clause words L) (Option.mapM f) (Derivation.Clause words M) := by
  intro ws b?
  constructor
  · intro given
    obtain ⟨d⟩ := given
    cases d with
    | absent => exact ⟨none, ⟨.absent⟩, rfl⟩
    | present part =>
      obtain ⟨a, ⟨d⟩, ha⟩ := (h _ _).1 ⟨part⟩
      exact ⟨some a, ⟨.present d⟩, map_eq_ok.2 ⟨_, ha, rfl⟩⟩
  · intro given
    obtain ⟨a?, ⟨d⟩, ha⟩ := given
    cases d with
    | absent =>
      cases ha
      exact ⟨.absent⟩
    | present part =>
      obtain ⟨b, hb, rfl⟩ := map_eq_ok.1 ha
      exact ((h _ _).2 ⟨_, ⟨part⟩, hb⟩).map .present

end Parts

theorem means_item : Means Derivation.Item SelectItem.ofTree Item := by
  have hnode : ∀ {ws tree}, Expression ws tree → ∀ alias?,
      SelectItem.ofTree (.node .selectItem (tree :: aliasLeaves alias?)) =
        (fun expr => ⟨expr, alias?⟩) <$> Expr.ofTree tree := fun d =>
    SelectItem.ofTree_node (Tag.ne_identifier_of_isExpr (makes_expression _ _ d).isExpr)
  intro ws item
  constructor
  · intro given
    obtain ⟨d⟩ := given
    cases d with
    | mk sum named =>
      obtain ⟨tree, ⟨d⟩, he⟩ := (means_sum _ _).1 ⟨sum⟩
      refine ⟨_, ⟨.expr d named⟩, ?_⟩
      rw [hnode d, he]
      rfl
  · intro given
    obtain ⟨tree, ⟨d⟩, hitem⟩ := given
    cases d with
    | allColumns => cases hitem
    | expr expr named =>
      rw [hnode expr, map_eq_ok] at hitem
      obtain ⟨e, he, rfl⟩ := hitem
      obtain ⟨sum⟩ := (means_sum _ _).2 ⟨_, ⟨expr⟩, he⟩
      exact ⟨.mk sum named⟩

/-! ### FROM clauses -/

theorem isTables_source {Q : Language SyntaxTree} :
    Makes (Derivation.Source Q) fun tree => tree.tag.isTables = true := by
  intro ws tree d
  cases d <;> rfl

/-- The condition of a join that may be left out. -/
theorem means_on : Means (Derivation.Clause [.keyword .ON] Expression) joinConditionOf?
    (Derivation.Clause [.keyword .ON] (Comparison .eq)) := by
  have hsame : joinConditionOf? = Option.mapM Expr.ofCondition := by
    funext on?
    cases on? <;> rfl
  rw [hsame]
  exact means_clause _ means_condition

/-- A join puts the reference on its right behind those on its left. -/
theorem tablesAt_joinNode_eq_ok {Q : Language SyntaxTree} {left : SyntaxTree} {step : JoinStep}
    {ws : List Token} (isTables : left.tag.isTables = true) (d : Derivation.Join Q ws step)
    {before : TableChain} {t : TableRef} {on? : Option Expr}
    (hleft : tablesAt .join left = .ok before) (some_ : before ≠ [])
    (hright : tablesAt .join step.right = .ok [t]) (bare : t.join? = none)
    (hon : joinConditionOf? step.on? = .ok on?) :
    tablesAt .join (joinNode left step) = .ok (before.joinedTo step.op on? t) := by
  have expressions : ∀ on ∈ step.on?, on.IsExpression := by
    cases d with
    | mk spelled source condition => exact makes_clause makes_expression _ _ condition
  have isTables' : step.right.tag.isTables = true := by
    cases d with
    | mk spelled source condition => exact isTables_source _ _ source
  rw [tablesAt_joinNode isTables isTables' expressions]
  simp only [bind_eq_ok]
  exact ⟨_, hleft, _, hright, _, hon, TableChain.ofJoinParts_single some_ bare step.op on?⟩

/-- What queries are lowered to is what they mean. -/
structure QueryMeans (Q : Language SyntaxTree) : Prop where
  isQuery : Makes Q fun tree => tree.tag = .query
  meaning : ∀ {ws tree query}, Q ws tree → SqlGuard.Query.ofTree tree = .ok query →
    Derives Query query ws

section Nesting

variable {Q : Language SyntaxTree}

theorem source_of_tree (h : QueryMeans Q) {ws : List Token} {tree : SyntaxTree}
    (d : Derivation.Source Q ws tree) {place : Construct} {chain : TableChain}
    (hchain : tablesAt place tree = .ok chain) :
    ∃ t, chain = [t] ∧ t.join? = none ∧ Derives Source t ws := by
  cases d with
  | table name named =>
    cases name with
    | plain name =>
      rw [tablesAt_tableRef] at hchain
      cases hchain
      exact ⟨_, rfl, rfl, ⟨.table name named⟩⟩
    | qualified database name =>
      rw [tablesAt_qualifiedTableRef] at hchain
      cases hchain
  | subquery query named =>
    rw [tablesAt_subquery place (h.isQuery _ _ query), map_eq_ok] at hchain
    obtain ⟨view, hview, rfl⟩ := hchain
    obtain ⟨rows⟩ := h.meaning query hview
    exact ⟨_, rfl, rfl, ⟨.view rows named⟩⟩

/-- Steps put their references behind those before them, each joined with the last one. -/
theorem links_of_steps (h : QueryMeans Q) {left tree : SyntaxTree} {ws : List Token}
    (d : Steps joinNode (Derivation.Join Q) left ws tree) (isTables : left.tag.isTables = true)
    {chain : TableChain} (hchain : tablesAt .join tree = .ok chain) :
    ∃ before, tablesAt .join left = .ok before ∧ (before ≠ [] →
      ∃ more, chain = before ++ more ∧ Derives (Links (before.length - 1)) more ws) := by
  induction d with
  | done left => exact ⟨chain, hchain, fun _ => ⟨[], (List.append_nil chain).symm, ⟨.done _⟩⟩⟩
  | @step left tree ws us step first more ih =>
    obtain ⟨middle, hmiddle, hmore⟩ := ih rfl hchain
    have hjoin := hmiddle
    cases first with
    | @mk words ws us op right on? spelled source condition =>
      have expressions := makes_clause makes_expression _ _ condition
      rw [tablesAt_joinNode isTables (isTables_source _ _ source) expressions] at hjoin
      simp only [bind_eq_ok] at hjoin
      obtain ⟨before, hbefore, ts, hright, on', hon, hjoin⟩ := hjoin
      refine ⟨before, hbefore, fun some_ => ?_⟩
      obtain ⟨t, rfl, bare, ⟨source'⟩⟩ := source_of_tree h source hright
      obtain ⟨condition'⟩ := (means_on _ _).2 ⟨_, ⟨condition⟩, hon⟩
      rw [TableChain.ofJoinParts_single some_ bare, Except.ok.injEq] at hjoin
      subst hjoin
      obtain ⟨links, rfl, ⟨links'⟩⟩ := hmore (by simp [TableChain.joinedTo])
      have hlength : (before.joinedTo op on' t).length - 1 = before.length - 1 + 1 := by
        have := List.length_pos_iff.2 some_
        rw [TableChain.joinedTo, List.length_append, List.length_singleton]
        omega
      rw [hlength] at links'
      exact ⟨_, List.append_assoc before _ links, ⟨.link spelled source' condition' links'⟩⟩

theorem tables_of_clause (h : QueryMeans Q) {ws : List Token} {from? : Option SyntaxTree}
    (d : Derivation.Clause [.keyword .FROM] (Element Q) ws from?) {ts : TableChain}
    (hts : tablesOf? from? = .ok ts) : Derives Tables ts ws := by
  cases d with
  | absent =>
    cases hts
    exact ⟨.absent⟩
  | present element =>
    cases element with
    | mk first steps =>
      have hjoin := tablesAt_place .join hts
      obtain ⟨before, hbefore, hmore⟩ := links_of_steps h steps (isTables_source _ _ first) hjoin
      obtain ⟨t, rfl, -, ⟨source⟩⟩ := source_of_tree h first hbefore
      obtain ⟨more, rfl, ⟨links⟩⟩ := hmore (List.cons_ne_nil t [])
      have references := Tables.present source links
      exact ⟨references⟩

/-- The columns that rows are grouped by, if they are. -/
theorem grouping_of_clause {ws : List Token} {group? : Option (List SyntaxTree)} {es : List Expr}
    (d : Derivation.Clause [.keyword .GROUP, .keyword .BY] (Listed Expression) ws group?)
    (hes : (group?.getD []).mapM Expr.ofGrouping = .ok es) :
    ∃ exprs?, es = exprs?.getD [] ∧
      Derives (Derivation.Clause [.keyword .GROUP, .keyword .BY] (Listed Column)) exprs? ws := by
  cases d with
  | absent =>
    cases hes
    exact ⟨none, rfl, ⟨.absent⟩⟩
  | present listed =>
    obtain ⟨columns⟩ := (means_listed means_column _ _).2 ⟨_, ⟨listed⟩, hes⟩
    exact ⟨some es, rfl, ⟨.present columns⟩⟩

theorem means_where : Means (Derivation.Clause [.keyword .WHERE] Expression) conditionOf?
    (Derivation.Clause [.keyword .WHERE] Predicate) := by
  have hsame : conditionOf? = Option.mapM (Expr.ofPredicateAt .whereClause) := by
    funext where?
    cases where? <;> rfl
  rw [hsame]
  exact means_clause _ (means_predicate .whereClause)

theorem queryMeans_query (h : QueryMeans Q) (destination : SyntaxTree) :
    QueryMeans (Derivation.Query Q destination) where
  isQuery := by
    intro ws tree d
    cases d
    rfl
  meaning := by
    intro ws tree query d hquery
    cases d with
    | mk selected tables condition grouped =>
      simp only [Query.ofTree_queryNode, bind_eq_ok, pure_eq_ok] at hquery
      obtain ⟨ts, hts, items, hitems, where?, hwhere, groupBy, hgroup, rfl⟩ := hquery
      obtain ⟨selected'⟩ := (means_listed means_item _ _).2 ⟨_, ⟨selected⟩, hitems⟩
      obtain ⟨tables'⟩ := tables_of_clause h tables hts
      obtain ⟨condition'⟩ := (means_where _ _).2 ⟨_, ⟨condition⟩, hwhere⟩
      obtain ⟨group?, rfl, ⟨grouped'⟩⟩ := grouping_of_clause grouped hgroup
      exact ⟨.mk selected' tables' condition' grouped'⟩

theorem queryMeans_subqueryTo (depth : Nat) : QueryMeans (SubqueryTo depth) := by
  induction depth with
  | zero => exact ⟨nofun, nofun⟩
  | succ depth ih => exact queryMeans_query ih tempDestination

end Nesting

theorem queryMeans_subquery : QueryMeans Subquery where
  isQuery ws tree d := (queryMeans_subqueryTo ws.length).isQuery ws tree d
  meaning d := (queryMeans_subqueryTo _).meaning d

/-! ### From meanings -/

mutual

/-- A query is lowered from a tree of its tokens, wherever its rows go. -/
theorem exists_tree_of_query {ws : List Token} {query : SqlGuard.Query}
    (destination : SyntaxTree) : Query ws query →
    ∃ tree, Derives (Derivation.Query Subquery destination) tree ws ∧
      SqlGuard.Query.ofTree tree = .ok query
  | .mk selected references condition grouped => by
    obtain ⟨items, ⟨selected'⟩, hitems⟩ := (means_listed means_item _ _).1 ⟨selected⟩
    obtain ⟨from?, ⟨tables⟩, hfrom⟩ := exists_tree_of_tables references
    obtain ⟨where?, ⟨condition'⟩, hwhere⟩ := (means_where _ _).1 ⟨condition⟩
    obtain ⟨group?, ⟨grouped'⟩, hgroup⟩ :=
      (means_clause _ (means_listed means_column) _ _).1 ⟨grouped⟩
    refine ⟨_, ⟨.mk selected' tables condition' grouped'⟩, ?_⟩
    simp only [Query.ofTree_queryNode, bind_eq_ok, pure_eq_ok]
    refine ⟨_, hfrom, _, hitems, _, hwhere, _, ?_, rfl⟩
    cases group? with
    | none =>
      cases hgroup
      rfl
    | some exprs =>
      obtain ⟨es, hes, rfl⟩ := map_eq_ok.1 hgroup
      exact hes

theorem exists_tree_of_tables {ws : List Token} {ts : List TableRef} : Tables ws ts →
    ∃ from?, Derives (Derivation.Clause [.keyword .FROM] (Element Subquery)) from? ws ∧
      tablesOf? from? = .ok ts
  | .absent => ⟨none, ⟨.absent⟩, rfl⟩
  | .present first links => by
    obtain ⟨left, ⟨source⟩, -, hleft⟩ := exists_tree_of_source first
    obtain ⟨tree, ⟨steps⟩, htree⟩ :=
      exists_steps_of_links links (isTables_source _ _ source) (hleft .join) rfl
    exact ⟨some tree, ⟨.present (.mk source steps)⟩, tablesAt_place .fromClause htree⟩

theorem exists_tree_of_source {ws : List Token} {t : TableRef} : Source ws t →
    ∃ tree, Derives (Derivation.Source Subquery) tree ws ∧ t.join? = none ∧
      ∀ place, tablesAt place tree = .ok [t]
  | .table name named => ⟨_, ⟨.table (.plain name) named⟩, rfl, fun place => tablesAt_tableRef ..⟩
  | .view view named => by
    obtain ⟨tree, hquery, hview⟩ := exists_tree_of_query tempDestination view
    obtain ⟨subquery⟩ := derives_subquery_iff.2 hquery
    refine ⟨_, ⟨.subquery subquery named⟩, rfl, fun place => ?_⟩
    rw [tablesAt_subquery place (queryMeans_subquery.isQuery _ _ subquery), hview]
    rfl

theorem exists_steps_of_links {k : Nat} {ws : List Token} {ts : List TableRef} {left : SyntaxTree}
    {before : TableChain} : Links k ws ts → left.tag.isTables = true →
    tablesAt .join left = .ok before → before.length = k + 1 →
    ∃ tree, Derives (Steps joinNode (Derivation.Join Subquery) left) tree ws ∧
      tablesAt .join tree = .ok (before ++ ts)
  | .done k, isTables, hbefore, hlength => ⟨left, ⟨.done left⟩, by rw [hbefore, List.append_nil]⟩
  | .link spelled source condition more, isTables, hbefore, hlength => by
    obtain ⟨right, ⟨source'⟩, bare, hright⟩ := exists_tree_of_source source
    obtain ⟨on?, ⟨condition'⟩, hon⟩ := (means_on _ _).1 ⟨condition⟩
    have step := Derivation.Join.mk spelled source' condition'
    have some_ : before ≠ [] := by
      rintro rfl
      cases hlength
    have hjoin := tablesAt_joinNode_eq_ok isTables step hbefore some_ (hright .join) bare hon
    rw [TableChain.joinedTo, hlength, Nat.add_sub_cancel] at hjoin
    obtain ⟨tree, ⟨steps⟩, htree⟩ := exists_steps_of_links more rfl hjoin (by simp [hlength])
    rw [List.append_assoc] at htree
    exact ⟨tree, ⟨.step step steps⟩, htree⟩

end

theorem means_query (destination : SyntaxTree) :
    Means (Derivation.Query Subquery destination) SqlGuard.Query.ofTree Query := by
  intro ws query
  constructor
  · intro given
    obtain ⟨rows⟩ := given
    exact exists_tree_of_query destination rows
  · intro given
    obtain ⟨tree, ⟨d⟩, hquery⟩ := given
    exact (queryMeans_query queryMeans_subquery destination).meaning d hquery

end Meaning

end SqlGuard
