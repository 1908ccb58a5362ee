import SqlGuard.Proofs.Grammar.DerivedExpr
import SqlGuard.Proofs.Grammar.Query

/-!
# Queries are read as they are derived

The parts of a query are read as they are derived if the queries nested in it are. Main statements:
`reads_query` and `takes_query`.
-/

namespace SqlGuard

open Reader Grammar

namespace Derivation

/-! ### Items -/

/-- The token does not go on with an alias. -/
def EndsAlias (t : Token) : Prop := t.startsAlias = false

instance (t : Token) : Decidable (EndsAlias t) := inferInstanceAs (Decidable (_ = _))

/-- What stands in front of an alias or of what is behind it. -/
theorem heads_alias {P : Token → Prop} {ws rest : List Token} {name? : Option String}
    (d : Alias ws name?) (hident : ∀ name, P (.ident name)) (word : P (.keyword .AS))
    (h : Heads P rest) : Heads P (ws ++ rest) := by
  cases d with
  | absent => exact h
  | bare name => exact heads_cons.2 (hident name)
  | word name => exact heads_cons.2 word

theorem reads_alias? : Reads alias? Alias EndsAlias where
  complete d _ ends := by
    cases d with
    | absent => exact run_alias?_none ends
    | bare name => rfl
    | word name => rfl
  unique := by
    rintro ⟨_, _, d⟩ ⟨_, _, e⟩ same
    cases d <;> cases e <;> cases same <;> rfl

theorem takes_alias? : Takes alias? (Derives Alias) := by
  refine Takes.onNext ?_ (takes_pure ⟨.absent⟩)
  intro t r hr
  split at hr
  · cases hr
    refine takes_identifier.map fun name ws hws => ?_
    rw [hws]
    exact ⟨.word name⟩
  · cases hr
    exact takes_pure ⟨.bare _⟩
  · cases hr

/-- The token does not go on with an item. -/
def EndsItem (t : Token) : Prop := t.EndsExpr ∧ EndsAlias t

instance (t : Token) : Decidable (EndsItem t) := inferInstanceAs (Decidable (_ ∧ _))

theorem endsExpr_ident (name : String) : Token.EndsExpr (.ident name) :=
  ⟨⟨⟨by simp, by simp⟩, rfl, rfl⟩, rfl, rfl, rfl⟩

theorem item_run {ws rest : List Token} {tree : SyntaxTree} (d : Item ws tree)
    (ends : Heads EndsItem rest) : selectItem.run (ws ++ rest) = .ok (tree, rest) := by
  cases d with
  | allColumns => rfl
  | @expr ws us e name? expr named =>
    have hexpr := reads_expression.complete expr
      (heads_alias named endsExpr_ident (by decide) (ends.mono fun _ ht => ht.1))
    have halias := reads_alias?.complete named (ends.mono fun _ ht => ht.2)
    have noStar := (starts_expression.heads expr (us ++ rest)).mono fun _ ht => ht.1
    rw [List.append_assoc, run_selectItem_expr noStar, run_bind_ok hexpr, run_bind_ok halias]
    rfl

theorem item_unique (p q : Parse Item) (same : p.tokens = q.tokens) : p = q := by
  obtain ⟨_, _, d⟩ := p
  obtain ⟨_, _, e⟩ := q
  have noStar : ∀ {ws us : List Token} {e : SyntaxTree}, Expression ws e →
      ws ++ us ≠ [.mark .asterisk] := by
    intro ws us e expr heq
    obtain ⟨t, vs, rfl, ht, -⟩ := starts_expression _ _ expr
    exact ht (List.cons.inj heq).1
  have ends : ∀ {us : List Token} {name? : Option String}, Alias us name? →
      Heads Token.EndsExpr us :=
    fun named => heads_of_append_nil (heads_alias named endsExpr_ident (by decide) heads_nil)
  cases d with
  | allColumns =>
    cases e with
    | allColumns => rfl
    | expr expr named => exact absurd same.symm (noStar expr)
  | expr expr named =>
    cases e with
    | allColumns => exact absurd same (noStar expr)
    | expr expr' named' =>
      obtain ⟨hexpr, hrest⟩ := reads_expression.cut ⟨_, _, expr⟩ ⟨_, _, expr'⟩ same (ends named)
        (ends named')
      cases hexpr
      cases reads_alias?.unique ⟨_, _, named⟩ ⟨_, _, named'⟩ hrest
      rfl

theorem reads_selectItem : Reads selectItem Item EndsItem where
  complete d _ ends := item_run d ends
  unique := item_unique

theorem takes_selectItem : Takes selectItem (Derives Item) := by
  apply Takes.onNext
  · intro t r hr
    split at hr
    · cases hr
      exact takes_pure ⟨.allColumns⟩
    · cases hr
  · refine takes_expression.bind fun e ws hexpr => takes_alias?.bind fun name? us halias =>
      takes_pure ?_
    obtain ⟨d⟩ := hexpr
    obtain ⟨d'⟩ := halias
    rw [List.append_nil]
    exact ⟨.expr d d'⟩

/-! ### FROM clauses -/

theorem reads_tableName : Reads tableName TableName (· ≠ .mark .dot) where
  complete d rest ends := by
    cases d with
    | plain name =>
      have hname : identifier.run (.ident name :: rest) = .ok (name, rest) := rfl
      have hsecond : (after? (.mark .dot) identifier).run rest = .ok (none, rest) :=
        run_after?_none ends
      show tableName.run (.ident name :: rest) = _
      rw [tableName, run_bind_ok hname, run_bind_ok hsecond]
      rfl
    | qualified database name => rfl
  unique := by
    rintro ⟨_, _, d⟩ ⟨_, _, e⟩ same
    cases d <;> cases e <;> cases same <;> rfl

theorem takes_tableName : Takes tableName (Derives TableName) := by
  have hsecond : Takes (after? (.mark .dot) identifier)
      (KeptOption fun name ws => ws = [.mark .dot, .ident name]) := by
    refine Takes.after? (takes_identifier.mono fun name ws hws => ?_)
    rw [hws]
  refine takes_identifier.bind fun first ws hws => hsecond.bind fun second? us hus => takes_pure ?_
  rw [hws, List.append_nil]
  cases second? with
  | none =>
    rw [show us = [] from hus]
    exact ⟨.plain first⟩
  | some second =>
    rw [show us = [.mark .dot, .ident second] from hus]
    exact ⟨.qualified first second⟩

/-- The token does not go on with a source. -/
def EndsSource (t : Token) : Prop := EndsAlias t ∧ t ≠ .mark .dot

instance (t : Token) : Decidable (EndsSource t) := inferInstanceAs (Decidable (_ ∧ _))

section Nesting

variable {subquery : TokenReader SyntaxTree} {Q : Language SyntaxTree}

section Source

variable {Ends : Token → Prop}

theorem source_run (h : Reads subquery Q Ends) (rparen : Ends (.mark .rparen))
    {ws rest : List Token} {tree : SyntaxTree} (d : Source Q ws tree)
    (ends : Heads EndsSource rest) :
    (source subquery).run (ws ++ rest) = .ok (tree, rest) := by
  cases d with
  | @table ws us table name? name named =>
    have hdot : Heads (· ≠ .mark .dot) (us ++ rest) :=
      heads_alias named (by simp) (by decide) (ends.mono fun _ ht => ht.2)
    have hname := reads_tableName.complete name hdot
    have halias := reads_alias?.complete named (ends.mono fun _ ht => ht.1)
    have hsource : (source subquery).run (ws ++ (us ++ rest)) =
        (tableName >>= fun table => alias? >>= fun name? =>
          pure (SyntaxTree.node .tableRef (table :: aliasLeaves name?))).run
            (ws ++ (us ++ rest)) := by
      cases name <;> rfl
    rw [List.append_assoc, hsource, run_bind_ok hname, run_bind_ok halias]
    rfl
  | @subquery ws us query name? d named =>
    have hquery := h.run_before d rparen (us ++ rest)
    have halias := reads_alias?.complete named (ends.mono fun _ ht => ht.1)
    have htokens : .mark .lparen :: (ws ++ .mark .rparen :: us) ++ rest =
        .mark .lparen :: (ws ++ .mark .rparen :: (us ++ rest)) := by simp
    rw [htokens, source, run_onNext_some rfl, run_bind_ok hquery, expect, run_bind_ok run_demand,
      run_bind_ok halias]
    rfl

theorem source_unique (h : Reads subquery Q Ends) (rparen : Ends (.mark .rparen))
    (p q : Parse (Source Q)) (same : p.tokens = q.tokens) : p = q := by
  obtain ⟨_, _, d⟩ := p
  obtain ⟨_, _, e⟩ := q
  have noParen : ∀ {ws us vs : List Token} {table : SyntaxTree}, TableName ws table →
      ws ++ us ≠ .mark .lparen :: vs := by
    intro ws us vs table name heq
    cases name <;> cases heq
  have ends : ∀ {us : List Token} {name? : Option String}, Alias us name? →
      Heads (· ≠ .mark .dot) us :=
    fun named => heads_of_append_nil (heads_alias named (by simp) (by decide) heads_nil)
  cases d with
  | table name named =>
    cases e with
    | table name' named' =>
      obtain ⟨hname, hrest⟩ := reads_tableName.cut ⟨_, _, name⟩ ⟨_, _, name'⟩ same (ends named)
        (ends named')
      cases hname
      cases reads_alias?.unique ⟨_, _, named⟩ ⟨_, _, named'⟩ hrest
      rfl
    | subquery d' named' => exact absurd same (noParen name)
  | subquery d named =>
    cases e with
    | table name' named' => exact absurd same.symm (noParen name')
    | subquery d' named' =>
      obtain ⟨hquery, hrest⟩ := h.cut ⟨_, _, d⟩ ⟨_, _, d'⟩ (List.cons.inj same).2
        (heads_cons.2 rparen) (heads_cons.2 rparen)
      cases hquery
      cases reads_alias?.unique ⟨_, _, named⟩ ⟨_, _, named'⟩ (List.cons.inj hrest).2
      rfl

theorem reads_source (h : Reads subquery Q Ends) (rparen : Ends (.mark .rparen)) :
    Reads (source subquery) (Source Q) EndsSource where
  complete d _ ends := source_run h rparen d ends
  unique := source_unique h rparen

theorem takes_source (h : Takes subquery (Derives Q)) :
    Takes (source subquery) (Derives (Source Q)) := by
  apply Takes.onNext
  · intro t r hr
    split at hr
    · cases hr
      refine h.bind fun query ws hquery => takes_demand.bind fun _ us hus =>
        takes_alias?.bind fun name? vs halias => takes_pure ?_
      obtain ⟨d⟩ := hquery
      obtain ⟨d'⟩ := halias
      rw [List.append_nil, hus]
      exact ⟨.subquery d d'⟩
    · cases hr
  · refine takes_tableName.bind fun table ws hname => takes_alias?.bind fun name? us halias =>
      takes_pure ?_
    obtain ⟨d⟩ := hname
    obtain ⟨d'⟩ := halias
    rw [List.append_nil]
    exact ⟨.table d d'⟩

/-! ### Joins -/

/-- The words of a join are read behind the word that starts it. -/
theorem joinSpellings_run {words : List Token} {op : JoinOp}
    (spelled : (words, op) ∈ joinSpellings) :
    ∃ t us reader, words = t :: us ∧ joinWords t = some reader ∧
      ∀ rest, reader.run (us ++ rest) = .ok (op, rest) := by
  simp only [joinSpellings, List.mem_cons, List.not_mem_nil, Prod.mk.injEq, or_false] at spelled
  rcases spelled with ⟨rfl, rfl⟩ | ⟨rfl, rfl⟩ | ⟨rfl, rfl⟩ | ⟨rfl, rfl⟩ | ⟨rfl, rfl⟩ | ⟨rfl, rfl⟩ |
    ⟨rfl, rfl⟩ | ⟨rfl, rfl⟩ | ⟨rfl, rfl⟩ <;> exact ⟨_, _, _, rfl, rfl, fun _ => rfl⟩

/-- The words of a join end at the same place, whatever stands behind them. -/
theorem joinSpellings_cut {words words' rest rest' : List Token} {op op' : JoinOp}
    (spelled : (words, op) ∈ joinSpellings) (spelled' : (words', op') ∈ joinSpellings)
    (same : words ++ rest = words' ++ rest') : words = words' ∧ op = op' ∧ rest = rest' := by
  obtain ⟨t, us, reader, rfl, hreader, hrun⟩ := joinSpellings_run spelled
  obtain ⟨t', us', reader', rfl, hreader', hrun'⟩ := joinSpellings_run spelled'
  obtain ⟨rfl, htail⟩ := List.cons.inj same
  rw [hreader] at hreader'
  cases hreader'
  have hwords := hrun rest
  rw [show us ++ rest = us' ++ rest' from htail, hrun' rest', Except.ok.injEq, Prod.mk.injEq]
    at hwords
  obtain ⟨rfl, rfl⟩ := hwords
  exact ⟨List.append_cancel_right same, rfl, rfl⟩

theorem takes_plainJoin (op : JoinOp) :
    Takes (plainJoin op) fun op' ws => op' = op ∧ ws = [.keyword .JOIN] := by
  refine takes_demand.bind fun _ ws hws => takes_pure ⟨rfl, ?_⟩
  rw [hws]
  rfl

theorem takes_outerJoin (op : JoinOp) :
    Takes (outerJoin op) fun op' ws => op' = op ∧
      (ws = [.keyword .JOIN] ∨ ws = [.keyword .OUTER, .keyword .JOIN]) := by
  refine takes_accept.bind fun taken ws hws => takes_demand.bind fun _ us hus =>
    takes_pure ⟨rfl, ?_⟩
  rw [hws, hus]
  cases taken with
  | true => exact .inr rfl
  | false => exact .inl rfl

/-- What is read as the words of a join spells it. -/
theorem takes_joinWords {t : Token} {reader : TokenReader JoinOp} (h : joinWords t = some reader) :
    Takes reader fun op ws => (t :: ws, op) ∈ joinSpellings := by
  unfold joinWords at h
  split at h <;> cases h
  · exact takes_pure (by decide)
  · exact (takes_plainJoin _).mono (by rintro op ws ⟨rfl, rfl⟩; decide)
  · exact (takes_outerJoin _).mono (by rintro op ws ⟨rfl, rfl | rfl⟩ <;> decide)
  · exact (takes_outerJoin _).mono (by rintro op ws ⟨rfl, rfl | rfl⟩ <;> decide)
  · exact (takes_outerJoin _).mono (by rintro op ws ⟨rfl, rfl | rfl⟩ <;> decide)
  · exact (takes_plainJoin _).mono (by rintro op ws ⟨rfl, rfl⟩; decide)

/-- The token does not go on with a join. -/
def EndsJoin (t : Token) : Prop := t.EndsExpr ∧ EndsSource t ∧ t ≠ .keyword .ON

instance (t : Token) : Decidable (EndsJoin t) := inferInstanceAs (Decidable (_ ∧ _ ∧ _))

theorem endsJoin_of_joinWords {t : Token} {reader : TokenReader JoinOp}
    (h : joinWords t = some reader) : EndsJoin t := by
  unfold joinWords at h
  split at h <;> cases h <;> decide

theorem reads_on : Reads (after? (.keyword .ON) expression) (Clause [.keyword .ON] Expression)
    fun t => t.EndsExpr ∧ t ≠ .keyword .ON :=
  reads_clause reads_expression fun _ => rfl

theorem readsSteps_join (h : Reads subquery Q Ends) (rparen : Ends (.mark .rparen)) :
    ReadsSteps joinWords (joinStep subquery) (Join Q) EndsJoin where
  complete d := by
    cases d with
    | @mk words ws us op right on? spelled source condition =>
      obtain ⟨t, vs, reader, rfl, hreader, hrun⟩ := joinSpellings_run spelled
      refine ⟨t, vs ++ (ws ++ us), reader, rfl, endsJoin_of_joinWords hreader, hreader, ?_⟩
      intro rest ends
      have hcondition := reads_on.complete condition (ends.mono fun _ ht => ⟨ht.1, ht.2.2⟩)
      have hsource := (reads_source h rparen).complete source
        (heads_clause condition (by decide) (ends.mono fun _ ht => ht.2.1))
      rw [List.append_assoc, List.append_assoc, joinStep, run_bind_ok (hrun _), run_bind_ok hsource,
        run_bind_ok hcondition]
      rfl
  unique := by
    rintro ⟨_, _, ⟨spelled, source, condition⟩⟩ ⟨_, _, ⟨spelled', source', condition'⟩⟩ same
    obtain ⟨rfl, rfl, hparts⟩ := joinSpellings_cut spelled spelled' same
    obtain ⟨hsource, hon⟩ := (reads_source h rparen).cut ⟨_, _, source⟩ ⟨_, _, source'⟩ hparts
      (heads_of_append_nil (heads_clause condition (by decide) heads_nil))
      (heads_of_append_nil (heads_clause condition' (by decide) heads_nil))
    cases hsource
    cases reads_on.unique ⟨_, _, condition⟩ ⟨_, _, condition'⟩ hon
    rfl

theorem takes_on : Takes (after? (.keyword .ON) expression)
    (Derives (Clause [.keyword .ON] Expression)) :=
  takes_clause (takes_expression.mono fun _ ws h => ⟨ws, rfl, h⟩)

theorem takes_joinStep (h : Takes subquery (Derives Q)) {t : Token} {reader : TokenReader JoinOp}
    (hreader : joinWords t = some reader) :
    Takes (joinStep subquery reader) fun step ws => Derives (Join Q) step (t :: ws) := by
  refine (takes_joinWords hreader).bind fun op ws spelled => (takes_source h).bind
    fun right us hsource => takes_on.bind fun on? vs hon => takes_pure ?_
  obtain ⟨d⟩ := hsource
  obtain ⟨d'⟩ := hon
  rw [List.append_nil]
  exact ⟨.mk spelled d d'⟩

/-- The token does not go on with the element of a FROM clause. -/
def EndsElement (t : Token) : Prop := EndsJoin t ∧ joinWords t = none

instance (t : Token) : Decidable (EndsElement t) := inferInstanceAs (Decidable (_ ∧ _))

theorem reads_fromElement (h : Reads subquery Q Ends) (rparen : Ends (.mark .rparen)) :
    Reads (fromElement subquery) (Element Q) EndsElement :=
  reads_nested ((reads_source h rparen).mono fun _ ht => ht.2.1) (readsSteps_join h rparen) rfl

theorem takes_fromElement (h : Takes subquery (Derives Q)) :
    Takes (fromElement subquery) (Derives (Element Q)) :=
  takes_nested (takes_source h) (fun _ _ hreader => takes_joinStep h hreader) rfl

end Source

/-! ### Queries -/

/-- The tokens behind a query. -/
def queryEnds : List Token := [.mark .rparen, .mark .semicolon, .eof]

/-- The tokens behind a WHERE clause or before it. -/
def conditionEnds : List Token := .keyword .GROUP :: queryEnds

/-- The tokens behind a FROM clause or before it. -/
def tablesEnds : List Token := .keyword .WHERE :: conditionEnds

/-- The tokens behind a selection list. -/
def itemsEnds : List Token := .keyword .FROM :: tablesEnds

theorem heads_mem_clause {α : Type} {w : Token} {words S ws rest : List Token} {L : Language α}
    {a? : Option α} (d : Clause (w :: words) L ws a?) (h : Heads (· ∈ S) rest) :
    Heads (· ∈ w :: S) (ws ++ rest) :=
  heads_clause d List.mem_cons_self (h.mono fun _ ht => List.mem_cons_of_mem w ht)

theorem reads_items : Reads (commaSeparated selectItem) (Listed Item) (· ∈ itemsEnds) :=
  (reads_listed reads_selectItem (by decide)).mono (by decide)

theorem reads_from (h : Reads subquery Q (· ∈ queryEnds)) :
    Reads (after? (.keyword .FROM) (fromElement subquery)) (Clause [.keyword .FROM] (Element Q))
      (· ∈ tablesEnds) :=
  (reads_clause (reads_fromElement h (by decide)) fun _ => rfl).mono (by decide)

theorem reads_where : Reads (after? (.keyword .WHERE) expression)
    (Clause [.keyword .WHERE] Expression) (· ∈ conditionEnds) :=
  (reads_clause reads_expression fun _ => rfl).mono (by decide)

theorem reads_group : Reads
    (after? (.keyword .GROUP) (do expect (.keyword .BY); commaSeparated expression))
    (Clause [.keyword .GROUP, .keyword .BY] (Listed Expression)) (· ∈ queryEnds) := by
  have hby : ∀ ts, (expect (.keyword .BY) >>= fun _ => commaSeparated expression).run
      ([.keyword .BY] ++ ts) = (commaSeparated expression).run ts :=
    fun ts => run_bind_ok run_demand
  exact (reads_clause (reads_listed reads_expression (by decide)) hby).mono (by decide)

theorem query_run (h : Reads subquery Q (· ∈ queryEnds)) {destination tree : SyntaxTree}
    {ws rest : List Token} (d : Query Q destination ws tree) (ends : Heads (· ∈ queryEnds) rest) :
    (expect (.keyword .SELECT) *> queryOver subquery destination).run (ws ++ rest) =
      .ok (tree, rest) := by
  cases d with
  | @mk ws us vs xs items from? where? group? selected tables condition grouped =>
    have hgroupEnds := heads_mem_clause grouped ends
    have hwhereEnds := heads_mem_clause condition hgroupEnds
    have hfromEnds := heads_mem_clause tables hwhereEnds
    have hitems := reads_items.complete selected hfromEnds
    have hfrom := (reads_from h).complete tables hwhereEnds
    have hwhere := reads_where.complete condition hgroupEnds
    have hgroup := reads_group.complete grouped ends
    have htokens : .keyword .SELECT :: (ws ++ (us ++ (vs ++ xs))) ++ rest =
        .keyword .SELECT :: (ws ++ (us ++ (vs ++ (xs ++ rest)))) := by simp
    have hselect : (expect (.keyword .SELECT) *> queryOver subquery destination).run
        (.keyword .SELECT :: (ws ++ (us ++ (vs ++ (xs ++ rest))))) =
          (queryOver subquery destination).run (ws ++ (us ++ (vs ++ (xs ++ rest)))) := rfl
    rw [htokens, hselect, queryOver, run_bind_ok hitems, run_bind_ok hfrom, run_bind_ok hwhere,
      run_bind_ok hgroup]
    rfl

theorem query_unique (h : Reads subquery Q (· ∈ queryEnds)) {destination : SyntaxTree}
    (p q : Parse (Query Q destination)) (same : p.tokens = q.tokens) : p = q := by
  obtain ⟨_, _, ⟨selected, tables, condition, grouped⟩⟩ := p
  obtain ⟨_, _, ⟨selected', tables', condition', grouped'⟩⟩ := q
  have noMore : Heads (· ∈ queryEnds) [] := heads_nil
  have hgroupEnds := heads_mem_clause grouped noMore
  have hgroupEnds' := heads_mem_clause grouped' noMore
  have hwhereEnds := heads_mem_clause condition hgroupEnds
  have hwhereEnds' := heads_mem_clause condition' hgroupEnds'
  have hfromEnds := heads_mem_clause tables hwhereEnds
  have hfromEnds' := heads_mem_clause tables' hwhereEnds'
  simp only [List.append_nil] at hgroupEnds hgroupEnds' hwhereEnds hwhereEnds' hfromEnds hfromEnds'
  obtain ⟨hitems, behindItems⟩ := reads_items.cut ⟨_, _, selected⟩ ⟨_, _, selected'⟩
    (List.cons.inj same).2 hfromEnds hfromEnds'
  cases hitems
  obtain ⟨hfrom, behindFrom⟩ := (reads_from h).cut ⟨_, _, tables⟩ ⟨_, _, tables'⟩ behindItems
    hwhereEnds hwhereEnds'
  cases hfrom
  obtain ⟨hwhere, behindWhere⟩ := reads_where.cut ⟨_, _, condition⟩ ⟨_, _, condition'⟩ behindFrom
    hgroupEnds hgroupEnds'
  cases hwhere
  cases reads_group.unique ⟨_, _, grouped⟩ ⟨_, _, grouped'⟩ behindWhere
  rfl

theorem reads_queryOver (h : Reads subquery Q (· ∈ queryEnds)) (destination : SyntaxTree) :
    Reads (expect (.keyword .SELECT) *> queryOver subquery destination) (Query Q destination)
      (· ∈ queryEnds) where
  complete d _ ends := query_run h d ends
  unique := query_unique h

theorem takes_queryOver (h : Takes subquery (Derives Q)) (destination : SyntaxTree) :
    Takes (expect (.keyword .SELECT) *> queryOver subquery destination)
      (Derives (Query Q destination)) := by
  have hfrom : Takes (after? (.keyword .FROM) (fromElement subquery))
      (Derives (Clause [.keyword .FROM] (Element Q))) :=
    takes_clause ((takes_fromElement h).mono fun _ ws h => ⟨ws, rfl, h⟩)
  have hwhere : Takes (after? (.keyword .WHERE) expression)
      (Derives (Clause [.keyword .WHERE] Expression)) :=
    takes_clause (takes_expression.mono fun _ ws h => ⟨ws, rfl, h⟩)
  have hgroup : Takes
      (after? (.keyword .GROUP) (do expect (.keyword .BY); commaSeparated expression))
      (Derives (Clause [.keyword .GROUP, .keyword .BY] (Listed Expression))) := by
    refine takes_clause (takes_demand.bind fun _ ws hws => ?_)
    rw [hws]
    exact (takes_listed takes_expression).mono fun _ us h => ⟨us, rfl, h⟩
  refine takes_demand.bind fun _ ts hts => (takes_listed takes_selectItem).bind fun items ws hws =>
    hfrom.bind fun from? us hus => hwhere.bind fun where? vs hvs =>
    hgroup.bind fun group? xs hxs => takes_pure ?_
  obtain ⟨selected⟩ := hws
  obtain ⟨tables⟩ := hus
  obtain ⟨condition⟩ := hvs
  obtain ⟨grouped⟩ := hxs
  rw [hts, List.append_nil]
  show Derives (Query Q destination) _ (.keyword .SELECT :: (ws ++ (us ++ (vs ++ xs))))
  exact ⟨.mk selected tables condition grouped⟩

end Nesting

theorem reads_subqueryTo (depth : Nat) :
    Reads (query tempDestination) (SubqueryTo depth) (· ∈ queryEnds) := by
  induction depth with
  | zero => exact ⟨nofun, nofun⟩
  | succ depth ih =>
    rw [query_eq]
    exact reads_queryOver ih tempDestination

theorem takes_subqueryTo (depth : Nat) :
    Takes (queryTo tempDestination depth) (Derives (SubqueryTo depth)) := by
  induction depth with
  | zero => exact takes_refuse
  | succ depth ih => exact takes_queryOver (takes_look fun _ => ih) tempDestination

theorem reads_subquery : Reads (query tempDestination) Subquery (· ∈ queryEnds) :=
  reads_deep reads_subqueryTo

theorem takes_subquery : Takes (query tempDestination) (Derives Subquery) :=
  takes_deep reads_subqueryTo takes_subqueryTo

/-- A query is read as it is derived, and there is only one derivation. -/
theorem reads_query (destination : SyntaxTree) :
    Reads (query destination) (Query Subquery destination) (· ∈ queryEnds) := by
  rw [query_eq]
  exact reads_queryOver reads_subquery destination

/-- What is read as a query derives it. -/
theorem takes_query (destination : SyntaxTree) :
    Takes (query destination) (Derives (Query Subquery destination)) := by
  rw [query_eq]
  exact takes_queryOver takes_subquery destination

/-- The rule of nested queries, with the queries nested in them. -/
theorem derives_subquery_iff {ws : List Token} {tree : SyntaxTree} :
    Derives Subquery tree ws ↔ Derives (Query Subquery tempDestination) tree ws :=
  derives_iff reads_subquery takes_subquery (reads_query tempDestination)
    (takes_query tempDestination)

end Derivation

end SqlGuard
