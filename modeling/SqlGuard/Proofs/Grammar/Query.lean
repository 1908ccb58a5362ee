import SqlGuard.Proofs.Grammar.Expression

/-!
# Reading written queries

The tokens of a query of the right shape are read as its tree, in front of the end of the tokens or
a closing parenthesis. Main statement: `Query.IsShaped.run_query`.
-/

namespace SqlGuard

open Reader Grammar

/-- The tree of an item of a selection list. -/
def SelectItem.tree (item : SelectItem) : SyntaxTree :=
  .node .selectItem (item.expr.tree :: aliasLeaves item.alias?)

/-- The trees of a GROUP BY clause, if there is one. -/
def groupTrees? (exprs : List Expr) : Option (List SyntaxTree) :=
  if exprs.isEmpty then none else some (exprs.map Expr.tree)

/-- A reference behind another one, given the tree of its source. -/
def linkStep (right : SyntaxTree) (join? : Option Join) : JoinStep :=
  match join? with
  | some join => ⟨join.op, right, join.on?.map Expr.tree⟩
  | none => ⟨.inner, right, none⟩

mutual

/-- The tree of a query whose rows go to a destination. -/
def Query.tree : Query → SyntaxTree → SyntaxTree
  | ⟨items, where?, groupBy, tables⟩, destination =>
    queryNode destination (items.map SelectItem.tree) (fromTree? tables) (where?.map Expr.tree)
      (groupTrees? groupBy)

/-- The tree of the references of a FROM clause, if there are any. -/
def fromTree? : List TableRef → Option SyntaxTree
  | [] => none
  | t :: ts => some (joinTree t.sourceTree (linkSteps ts))

/-- The references behind the first. -/
def linkSteps : List TableRef → List JoinStep
  | [] => []
  | t :: ts => linkStep t.sourceTree t.join? :: linkSteps ts

/-- The tree of a reference without its join. -/
def TableRef.sourceTree : TableRef → SyntaxTree
  | ⟨source, alias?, _⟩ => source.tree alias?

/-- The tree of a source with its alias. -/
def Source.tree : Source → Option String → SyntaxTree
  | .table name, alias? =>
    .node .tableRef (.node .tableName [nameLeaf name] :: aliasLeaves alias?)
  | .view query, alias? => .node .subquery (query.tree tempDestination :: aliasLeaves alias?)

end

/-! ### What stands behind the parts of a query -/

/-- Whether the token starts an alias. -/
def Token.startsAlias : Token → Bool
  | .keyword .AS | .ident _ => true
  | _ => false

/-- The tokens behind a query. -/
def behindQuery : List Token := [.mark .rparen, .eof]

/-- The tokens behind a WHERE clause or before it. -/
def behindCondition : List Token := .keyword .GROUP :: behindQuery

/-- The tokens behind a FROM clause. -/
def behindTables : List Token := .keyword .WHERE :: behindCondition

/-- The tokens behind a reference with its join. -/
def behindLink : List Token :=
  [.keyword .JOIN, .keyword .LEFT, .keyword .RIGHT, .keyword .FULL, .keyword .CROSS] ++ behindTables

/-- The tokens behind a source. -/
def behindSource : List Token := .keyword .ON :: behindLink

/-- The tokens behind a selection list. -/
def behindItems : List Token := .keyword .FROM :: behindTables

/-- The tokens behind an item. -/
def behindItem : List Token := .mark .comma :: behindItems

theorem heads_of_mem {P : Token → Prop} {S : List Token} {rest : List Token}
    (h : Heads (· ∈ S) rest) (hS : ∀ t ∈ S, P t) : Heads P rest :=
  h.mono hS

theorem heads_clause {w : Token} {ws S rest : List Token} {c? : Option (List Token)}
    (h : Heads (· ∈ S) rest) : Heads (· ∈ w :: S) (clauseTokens (w :: ws) c? ++ rest) := by
  cases c? with
  | none => exact h.mono fun _ ht => List.mem_cons_of_mem _ ht
  | some ts => exact heads_cons.2 List.mem_cons_self

namespace Grammar

/-- A clause that is left out, or that stands behind its words. -/
theorem run_clause {α : Type} {w : Token} {ws rest : List Token} {reader : TokenReader α}
    {c? : Option (List Token)} {a? : Option α} (behind : Heads (· ≠ w) rest)
    (h : Option.Rel (fun ts a => reader.run (ws ++ ts ++ rest) = .ok (a, rest)) c? a?) :
    (after? w reader).run (clauseTokens (w :: ws) c? ++ rest) = .ok (a?, rest) := by
  cases h with
  | none => exact run_after?_none behind
  | some h => exact run_after?_some h

/-- A clause with a predicate, behind which its word and operators do not stand. -/
theorem run_predicateClause {w : Token} {S rest : List Token} {e? : Option Expr}
    (noWord : ∀ t ∈ S, t ≠ w) (ends : ∀ t ∈ S, t.EndsExpr) (behind : Heads (· ∈ S) rest)
    (shape : ∀ e, e? = some e → e.IsPredicate) :
    (after? w expression).run (clauseTokens [w] (e?.map Expr.tokens) ++ rest) =
      .ok (e?.map Expr.tree, rest) := by
  apply run_clause (behind.mono noWord)
  cases e? with
  | none => exact .none
  | some e => exact .some ((shape e rfl).run_expression (behind.mono ends))

/-! ### Items -/

theorem run_alias?_none {rest : List Token} (h : Heads (fun t => t.startsAlias = false) rest) :
    alias?.run rest = .ok (none, rest) := by
  rw [alias?, run_onNext_none]
  · rfl
  · refine h.mono ?_
    intro t ht
    split
    · cases ht
    · cases ht
    · rfl

theorem heads_numberTokens (text : String) (rest : List Token) :
    Heads (· ≠ .mark .asterisk) (numberTokens text ++ rest) := by
  unfold numberTokens
  split
  · exact heads_cons.2 (by decide)
  · exact heads_cons.2 (by simp)

/-- An operand does not start with a star. -/
theorem heads_operand {e : Expr} (shape : e.IsOperand) (rest : List Token) :
    Heads (· ≠ .mark .asterisk) (e.tokens ++ rest) := by
  induction shape generalizing rest with
  | field qualifier name =>
    unfold Expr.tokens
    split
    · exact heads_cons.2 (by simp)
    · exact heads_cons.2 (by simp)
  | @number kind text assigned =>
    cases kind with
    | int => exact heads_numberTokens text rest
    | float => exact heads_numberTokens text rest
    | string => exact absurd rfl (numberLiteral_kind assigned)
  | string text => exact heads_cons.2 (by simp)
  | starCall name => exact heads_cons.2 (by simp)
  | @arith op left right _ _ ihl _ =>
    rw [Expr.tokens, List.append_assoc]
    cases hatom : left.isArith with
    | false => exact ihl _
    | true => exact heads_cons.2 (by decide)

/-- An item that does not start with `*` is an expression with its alias. -/
theorem run_selectItem_expr {ts : List Token} (h : Heads (· ≠ .mark .asterisk) ts) :
    selectItem.run ts =
      (expression >>= fun e => alias? >>= fun name? =>
        pure (SyntaxTree.node .selectItem (e :: aliasLeaves name?))).run ts := by
  rw [selectItem, run_onNext_none]
  refine h.mono ?_
  intro t ht
  split
  · exact absurd rfl ht
  · rfl

/-- The tokens of an item are read as its tree. -/
theorem run_selectItem {item : SelectItem} (shape : item.expr.IsOperand) {rest : List Token}
    (behind : Heads (· ∈ behindItem) rest) :
    selectItem.run (item.tokens ++ rest) = .ok (item.tree, rest) := by
  obtain ⟨e, itemAlias?⟩ := item
  cases itemAlias? with
  | none =>
    have hexpr := shape.run_expression (heads_of_mem behind (by decide))
    have halias := run_alias?_none (heads_of_mem behind (by decide))
    show selectItem.run (e.tokens ++ rest) = _
    rw [run_selectItem_expr (heads_operand shape _), run_bind_ok hexpr, run_bind_ok halias]
    rfl
  | some name =>
    have hAS : Heads Token.EndsExpr (.keyword .AS :: .ident name :: rest) :=
      heads_cons.2 (by decide)
    have hexpr := shape.run_expression hAS
    show selectItem.run (e.tokens ++ [.keyword .AS, .ident name] ++ rest) = _
    rw [List.append_assoc]
    show selectItem.run (e.tokens ++ .keyword .AS :: .ident name :: rest) = _
    rw [run_selectItem_expr (heads_operand shape _), run_bind_ok hexpr]
    rfl

/-- A list of items, in front of what stands behind a selection list. -/
theorem run_commaTokens {α β : Type} {item : TokenReader α} {tokens : β → List Token}
    {value : β → α} {S : List Token} {xs : List β} {rest : List Token} (some_ : xs ≠ [])
    (behind : Heads (· ∈ S) rest) (noComma : .mark .comma ∉ S)
    (each : ∀ x ∈ xs, ∀ rest, Heads (· ∈ .mark .comma :: S) rest →
      item.run (tokens x ++ rest) = .ok (value x, rest)) :
    (commaSeparated item).run (commaTokens (xs.map tokens) ++ rest) = .ok (xs.map value, rest) := by
  cases xs with
  | nil => exact absurd rfl some_
  | cons x xs =>
    have htokens : ∀ xs : List β, ∀ x, commaTokens ((x :: xs).map tokens) =
        tokens x ++ xs.flatMap fun x => .mark .comma :: tokens x := by
      intro xs
      induction xs with
      | nil => exact fun x => (List.append_nil _).symm
      | cons y ys ih =>
        intro x
        show tokens x ++ .mark .comma :: commaTokens ((y :: ys).map tokens) = _
        rw [ih y, List.flatMap_cons]
        rfl
    rw [htokens, commaSeparated]
    refine run_separatedBy List.mem_cons_self (behind.mono ?_) each
    intro t ht
    refine ⟨List.mem_cons_of_mem _ ht, ?_⟩
    rintro rfl
    exact noComma ht

/-! ### FROM clauses -/

/-- The optional alias behind a source, a name alone. -/
theorem run_alias? {name? : Option String} {rest : List Token}
    (behind : Heads (· ∈ behindSource) rest) :
    alias?.run (withAliasTokens [] name? ++ rest) = .ok (name?, rest) := by
  cases name? with
  | none => exact run_alias?_none (heads_of_mem behind (by decide))
  | some name => rfl

theorem withAliasTokens_eq (ts : List Token) (name? : Option String) :
    withAliasTokens ts name? = ts ++ withAliasTokens [] name? := by
  cases name? with
  | none => exact (List.append_nil ts).symm
  | some name => rfl

/-- A source is read as its tree, if its view is. -/
theorem run_source {t : TableRef} {rest : List Token} (behind : Heads (· ∈ behindSource) rest)
    (views : ∀ view, t.source = .view view → ∀ rest, Heads (· ∈ behindQuery) rest →
      (query tempDestination).run (view.tokens ++ rest) = .ok (view.tree tempDestination, rest)) :
    (source (query tempDestination)).run (t.sourceTokens ++ rest) = .ok (t.sourceTree, rest) := by
  obtain ⟨src, name?, join?⟩ := t
  have halias : alias?.run (withAliasTokens [] name? ++ rest) = .ok (name?, rest) :=
    run_alias? behind
  rw [TableRef.sourceTokens, TableRef.sourceTree, withAliasTokens_eq, List.append_assoc]
  cases src with
  | table name =>
    have hdot : Heads (· ≠ .mark .dot) (withAliasTokens [] name? ++ rest) := by
      cases name? with
      | none => exact heads_of_mem behind (by decide)
      | some word => exact heads_cons.2 (by simp)
    have htable : tableName.run (.ident name :: (withAliasTokens [] name? ++ rest)) =
        .ok (.node .tableName [nameLeaf name], withAliasTokens [] name? ++ rest) := by
      rw [tableName, run_bind_ok (a := name) rfl, run_bind_ok (run_after?_none hdot)]
      rfl
    rw [Source.tokens, List.cons_append, List.nil_append, source, run_onNext_none,
      run_bind_ok htable, run_bind_ok halias, Source.tree]
    · rfl
    · exact heads_cons.2 rfl
  | view view =>
    have hclose : Heads (· ∈ behindQuery) (.mark .rparen :: (withAliasTokens [] name? ++ rest)) :=
      heads_cons.2 (by decide)
    have hview := views view rfl _ hclose
    rw [Source.tokens, List.cons_append, List.cons_append, List.append_assoc, List.singleton_append,
      source, run_onNext_some rfl, run_bind_ok hview, expect, run_bind_ok run_demand,
      run_bind_ok halias, Source.tree]
    rfl

/-- The words of a join are read from the first of them. -/
theorem joinWords_tokens (op : JoinOp) :
    ∃ t ts words, op.tokens = t :: ts ∧ t ∈ behindLink ∧ joinWords t = some words ∧
      ∀ rest, words.run (ts ++ rest) = .ok (op, rest) := by
  cases op with
  | inner => exact ⟨.keyword .JOIN, [], _, rfl, by decide, rfl, fun _ => rfl⟩
  | leftOuter =>
    exact ⟨.keyword .LEFT, [.keyword .OUTER, .keyword .JOIN], _, rfl, by decide, rfl, fun _ => rfl⟩
  | rightOuter =>
    exact ⟨.keyword .RIGHT, [.keyword .OUTER, .keyword .JOIN], _, rfl, by decide, rfl, fun _ => rfl⟩
  | fullOuter =>
    exact ⟨.keyword .FULL, [.keyword .OUTER, .keyword .JOIN], _, rfl, by decide, rfl, fun _ => rfl⟩
  | cross => exact ⟨.keyword .CROSS, [.keyword .JOIN], _, rfl, by decide, rfl, fun _ => rfl⟩

/-- A reference that can stand behind another one: it is joined, on an equality if on anything. -/
def Linked (t : TableRef) : Prop :=
  ∃ join, t.join? = some join ∧ ∀ e, join.on? = some e → e.IsEquality

end Grammar

theorem Expr.IsEquality.isPredicate {e : Expr} (h : e.IsEquality) : e.IsPredicate := by
  cases h with
  | eq hleft hright => exact .compare .eq hleft hright

namespace Grammar

theorem heads_linkedTokens {tables : List TableRef} (linked : ∀ t ∈ tables, Linked t)
    {rest : List Token} (behind : Heads (· ∈ behindTables) rest) :
    Heads (· ∈ behindLink) (linkedTokens tables ++ rest) := by
  cases tables with
  | nil => exact heads_of_mem behind (by decide)
  | cons t ts =>
    obtain ⟨join, hjoin, -⟩ := linked t List.mem_cons_self
    obtain ⟨w, ws, -, hw, hmem, -⟩ := joinWords_tokens join.op
    rw [linkedTokens, hjoin, linkTokens, hw]
    exact heads_cons.2 hmem

/-- The references behind the first are read as the steps that join them. -/
theorem run_links {tables : List TableRef} (linked : ∀ t ∈ tables, Linked t)
    (sources : ∀ t ∈ tables, ∀ rest, Heads (· ∈ behindSource) rest →
      (source (query tempDestination)).run (t.sourceTokens ++ rest) = .ok (t.sourceTree, rest))
    {rest : List Token} (behind : Heads (· ∈ behindTables) rest) :
    (chain joinWords (joinStep (query tempDestination))).run (linkedTokens tables ++ rest) =
      .ok (linkSteps tables, rest) := by
  induction tables with
  | nil => 
    rw [linkedTokens, linkSteps]
    exact run_chain_stop (heads_of_mem behind (by decide))
  | cons t ts ih =>
    rw [List.forall_mem_cons] at linked sources
    obtain ⟨⟨join, hjoin, hon⟩, linked⟩ := linked
    obtain ⟨w, ws, words, hw, -, hstart, hwords⟩ := joinWords_tokens join.op
    have hbehind := heads_linkedTokens linked behind
    have hclause := run_predicateClause (w := .keyword .ON) (by decide) (by decide) hbehind
      (fun e h => (hon e h).isPredicate)
    have hsource := sources.1 (clauseTokens [.keyword .ON] (join.on?.map Expr.tokens) ++
      (linkedTokens ts ++ rest)) (heads_clause hbehind)
    have htokens : linkedTokens (t :: ts) ++ rest =
        w :: (ws ++ (t.sourceTokens ++ (clauseTokens [.keyword .ON] (join.on?.map Expr.tokens) ++
          (linkedTokens ts ++ rest)))) := by
      rw [linkedTokens, hjoin, linkTokens, hw]
      simp only [List.append_assoc, List.cons_append]
    rw [htokens, linkSteps]
    refine run_chain_cons hstart ?_ (ih linked sources.2)
    rw [joinStep, run_bind_ok (hwords _), run_bind_ok hsource, run_bind_ok hclause, hjoin]
    rfl

/-- The word `SELECT` and what stands behind it. -/
theorem run_select {destination : SyntaxTree} {ts : List Token} :
    (query destination).run (.keyword .SELECT :: ts) =
      (queryOver (query tempDestination) destination).run ts := by
  rw [query_eq]
  exact run_bind_ok run_demand

/-- The references of a FROM clause, if there are any. -/
theorem run_from {tables : List TableRef} (linked : ∀ t ∈ tables.tail, Linked t)
    (sources : ∀ t ∈ tables, ∀ rest, Heads (· ∈ behindSource) rest →
      (source (query tempDestination)).run (t.sourceTokens ++ rest) = .ok (t.sourceTree, rest))
    {rest : List Token} (behind : Heads (· ∈ behindTables) rest) :
    (after? (.keyword .FROM) (fromElement (query tempDestination))).run
        (clauseTokens [.keyword .FROM] (tableTokens? tables) ++ rest) =
      .ok (fromTree? tables, rest) := by
  apply run_clause (heads_of_mem behind (by decide))
  cases tables with
  | nil => exact .none
  | cons t ts =>
    rw [List.forall_mem_cons] at sources
    rw [List.tail_cons] at linked
    have hmore : Heads (· ∈ behindSource) (linkedTokens ts ++ rest) :=
      heads_of_mem (heads_linkedTokens linked behind) (by decide)
    have hfirst := sources.1 _ hmore
    refine .some ?_
    rw [List.nil_append, List.append_assoc, fromElement, run_bind_ok hfirst,
      run_bind_ok (run_links linked sources.2 behind)]
    rfl

/-- The columns of a GROUP BY clause, if there are any. -/
theorem run_group {exprs : List Expr} (columns : ∀ e ∈ exprs, e.IsColumn) {rest : List Token}
    (behind : Heads (· ∈ behindQuery) rest) :
    (after? (.keyword .GROUP)
        (expect (.keyword .BY) >>= fun _ => commaSeparated expression)).run
        (clauseTokens [.keyword .GROUP, .keyword .BY] (groupTokens? exprs) ++ rest) =
      .ok (groupTrees? exprs, rest) := by
  apply run_clause (heads_of_mem behind (by decide))
  unfold groupTokens? groupTrees?
  cases exprs with
  | nil => exact .none
  | cons e es =>
    refine .some ?_
    have heach : ∀ x ∈ e :: es, ∀ rest, Heads (· ∈ .mark .comma :: behindQuery) rest →
        expression.run (x.tokens ++ rest) = .ok (x.tree, rest) := by
      intro x hx rest hrest
      cases columns x hx with
      | field qualifier name =>
        exact (Expr.IsOperand.field qualifier name).run_expression (heads_of_mem hrest (by decide))
    have hlist := run_commaTokens (List.cons_ne_nil e es) behind (by decide) heach
    exact (run_bind_ok run_demand).trans hlist

end Grammar

theorem IsChain.linked {tables : List TableRef} (chain : IsChain tables) :
    ∀ t ∈ tables.tail, Linked t := by
  intro t ht
  obtain ⟨k, hk⟩ := List.getElem?_of_mem ht
  rw [List.getElem?_tail] at hk
  obtain ⟨join, hjoin, -, hon⟩ := chain.later k t hk
  exact ⟨join, hjoin, hon⟩

/-- The tokens of a query of the right shape are read as its tree. -/
theorem Query.IsShaped.run_query {q : Query} (shaped : q.IsShaped) {destination : SyntaxTree}
    {rest : List Token} (behind : Heads (· ∈ behindQuery) rest) :
    (query destination).run (q.tokens ++ rest) = .ok (q.tree destination, rest) := by
  induction shaped generalizing destination rest with
  | @intro q selects items condition grouping chain views ih =>
    obtain ⟨selected, where?, groupBy, tables⟩ := q
    have hsources : ∀ t ∈ tables, ∀ rest, Heads (· ∈ behindSource) rest →
        (source (query tempDestination)).run (t.sourceTokens ++ rest) =
          .ok (t.sourceTree, rest) := by
      intro t ht rest hrest
      exact run_source hrest fun view hs rest h => ih t ht view hs h
    -- what stands behind each clause, from the last to the first
    have behindGroup : Heads (· ∈ behindCondition)
        (clauseTokens [.keyword .GROUP, .keyword .BY] (groupTokens? groupBy) ++ rest) :=
      heads_clause behind
    have behindWhere : Heads (· ∈ behindTables)
        (clauseTokens [.keyword .WHERE] (where?.map Expr.tokens) ++
          (clauseTokens [.keyword .GROUP, .keyword .BY] (groupTokens? groupBy) ++ rest)) :=
      heads_clause behindGroup
    have behindFrom : Heads (· ∈ behindItems)
        (clauseTokens [.keyword .FROM] (tableTokens? tables) ++
          (clauseTokens [.keyword .WHERE] (where?.map Expr.tokens) ++
            (clauseTokens [.keyword .GROUP, .keyword .BY] (groupTokens? groupBy) ++ rest))) :=
      heads_clause behindWhere
    have hitems := run_commaTokens selects behindFrom (by decide)
      fun item hitem rest hrest => run_selectItem (items item hitem) hrest
    have hfrom := run_from chain.linked hsources behindWhere
    have hwhere := run_predicateClause (w := .keyword .WHERE) (by decide) (by decide) behindGroup
      condition
    have hgroup := run_group grouping behind
    rw [Query.tokens]
    simp only [List.cons_append, List.append_assoc]
    rw [run_select, queryOver, run_bind_ok hitems, run_bind_ok hfrom, run_bind_ok hwhere,
      run_bind_ok hgroup]
    rfl

end SqlGuard
