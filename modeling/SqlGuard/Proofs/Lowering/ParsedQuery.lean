import SqlGuard.Proofs.Lowering.ParsedExpr

/-!
# Lowering the queries that were read

Trees of queries are lowered to queries of the right shape, whose names and literals are among the
tokens that were read, in their order. Main statement: `QueryTree.ofTree`.
-/

namespace SqlGuard

open Reader Grammar

/-! ### Lists of trees -/

namespace Reader.KeptList

variable {α β : Type} {P : α → List Token → Prop} {R : β → List Token → Prop} {xs : List α}
  {ys : List β} {ws : List Token}

theorem mapM {f : α → Lowered β} (h : KeptList P xs ws) (hys : xs.mapM f = .ok ys)
    (each : ∀ x y us, us ⊆ ws → P x us → f x = .ok y → R y us) : KeptList R ys ws := by
  rw [mapM_eq_ok] at hys
  induction h generalizing ys with
  | nil =>
    cases hys
    exact .nil
  | @cons x xs us vs first more ih =>
    cases hys with
    | cons hy hys =>
      refine .cons (each _ _ us (List.subset_append_left us vs) first hy) (ih hys ?_)
      intro x y ts hts
      exact each x y ts fun t ht => List.subset_append_right us vs (hts ht)

theorem drawnFrom_commaTokens {tokens : β → List Token}
    (h : KeptList R ys ws) (each : ∀ y us, R y us → DrawnFrom (tokens y) us) :
    DrawnFrom (commaTokens (ys.map tokens)) ws := by
  induction h with
  | nil => exact .nil
  | @cons y ys us vs first more ih =>
    cases ys with
    | nil => exact (each y us first).mono (List.sublist_append_left us vs)
    | cons z zs => exact (each y us first).append (.cons rfl ih)

end Reader.KeptList

/-! ### Items and clauses -/

namespace Grammar

theorem ItemTree.ofTree {tree : SyntaxTree} {ws : List Token} (h : ItemTree tree ws)
    (scanned : ∀ t ∈ ws, t.IsScanned) {item : SelectItem}
    (hitem : SelectItem.ofTree tree = .ok item) :
    item.expr.IsOperand ∧ DrawnFrom item.tokens ws := by
  cases h with
  | allColumns => cases hitem
  | @expr tree name? ws us htree hname =>
    rw [List.forall_mem_append] at scanned
    rw [SelectItem.ofTree_node (Tag.ne_identifier_of_isExpr htree.isExpr), map_eq_ok] at hitem
    obtain ⟨e, he, rfl⟩ := hitem
    obtain ⟨shape, drawn⟩ := htree.ofTree scanned.1 he
    refine ⟨shape, ?_⟩
    cases name? with
    | none => exact drawn.mono (List.sublist_append_left ws us)
    | some name =>
      rw [hname]
      exact drawn.append (.of_filter rfl)

variable {Q : SyntaxTree → List Token → Prop}

/-- Trees of queries that are lowered to queries of the right shape. -/
structure LowersToShaped (Q : SyntaxTree → List Token → Prop) : Prop where
  isQuery : ∀ tree ws, Q tree ws → tree.tag = .query
  ofTree : ∀ tree ws, Q tree ws → (∀ t ∈ ws, t.IsScanned) → ∀ query : Query,
    Query.ofTree tree = .ok query → query.IsShaped ∧ DrawnFrom query.tokens ws

/-- A reference of the right shape, whose names are among the tokens. -/
structure SourceDrawn (t : TableRef) (ws : List Token) : Prop where
  views : ∀ view, t.source = .view view → view.IsShaped
  drawn : DrawnFrom t.sourceTokens ws

theorem SourceTree.isTables {tree : SyntaxTree} {ws : List Token} (h : SourceTree Q tree ws) :
    tree.tag.isTables = true := by
  cases h <;> rfl

theorem drawnFrom_withAliasTokens {ts ws us : List Token} {name? : Option String}
    (h : DrawnFrom ts ws) (hname : KeptOption IsName name? us) :
    DrawnFrom (withAliasTokens ts name?) (ws ++ us) := by
  cases name? with
  | none => exact h.mono (List.sublist_append_left ws us)
  | some name =>
    rw [hname]
    exact h.append (.of_filter rfl)

theorem SourceTree.tablesAt {tree : SyntaxTree} {ws : List Token} (h : SourceTree Q tree ws)
    (hQ : LowersToShaped Q) (scanned : ∀ t ∈ ws, t.IsScanned) {place : Construct}
    {chain : TableChain} (hchain : tablesAt place tree = .ok chain) :
    ∃ t : TableRef, chain = [t] ∧ t.join? = none ∧ SourceDrawn t ws := by
  cases h with
  | @table name name? us hname =>
    rw [tablesAt_tableRef] at hchain
    cases hchain
    refine ⟨_, rfl, rfl, ⟨fun view hview => ?_, ?_⟩⟩
    · cases hview
    · have hdrawn : DrawnFrom [.ident name] [.ident name] := .of_filter rfl
      rw [TableRef.sourceTokens, Source.tokens]
      exact drawnFrom_withAliasTokens hdrawn hname
  | qualified database name name? ws =>
    rw [tablesAt_qualifiedTableRef] at hchain
    cases hchain
  | @subquery tree name? ws us htree hname =>
    rw [List.forall_mem_append] at scanned
    rw [tablesAt_subquery place (hQ.isQuery tree ws htree), map_eq_ok] at hchain
    obtain ⟨view, hview, rfl⟩ := hchain
    obtain ⟨shaped, drawn⟩ := hQ.ofTree tree ws htree scanned.1 view hview
    refine ⟨_, rfl, rfl, ⟨fun view' hview' => ?_, ?_⟩⟩
    · cases hview'
      exact shaped
    · rw [TableRef.sourceTokens, Source.tokens]
      refine drawnFrom_withAliasTokens ?_ hname
      exact drawn.enclosed true

/-! ### Chains -/

/-- References that can stand behind others, the first of them behind the reference at `left`. -/
structure LinksDrawn (left : Nat) (tables : List TableRef) (ws : List Token) : Prop where
  joined : ∀ (k : Nat) t, tables[k]? = some t → ∃ join, t.join? = some join ∧
    join.left = left + k ∧ ∀ e, join.on? = some e → e.IsEquality
  views : ∀ t ∈ tables, ∀ view, t.source = .view view → view.IsShaped
  drawn : DrawnFrom (linkedTokens tables) ws

theorem drawnFrom_joinOp (op : JoinOp) : DrawnFrom op.tokens [] := by
  cases op <;> exact .of_filter rfl

/-- A step puts its source behind the references before it. -/
theorem StepTree.tablesAt {step : JoinStep} {ws : List Token} (h : StepTree Q step ws)
    (hQ : LowersToShaped Q) (scanned : ∀ t ∈ ws, t.IsScanned) {left : SyntaxTree}
    (isTables : left.tag.isTables = true) {chain : TableChain}
    (hchain : tablesAt .join (.node (.join step.op) (left :: step.right :: step.on?.toList)) =
      .ok chain) :
    ∃ before, tablesAt .join left = .ok before ∧ (before ≠ [] →
      ∃ t : TableRef, chain = before ++ [t] ∧ LinksDrawn (before.length - 1) [t] ws) := by
  cases h with
  | @step op right on? ws us hright hon =>
    rw [List.forall_mem_append] at scanned
    rw [tablesAt_join isTables hright.isTables] at hchain
    simp only [bind_eq_ok] at hchain
    obtain ⟨before, hbefore, more, hmore, parts, hparts, hchain⟩ := hchain
    obtain ⟨t, rfl, bare, hviews, hdrawn⟩ := hright.tablesAt hQ scanned.1 hmore
    have hcondition : ∃ cond? : Option Expr, parts = cond?.toList.map .condition ∧
        (∀ e, cond? = some e → e.IsEquality) ∧
        DrawnFrom (clauseTokens [.keyword .ON] (cond?.map Expr.tokens)) us := by
      cases on? with
      | none =>
        cases hparts
        exact ⟨none, rfl, fun e he => (by cases he), .nil⟩
      | some on =>
        simp only [Option.toList_some, List.mapM_cons, List.mapM_nil, bind_eq_ok,
          pure_eq_ok] at hparts
        obtain ⟨part, hpart, _, rfl, rfl⟩ := hparts
        obtain ⟨e, rfl, shape, drawn⟩ := ExprTree.ofCondition hon scanned.2 hpart
        refine ⟨some e, rfl, fun e' he' => ?_, drawn.cons rfl⟩
        cases he'
        exact shape
    obtain ⟨cond?, rfl, hshape, hcond⟩ := hcondition
    refine ⟨before, hbefore, fun some_ => ?_⟩
    rw [TableChain.ofJoinParts_single some_ bare] at hchain
    cases hchain
    refine ⟨_, rfl, ⟨?_, ?_, ?_⟩⟩
    · intro k u hu
      cases k with
      | zero =>
        cases hu
        exact ⟨_, rfl, rfl, hshape⟩
      | succ k => cases hu
    · exact List.forall_mem_singleton.2 hviews
    · have hlink : DrawnFrom (op.tokens ++ t.sourceTokens ++
          clauseTokens [.keyword .ON] (cond?.map Expr.tokens)) (ws ++ us) :=
        ((drawnFrom_joinOp op).append hdrawn).append hcond
      obtain ⟨source, alias?, join?⟩ := t
      simp only [linkedTokens, List.append_nil]
      exact hlink

theorem LinksDrawn.cons {left : Nat} {t : TableRef} {tables : List TableRef} {ws us : List Token}
    (h : LinksDrawn left [t] ws) (more : LinksDrawn (left + 1) tables us) :
    LinksDrawn left (t :: tables) (ws ++ us) where
  joined := by
    intro k u hu
    cases k with
    | zero => exact h.joined 0 u hu
    | succ k =>
      obtain ⟨join, hjoin, hleft, hon⟩ := more.joined k u hu
      exact ⟨join, hjoin, by omega, hon⟩
  views := List.forall_mem_cons.2 ⟨h.views t List.mem_cons_self, more.views⟩
  drawn := by
    have hlink := h.drawn
    rw [linkedTokens, linkedTokens, List.append_nil] at hlink
    rw [linkedTokens]
    exact hlink.append more.drawn

/-- Steps put their sources one after the other behind the references before them. -/
theorem tablesAt_joinTree_steps {steps : List JoinStep} {ws : List Token}
    (h : KeptList (StepTree Q) steps ws) (hQ : LowersToShaped Q)
    (scanned : ∀ t ∈ ws, t.IsScanned) {first : SyntaxTree} (isTables : first.tag.isTables = true)
    {chain : TableChain} (hchain : tablesAt .join (joinTree first steps) = .ok chain) :
    ∃ before, tablesAt .join first = .ok before ∧ (before ≠ [] →
      ∃ more, chain = before ++ more ∧ LinksDrawn (before.length - 1) more ws) := by
  induction h generalizing first with
  | nil =>
    refine ⟨chain, hchain, fun _ => ⟨[], (List.append_nil chain).symm, ⟨?_, ?_, .nil⟩⟩⟩
    · intro k t ht
      cases ht
    · exact List.forall_mem_nil _
  | @cons step steps ws us hstep _ ih =>
    rw [List.forall_mem_append] at scanned
    obtain ⟨middle, hmiddle, hmore⟩ := ih scanned.2 rfl hchain
    obtain ⟨before, hbefore, hlink⟩ := hstep.tablesAt hQ scanned.1 isTables hmiddle
    refine ⟨before, hbefore, fun some_ => ?_⟩
    obtain ⟨t, rfl, hdrawn⟩ := hlink some_
    obtain ⟨more, rfl, hlinks⟩ := hmore (by simp)
    have hlength : (before ++ [t]).length - 1 = before.length - 1 + 1 := by
      have := List.length_pos_iff.2 some_
      rw [List.length_append, List.length_singleton]
      omega
    rw [hlength] at hlinks
    exact ⟨t :: more, List.append_assoc before [t] more, hdrawn.cons hlinks⟩

/-- The references of a FROM clause are a chain. -/
theorem ElementTree.tablesAt {tree : SyntaxTree} {ws : List Token} (h : ElementTree Q tree ws)
    (hQ : LowersToShaped Q) (scanned : ∀ t ∈ ws, t.IsScanned) {place : Construct}
    {chain : TableChain} (hchain : tablesAt place tree = .ok chain) :
    IsChain chain ∧ (∀ t ∈ chain, ∀ view, t.source = .view view → view.IsShaped) ∧
      DrawnFrom (clauseTokens [.keyword .FROM] (tableTokens? chain)) ws := by
  cases h with
  | @joins first steps ws us hfirst hsteps =>
    rw [List.forall_mem_append] at scanned
    obtain ⟨before, hbefore, hmore⟩ := tablesAt_joinTree_steps hsteps hQ scanned.2 hfirst.isTables
      (tablesAt_place .join hchain)
    obtain ⟨t, rfl, bare, hviews, hdrawn⟩ := hfirst.tablesAt hQ scanned.1 hbefore
    obtain ⟨more, rfl, hlinks⟩ := hmore (List.cons_ne_nil t [])
    refine ⟨⟨?_, ?_⟩, List.forall_mem_cons.2 ⟨hviews, hlinks.views⟩, ?_⟩
    · intro u hu
      cases hu
      exact bare
    · intro k u hu
      obtain ⟨join, hjoin, hleft, hon⟩ := hlinks.joined k u hu
      exact ⟨join, hjoin, by simpa using hleft, hon⟩
    · rw [List.singleton_append, tableTokens?]
      exact .cons rfl (hdrawn.append hlinks.drawn)

/-! ### Queries -/

theorem drawnFrom_group {exprs : List Expr} {ws : List Token}
    (h : KeptList (fun e us => e.IsColumn ∧ DrawnFrom e.tokens us) exprs ws) :
    DrawnFrom (clauseTokens [.keyword .GROUP, .keyword .BY] (groupTokens? exprs)) ws := by
  have hexprs : DrawnFrom (commaTokens (exprs.map Expr.tokens)) ws :=
    h.drawnFrom_commaTokens fun _ _ he => he.2
  unfold groupTokens?
  split
  · exact .nil
  · exact .cons rfl (.cons rfl hexprs)

theorem QueryOver.ofTree {tree : SyntaxTree} {ws : List Token} (h : QueryOver Q tree ws)
    (hQ : LowersToShaped Q) (scanned : ∀ t ∈ ws, t.IsScanned) {query : Query}
    (hquery : Query.ofTree tree = .ok query) : query.IsShaped ∧ DrawnFrom query.tokens ws := by
  cases h with
  | @clauses destination items from? where? group? ws us vs xs selects hitems hfrom hwhere hgroup =>
    simp only [List.forall_mem_append] at scanned
    obtain ⟨scannedItems, scannedFrom, scannedWhere, scannedGroup⟩ := scanned
    simp only [Query.ofTree_queryNode, bind_eq_ok, pure_eq_ok] at hquery
    obtain ⟨tables, htables, selected, hselected, cond?, hcond, groupBy, hgroupBy, rfl⟩ := hquery
    have hitems' : KeptList (fun item us => item.expr.IsOperand ∧ DrawnFrom item.tokens us)
        selected ws := by
      refine hitems.mapM hselected fun tree item us hus htree hitem => ?_
      exact htree.ofTree (fun t ht => scannedItems t (hus ht)) hitem
    have htables' : IsChain tables ∧
        (∀ t ∈ tables, ∀ view, t.source = .view view → view.IsShaped) ∧
        DrawnFrom (clauseTokens [.keyword .FROM] (tableTokens? tables)) us := by
      cases from? with
      | none =>
        cases htables
        refine ⟨⟨?_, ?_⟩, List.forall_mem_nil _, .nil⟩
        · intro t ht
          cases ht
        · intro k t ht
          cases ht
      | some element => exact ElementTree.tablesAt hfrom hQ scannedFrom htables
    have hcond' : (∀ e, cond? = some e → e.IsPredicate) ∧
        DrawnFrom (clauseTokens [.keyword .WHERE] (cond?.map Expr.tokens)) vs := by
      cases where? with
      | none =>
        cases hcond
        exact ⟨fun e he => (by cases he), .nil⟩
      | some tree =>
        rw [conditionOf?, map_eq_ok] at hcond
        obtain ⟨e, he, rfl⟩ := hcond
        obtain ⟨shape, drawn⟩ := ExprTree.ofPredicateAt hwhere scannedWhere he
        refine ⟨fun e' he' => ?_, drawn.cons rfl⟩
        cases he'
        exact shape
    have hgroup' : KeptList (fun e us => e.IsColumn ∧ DrawnFrom e.tokens us) groupBy xs := by
      cases group? with
      | none =>
        cases hgroupBy
        rw [hgroup]
        exact .nil
      | some trees =>
        refine KeptList.mapM hgroup hgroupBy fun tree e us hus htree he => ?_
        exact htree.ofGrouping (fun t ht => scannedGroup t (hus ht)) he
    have selects' : selected ≠ [] := by
      rintro rfl
      rw [mapM_eq_ok, List.forall₂_nil_right_iff] at hselected
      exact selects hselected
    obtain ⟨chain, views, drawnTables⟩ := htables'
    obtain ⟨condition, drawnWhere⟩ := hcond'
    refine ⟨.intro selects' (hitems'.forall_mem fun _ _ h => h.1) condition
      (hgroup'.forall_mem fun _ _ h => h.1) chain views, ?_⟩
    have drawnItems : DrawnFrom (commaTokens (selected.map SelectItem.tokens)) ws :=
      hitems'.drawnFrom_commaTokens fun _ _ h => h.2
    have drawnSelect := drawnItems.cons (t := .keyword .SELECT) rfl
    have drawnGroup := drawnFrom_group hgroup'
    have hall := ((drawnSelect.append drawnTables).append drawnWhere).append drawnGroup
    rw [List.append_assoc ws, List.append_assoc ws, List.append_assoc us] at hall
    rw [Query.tokens]
    exact hall

/-- Trees of queries are lowered to queries of the right shape. -/
theorem QueryTree.lowersToShaped (depth : Nat) : LowersToShaped (QueryTree depth) := by
  induction depth with
  | zero => exact ⟨fun _ _ h => h.elim, fun _ _ h => h.elim⟩
  | succ depth ih =>
    refine ⟨fun tree ws h => ?_, fun tree ws h scanned query hquery => ?_⟩
    · cases h
      rfl
    · exact QueryOver.ofTree h ih scanned hquery

end Grammar

end SqlGuard
