import SqlGuard.Proofs.Lowering.Decided

/-!
# Which statements are lowered

A tree that is derived is lowered exactly where it is supported, and otherwise an element of it is
blamed. Main statement: `Derivation.makes_plain`.
-/

namespace SqlGuard

open Grammar LoweringError

/-! ### Parts of queries -/

theorem SyntaxTree.supported_tableName {table : SyntaxTree} {ws : List Token}
    (d : Derivation.TableName ws table) : table.Supported := by
  cases d with
  | plain name => exact supported_node.2 ⟨trivial, by simp [nameLeaf, supported_leaf]⟩
  | qualified database name =>
    exact supported_node.2 ⟨trivial, by simp [nameLeaf, supported_leaf]⟩

/-- The condition of a join that may be left out. -/
def joinConditionOf? : Option SyntaxTree → Lowered (Option Expr)
  | none => .ok none
  | some on => some <$> Expr.ofCondition on

/-- A join on an expression. -/
theorem tablesAt_joinNode {left : SyntaxTree} {step : JoinStep}
    (hleft : left.tag.isTables = true) (hright : step.right.tag.isTables = true)
    (hon : ∀ on ∈ step.on?, on.IsExpression) (place : Construct) :
    tablesAt place (Derivation.joinNode left step) = (do
      let chain ← tablesAt .join left
      let more ← tablesAt .join step.right
      let on? ← joinConditionOf? step.on?
      TableChain.ofJoinParts step.op
        (.tables chain :: .tables more :: on?.toList.map .condition)) := by
  obtain ⟨op, right, on?⟩ := step
  rw [Derivation.joinNode, tablesAt_join hleft hright]
  cases on? with
  | none => rfl
  | some on =>
    simp only [Option.toList_some, List.mapM_cons, List.mapM_nil,
      JoinPart.ofTree_expression (hon on rfl), joinConditionOf?]
    cases Expr.ofCondition on <;> rfl

/-- The tree is that of a query, and lowered exactly where it is supported. -/
structure QueryDecided (tree : SyntaxTree) : Prop where
  isQuery : tree.tag = .query
  decided : Decided (Query.ofTree tree) tree.Supported (Blames tree)

/-- The tree stands for references, and is lowered to them exactly where it is supported. -/
structure TablesDecided (tree : SyntaxTree) : Prop where
  isTables : tree.tag.isTables = true
  decided : ∀ place, Decided (tablesAt place tree) tree.Supported (Blames tree)
  some_ : ∀ place chain, tablesAt place tree = .ok chain → chain ≠ []

/-- The tree stands for a single reference without a join. -/
structure SourceDecided (tree : SyntaxTree) : Prop where
  isTables : tree.tag.isTables = true
  decided : ∀ place, Decided (tablesAt place tree) tree.Supported (Blames tree)
  single : ∀ place chain, tablesAt place tree = .ok chain → ∃ t, chain = [t] ∧ t.join? = none

theorem SourceDecided.tables {tree : SyntaxTree} (h : SourceDecided tree) : TablesDecided tree where
  isTables := h.isTables
  decided := h.decided
  some_ place chain hchain := by
    obtain ⟨t, rfl, -⟩ := h.single place chain hchain
    exact List.cons_ne_nil t []

namespace Derivation

theorem makes_item :
    Makes Item fun item => Decided (SelectItem.ofTree item) item.Supported NamesElement := by
  intro ws item d
  cases d with
  | allColumns =>
    refine .error (fun h => ?_) (.mk .expression _)
    obtain ⟨allowed, -⟩ := SyntaxTree.supported_node.1 h
    have operand : (SyntaxTree.node (.other "TOK_ALLCOLREF") []).IsOperand := allowed
    cases operand with
    | number isNumber text => exact absurd isNumber (by decide)
  | @expr ws us e name? expr named =>
    have h := makes_expression _ _ expr
    rw [SelectItem.ofTree_node (Tag.ne_identifier_of_isExpr h.isExpr)]
    refine ((Expr.decided_ofTree h).map _).congr ?_
    rw [SyntaxTree.supported_node, List.forall_mem_cons]
    exact ⟨fun operand => ⟨operand, h.supported, SyntaxTree.supported_aliasLeaves name?⟩, And.left⟩

theorem decided_tableNameOfTree {table : SyntaxTree} {ws : List Token} (d : TableName ws table) :
    Decided (tableNameOfTree table) table.IsTableName NamesElement := by
  cases d with
  | plain name => exact .ok name (.mk name)
  | qualified database name => exact .error nofun (.mk .tableName _)

/-- A table is lowered as its name is. -/
theorem tablesAt_tableName {table : SyntaxTree} {ws : List Token} (d : TableName ws table)
    (place : Construct) (name? : Option String) :
    tablesAt place (.node .tableRef (table :: aliasLeaves name?)) =
      (fun name => [{ source := .table name, alias? := name? }]) <$> tableNameOfTree table := by
  cases d with
  | plain name => exact tablesAt_tableRef place name name?
  | qualified database name => exact tablesAt_qualifiedTableRef place database name name?

section Nesting

variable {Q : Language SyntaxTree}

theorem makes_source (h : Makes Q QueryDecided) : Makes (Source Q) SourceDecided := by
  intro ws tree d
  cases d with
  | @table ws us table name? name named =>
    refine ⟨rfl, fun place => ?_, fun place chain hchain => ?_⟩
    · rw [tablesAt_tableName name]
      refine (((decided_tableNameOfTree name).map _).congr ?_).mono fun e => .element
      rw [SyntaxTree.supported_node, List.forall_mem_cons]
      exact ⟨fun allowed => ⟨allowed, SyntaxTree.supported_tableName name,
        SyntaxTree.supported_aliasLeaves name?⟩, And.left⟩
    · rw [tablesAt_tableName name, map_eq_ok] at hchain
      obtain ⟨name, -, rfl⟩ := hchain
      exact ⟨_, rfl, rfl⟩
  | @subquery ws us query name? d named =>
    obtain ⟨isQuery, decided⟩ := h _ _ d
    refine ⟨rfl, fun place => ?_, fun place chain hchain => ?_⟩
    · rw [tablesAt_subquery place isQuery]
      refine ((decided.map _).congr ?_).mono fun e => .below List.mem_cons_self
      rw [SyntaxTree.supported_node, List.forall_mem_cons]
      exact ⟨fun supported => ⟨trivial, supported, SyntaxTree.supported_aliasLeaves name?⟩,
        fun h => h.2.1⟩
    · rw [tablesAt_subquery place isQuery, map_eq_ok] at hchain
      obtain ⟨view, -, rfl⟩ := hchain
      exact ⟨_, rfl, rfl⟩

/-- What stands behind the left side of a join. -/
structure StepDecided (step : JoinStep) : Prop where
  right : SourceDecided step.right
  on? : ∀ on ∈ step.on?, on.IsExpression

theorem makes_join (h : Makes Q QueryDecided) : Makes (Join Q) StepDecided := by
  intro ws step d
  cases d with
  | mk spelled source condition =>
    exact ⟨makes_source h _ _ source, makes_clause makes_expression _ _ condition⟩

theorem decided_joinConditionOf? {on? : Option SyntaxTree} (h : ∀ on ∈ on?, on.IsExpression) :
    Decided (joinConditionOf? on?) (∀ on ∈ on?, on.IsComparison .eq) fun e => e.NamesElement ∨
      ∃ on ∈ on?, on.tag = .conjunction ∧ e = .unsupportedJoinCondition on.render := by
  cases on? with
  | none => exact .ok _ nofun
  | some on =>
    refine (((Expr.decided_ofCondition (h on rfl)).map _).congr ?_).mono ?_
    · simp
    · rintro e (names | ⟨isAnd, rfl⟩)
      · exact .inl names
      · exact .inr ⟨on, rfl, isAnd, rfl⟩

theorem supported_joinNode {left : SyntaxTree} {step : JoinStep}
    (hon : ∀ on ∈ step.on?, on.IsExpression) :
    (joinNode left step).Supported ↔
      left.Supported ∧ step.right.Supported ∧ ∀ on ∈ step.on?, on.IsComparison .eq := by
  have allowed : (joinNode left step).Allowed ↔ ∀ on ∈ step.on?, on.IsComparison .eq := by
    simp [joinNode, SyntaxTree.node, SyntaxTree.Allowed]
  rw [joinNode, SyntaxTree.supported_node, ← joinNode, allowed]
  simp only [List.forall_mem_cons, Option.mem_toList]
  constructor
  · rintro ⟨conditions, hleft, hright, -⟩
    exact ⟨hleft, hright, conditions⟩
  · rintro ⟨hleft, hright, conditions⟩
    exact ⟨conditions, hleft, hright, fun on hmem => (hon on hmem).supported⟩

/-- The references of both sides are joined to more than there were on the left. -/
theorem ofJoinParts_ne_nil {left right : SyntaxTree} (hleft : TablesDecided left)
    (hright : SourceDecided right) {chain more : TableChain}
    (hchain : tablesAt .join left = .ok chain) (hmore : tablesAt .join right = .ok more)
    (op : JoinOp) (on? : Option Expr) :
    ∃ joined, TableChain.ofJoinParts op (.tables chain :: .tables more ::
      on?.toList.map .condition) = .ok joined ∧ joined ≠ [] := by
  obtain ⟨t, rfl, bare⟩ := hright.single _ _ hmore
  refine ⟨_, TableChain.ofJoinParts_single (hleft.some_ _ _ hchain) bare op on?, ?_⟩
  exact List.append_ne_nil_of_right_ne_nil _ (List.cons_ne_nil _ _)

/-- What is blamed under a join is blamed in the join. -/
theorem blames_joinNode (left : SyntaxTree) (step : JoinStep) :
    (∀ e, Blames left e → Blames (joinNode left step) e) ∧
      (∀ e, Blames step.right e → Blames (joinNode left step) e) ∧
        ∀ e, (e.NamesElement ∨ ∃ on ∈ step.on?, on.tag = .conjunction ∧
          e = .unsupportedJoinCondition on.render) → Blames (joinNode left step) e := by
  refine ⟨fun e => .below (List.mem_cons_self ..), fun e => .below ?_, ?_⟩
  · exact List.mem_cons_of_mem _ (List.mem_cons_self ..)
  · rintro e (names | ⟨on, hmem, isAnd, rfl⟩)
    · exact .element names
    · refine .condition ?_ isAnd
      rw [joinNode, hmem]
      exact .here step.op left step.right

theorem tablesDecided_joinNode {left : SyntaxTree} {step : JoinStep} (hleft : TablesDecided left)
    (hstep : StepDecided step) : TablesDecided (joinNode left step) := by
  obtain ⟨hright, hon⟩ := hstep
  have hjoin := tablesAt_joinNode hleft.isTables hright.isTables hon
  refine ⟨rfl, fun place => ?_, fun place chain hchain => ?_⟩
  · obtain ⟨blamesLeft, blamesRight, blamesOn⟩ := blames_joinNode left step
    have hleft' := (hleft.decided .join).mono blamesLeft
    have hright' := (hright.decided .join).mono blamesRight
    have hon' := (decided_joinConditionOf? hon).mono blamesOn
    rw [hjoin]
    refine Decided.congr ?_ (supported_joinNode hon).symm
    refine hleft'.bind fun chain hchain => hright'.bind fun more hmore =>
      hon'.bind_ok fun on? _ => ?_
    obtain ⟨joined, hjoined, -⟩ := ofJoinParts_ne_nil hleft hright hchain hmore step.op on?
    exact ⟨joined, hjoined⟩
  · rw [hjoin] at hchain
    simp only [bind_eq_ok] at hchain
    obtain ⟨before, hbefore, more, hmore, on?, -, hchain⟩ := hchain
    obtain ⟨joined, hjoined, some_⟩ := ofJoinParts_ne_nil hleft hright hbefore hmore step.op on?
    rw [hjoined] at hchain
    cases hchain
    exact some_

theorem makes_element (h : Makes Q QueryDecided) : Makes (Element Q) TablesDecided := by
  refine makes_nested (fun ws tree d => (makes_source h ws tree d).tables) (makes_join h) ?_
  exact fun left step => tablesDecided_joinNode

/-! ### Queries and statements -/

theorem supported_fromClause {element : SyntaxTree} :
    (SyntaxTree.node .fromClause [element]).Supported ↔ element.Supported := by
  rw [SyntaxTree.supported_node, List.forall_mem_singleton]
  exact ⟨And.right, fun h => ⟨trivial, h⟩⟩

theorem supported_selectClause {items : List SyntaxTree} :
    (SyntaxTree.node .selectClause items).Supported ↔ ∀ item ∈ items, item.Supported := by
  rw [SyntaxTree.supported_node]
  exact ⟨And.right, fun h => ⟨trivial, h⟩⟩

theorem supported_whereClause {e : SyntaxTree} (h : e.IsExpression) :
    (SyntaxTree.node .whereClause [e]).Supported ↔ ∃ op, e.IsComparison op := by
  rw [SyntaxTree.supported_node, List.forall_mem_singleton]
  refine ⟨fun given => given.1 e (List.mem_singleton_self e), fun given => ⟨?_, h.supported⟩⟩
  exact List.forall_mem_singleton.2 given

theorem supported_groupByClause {es : List SyntaxTree} (h : ∀ e ∈ es, e.IsExpression) :
    (SyntaxTree.node .groupByClause es).Supported ↔ ∀ e ∈ es, e.IsColumn := by
  rw [SyntaxTree.supported_node]
  exact ⟨And.left, fun given => ⟨given, fun e hmem => (h e hmem).supported⟩⟩

/-- The clauses of a query are what may be refused in it. -/
theorem supported_queryNode {destination : SyntaxTree} {items : List SyntaxTree}
    {from? where? : Option SyntaxTree} {group? : Option (List SyntaxTree)}
    (hdestination : destination.Supported) (hwhere : ∀ e ∈ where?, e.IsExpression)
    (hgroup : ∀ es ∈ group?, ∀ e ∈ es, e.IsExpression) :
    (queryNode destination items from? where? group?).Supported ↔
      (∀ element ∈ from?, element.Supported) ∧ (∀ item ∈ items, item.Supported) ∧
        (∀ e ∈ where?, ∃ op, e.IsComparison op) ∧ ∀ e ∈ group?.getD [], e.IsColumn := by
  have htables : (∀ clause ∈ from?.toList.map fun element => SyntaxTree.node .fromClause [element],
      clause.Supported) ↔ ∀ element ∈ from?, element.Supported := by
    simp [supported_fromClause]
  have hcondition : (∀ clause ∈ where?.toList.map fun e => SyntaxTree.node .whereClause [e],
      clause.Supported) ↔ ∀ e ∈ where?, ∃ op, e.IsComparison op := by
    cases where? with
    | none => simp
    | some e => simp [supported_whereClause (hwhere e rfl)]
  have hgrouping : (∀ clause ∈ group?.toList.map (SyntaxTree.node .groupByClause),
      clause.Supported) ↔ ∀ e ∈ group?.getD [], e.IsColumn := by
    cases group? with
    | none => simp
    | some es => simp [supported_groupByClause (hgroup es rfl)]
  have hdestination' : (SyntaxTree.node .destination [destination]).Supported :=
    SyntaxTree.supported_node.2 ⟨trivial, List.forall_mem_singleton.2 hdestination⟩
  rw [queryNode, SyntaxTree.supported_node, List.forall_mem_append, htables,
    List.forall_mem_singleton, SyntaxTree.supported_node, List.forall_mem_append,
    List.forall_mem_append, hcondition, hgrouping, List.forall_mem_cons, List.forall_mem_singleton,
    supported_selectClause]
  constructor
  · rintro ⟨-, tables, -, ⟨⟨-, selected⟩, condition⟩, grouped⟩
    exact ⟨tables, selected, condition, grouped⟩
  · rintro ⟨tables, selected, condition, grouped⟩
    exact ⟨trivial, tables, trivial, ⟨⟨hdestination', selected⟩, condition⟩, grouped⟩

theorem decided_tablesOf? {from? : Option SyntaxTree} (h : ∀ element ∈ from?, TablesDecided element)
    {tree : SyntaxTree} (below : ∀ element ∈ from?, ∀ e, Blames element e → Blames tree e) :
    Decided (tablesOf? from?) (∀ element ∈ from?, element.Supported) (Blames tree) := by
  cases from? with
  | none => exact .ok _ nofun
  | some element =>
    refine (((h element rfl).decided .fromClause).mono (below element rfl)).congr ?_
    simp

theorem decided_conditionOf? {where? : Option SyntaxTree} (h : ∀ e ∈ where?, e.IsExpression) :
    Decided (conditionOf? where?) (∀ e ∈ where?, ∃ op, e.IsComparison op) NamesElement := by
  cases where? with
  | none => exact .ok _ nofun
  | some e =>
    refine ((Expr.decided_ofPredicateAt .whereClause (h e rfl)).map _).congr ?_
    simp

theorem makes_query (h : Makes Q QueryDecided) {destination : SyntaxTree}
    (hdestination : destination.Supported) : Makes (Query Q destination) QueryDecided := by
  intro ws tree d
  cases d with
  | @mk ws us vs xs items from? where? group? selected tables condition grouped =>
    have hwhere := makes_clause makes_expression _ _ condition
    have hgroup := makes_clause (makes_listed makes_expression) _ _ grouped
    have hgroup' : ∀ e ∈ group?.getD [], e.IsExpression := by
      cases group? with
      | none => exact nofun
      | some es => exact hgroup es rfl
    have below : ∀ element ∈ from?, ∀ e, Blames element e →
        Blames (queryNode destination items from? where? group?) e := by
      rintro element rfl e h
      have hclause : Blames (.node .fromClause [element]) e := h.below (List.mem_singleton_self _)
      exact hclause.below (by simp [queryNode, SyntaxTree.node, SyntaxTree.children])
    have element : ∀ e, NamesElement e →
        Blames (queryNode destination items from? where? group?) e := fun e => .element
    have htables := decided_tablesOf? (makes_clause (makes_element h) _ _ tables) below
    have hitems := (Decided.mapM (makes_listed makes_item _ _ selected)).mono element
    have hcondition := (decided_conditionOf? hwhere).mono element
    have hgrouping := (Decided.mapM fun e hmem => Expr.decided_ofGrouping (hgroup' e hmem)).mono
      element
    refine ⟨rfl, ?_⟩
    rw [Query.ofTree_queryNode]
    refine Decided.congr ?_ (supported_queryNode hdestination hwhere hgroup).symm
    exact htables.bind fun _ _ => hitems.bind fun _ _ => hcondition.bind fun _ _ =>
      hgrouping.bind_ok fun _ _ => ⟨_, rfl⟩

theorem supported_tempDestination : tempDestination.Supported :=
  SyntaxTree.supported_node.2 ⟨trivial, List.forall_mem_singleton.2 <|
    SyntaxTree.supported_node.2 ⟨trivial, nofun⟩⟩

theorem makes_subqueryTo (depth : Nat) : Makes (SubqueryTo depth) QueryDecided := by
  induction depth with
  | zero => exact nofun
  | succ depth ih => exact makes_query ih supported_tempDestination

theorem makes_subquery : Makes Subquery QueryDecided :=
  fun ws tree d => makes_subqueryTo ws.length ws tree d

end Nesting

/-- A query is selected, wherever its rows go. -/
theorem decided_ofTree_query {tree : SyntaxTree} (h : QueryDecided tree) :
    Decided (SqlGuard.Statement.ofTree tree) tree.Supported (Blames tree) := by
  have hquery : SqlGuard.Statement.ofTree tree = .select <$> Query.ofTree tree := by
    unfold SqlGuard.Statement.ofTree
    rw [h.isQuery]
  rw [hquery]
  exact h.decided.map _

theorem supported_flagIf (isThere : Bool) (tag : Tag) (text : String) :
    ∀ flag ∈ flagIf isThere tag text, flag.Supported := by
  cases isThere with
  | true => exact List.forall_mem_singleton.2 (SyntaxTree.supported_leaf tag text)
  | false => exact nofun

theorem supported_load {table : SyntaxTree} {flags : List SyntaxTree} (htable : table.Supported)
    (hflags : ∀ flag ∈ flags, flag.Supported) (file : String) :
    (SyntaxTree.node .load (.leaf .stringLiteral file :: .node .targetTable [table] ::
      flags)).Supported ↔ table.IsTableName := by
  have htarget : (SyntaxTree.node .targetTable [table]).Supported :=
    SyntaxTree.supported_node.2 ⟨trivial, List.forall_mem_singleton.2 htable⟩
  rw [SyntaxTree.supported_node, List.forall_mem_cons, List.forall_mem_cons]
  constructor
  · exact fun h => h.1 table (List.mem_singleton_self table)
  · intro h
    exact ⟨List.forall_mem_singleton.2 h, SyntaxTree.supported_leaf _ file, htarget, hflags⟩

/-- A `LOAD` is lowered as its table is. -/
theorem ofTree_load (isLocal overwrite : Bool) (file : String) (table : SyntaxTree) :
    SqlGuard.Statement.ofTree (.node .load
      ([.leaf .stringLiteral file, .node .targetTable [table]] ++
        flagIf isLocal .localFlag "LOCAL" ++ flagIf overwrite .overwriteFlag "OVERWRITE")) =
      (fun name => .load (withoutQuotes file) name true) <$> tableNameOfTree table := by
  have htag : ∀ parts, (SyntaxTree.node .load parts).tag = .load := fun _ => rfl
  have hparts : ∀ parts, (SyntaxTree.node .load parts).children = parts := fun _ => rfl
  have hpath : LoadPart.ofTree (.leaf .stringLiteral file) = .ok (.path (withoutQuotes file)) := rfl
  have htable : LoadPart.ofTree (.node .targetTable [table]) = .table <$> tableNameOfTree table :=
    rfl
  have hflags : (flagIf isLocal .localFlag "LOCAL" ++
      flagIf overwrite .overwriteFlag "OVERWRITE").mapM LoadPart.ofTree =
        .ok ((flagIf isLocal .localFlag "LOCAL" ++
          flagIf overwrite .overwriteFlag "OVERWRITE").map fun _ => .flag) := by
    cases isLocal <;> cases overwrite <;> rfl
  simp only [SqlGuard.Statement.ofTree, Statement.loadOfTree, htag, hparts, if_true,
    List.cons_append, List.nil_append, List.mapM_cons, hpath, htable, hflags]
  cases tableNameOfTree table with
  | error e => rfl
  | ok name => cases isLocal <;> cases overwrite <;> rfl

/-- A statement is lowered exactly where it is supported, and otherwise something in it is
    blamed. -/
theorem makes_plain : Makes Plain fun tree =>
    Decided (SqlGuard.Statement.ofTree tree) tree.Supported (Blames tree) := by
  intro ws tree d
  cases d with
  | select query =>
    exact decided_ofTree_query (makes_query makes_subquery supported_tempDestination _ _ query)
  | insert target query =>
    refine decided_ofTree_query (makes_query makes_subquery ?_ _ _ query)
    exact SyntaxTree.supported_node.2 ⟨trivial, List.forall_mem_singleton.2 <|
      SyntaxTree.supported_tableName target⟩
  | load isLocal overwrite file target =>
    have hflags : ∀ flag ∈ flagIf isLocal .localFlag "LOCAL" ++
        flagIf overwrite .overwriteFlag "OVERWRITE", flag.Supported :=
      List.forall_mem_append.2 ⟨supported_flagIf _ _ _, supported_flagIf _ _ _⟩
    rw [ofTree_load]
    refine (((decided_tableNameOfTree target).map _).congr ?_).mono fun e => .element
    exact (supported_load (SyntaxTree.supported_tableName target) hflags file).symm

end Derivation

end SqlGuard
