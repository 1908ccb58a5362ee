import SqlGuard.Grammar.Statement
import SqlGuard.Proofs.Grammar.ParsedExpr

/-!
# What queries are read as

The trees that the grammar makes of queries, with the names and literals in them, as for
expressions. Main statement: `keeps_wholeStatement`.
-/

namespace SqlGuard

namespace Grammar

open Reader

/-- The token of a name. -/
def IsName (name : String) (ws : List Token) : Prop := ws = [.ident name]

/-- The tree of an item of a selection list, with its names and literals. -/
inductive ItemTree : SyntaxTree → List Token → Prop
  | allColumns : ItemTree allColumnsNode []
  | expr {tree : SyntaxTree} {name? : Option String} {ws us : List Token} (htree : ExprTree tree ws)
      (hname : KeptOption IsName name? us) :
      ItemTree (.node .selectItem (tree :: aliasLeaves name?)) (ws ++ us)

variable {Q : SyntaxTree → List Token → Prop}

/-- The tree of a source with its alias, over the trees of nested queries. A table behind the name
    of its database may have any tokens. -/
inductive SourceTree (Q : SyntaxTree → List Token → Prop) : SyntaxTree → List Token → Prop
  | table (name : String) {name? : Option String} {us : List Token}
      (hname : KeptOption IsName name? us) :
      SourceTree Q (.node .tableRef (.node .tableName [nameLeaf name] :: aliasLeaves name?))
        (.ident name :: us)
  | qualified (database name : String) (name? : Option String) (ws : List Token) :
      SourceTree Q (.node .tableRef (.node .tableName [nameLeaf database, nameLeaf name] ::
        aliasLeaves name?)) ws
  | subquery {tree : SyntaxTree} {name? : Option String} {ws us : List Token} (htree : Q tree ws)
      (hname : KeptOption IsName name? us) :
      SourceTree Q (.node .subquery (tree :: aliasLeaves name?)) (ws ++ us)

/-- What stands behind the left side of a join. -/
inductive StepTree (Q : SyntaxTree → List Token → Prop) : JoinStep → List Token → Prop
  | step (op : JoinOp) {right : SyntaxTree} {on? : Option SyntaxTree} {ws us : List Token}
      (hright : SourceTree Q right ws) (hon : KeptOption ExprTree on? us) :
      StepTree Q ⟨op, right, on?⟩ (ws ++ us)

/-- The tree of the element of a FROM clause. -/
inductive ElementTree (Q : SyntaxTree → List Token → Prop) : SyntaxTree → List Token → Prop
  | joins {first : SyntaxTree} {steps : List JoinStep} {ws us : List Token}
      (hfirst : SourceTree Q first ws) (hsteps : KeptList (StepTree Q) steps us) :
      ElementTree Q (joinTree first steps) (ws ++ us)

/-- The tree of a query over the trees of the queries nested in it. -/
inductive QueryOver (Q : SyntaxTree → List Token → Prop) : SyntaxTree → List Token → Prop
  | clauses (destination : SyntaxTree) {items : List SyntaxTree} {from? where? : Option SyntaxTree}
      {group? : Option (List SyntaxTree)} {ws us vs xs : List Token} (selects : items ≠ [])
      (hitems : KeptList ItemTree items ws) (hfrom : KeptOption (ElementTree Q) from? us)
      (hwhere : KeptOption ExprTree where? vs)
      (hgroup : KeptOption (KeptList ExprTree) group? xs) :
      QueryOver Q (queryNode destination items from? where? group?) (ws ++ (us ++ (vs ++ xs)))

/-- The tree of a query in which queries nest less than `depth` deep. -/
def QueryTree : Nat → SyntaxTree → List Token → Prop
  | 0, _, _ => False
  | depth + 1, tree, ws => QueryOver (QueryTree depth) tree ws

theorem keeps_alias? : Keeps alias? (KeptOption IsName) := by
  refine Keeps.onNext ?_ (keeps_pure rfl)
  intro t r hr
  split at hr
  · cases hr
    exact .inr (keeps_identifier.map fun name ws hws => hws)
  · cases hr
    exact .inl (keeps_pure rfl)
  · cases hr

theorem keeps_selectItem : Keeps selectItem ItemTree := by
  apply Keeps.onNext
  · intro t r hr
    split at hr
    · cases hr
      exact .inr (keeps_pure .allColumns)
    · cases hr
  · refine keeps_expression.bind fun tree ws htree => keeps_alias?.bind fun name? us hname =>
      keeps_pure ?_
    rw [List.append_nil]
    exact .expr htree hname

/-! ### FROM clauses -/

/-- A name of a table has one part, or it is one that no reference is made of. -/
theorem keeps_tableName : Keeps tableName fun tree ws =>
    (∃ name, tree = .node .tableName [nameLeaf name] ∧ ws = [.ident name]) ∨
      ∃ database name, tree = .node .tableName [nameLeaf database, nameLeaf name] := by
  refine keeps_identifier.bind fun first ws hws => (keeps_identifier.after?).bind
    fun second? us hus => keeps_pure ?_
  rw [List.append_nil]
  cases second? with
  | none =>
    rw [hus, List.append_nil]
    exact .inl ⟨first, rfl, hws⟩
  | some second => exact .inr ⟨first, second, rfl⟩

variable {subquery : TokenReader SyntaxTree}

theorem keeps_source (h : Keeps subquery Q) : Keeps (source subquery) (SourceTree Q) := by
  apply Keeps.onNext
  · intro t r hr
    split at hr
    · cases hr
      refine .inr (h.bind fun tree ws htree => keeps_expect.bind fun _ us hus =>
        keeps_alias?.bind fun name? vs hname => keeps_pure ?_)
      rw [List.append_nil, hus, List.nil_append]
      exact .subquery htree hname
    · cases hr
  · refine keeps_tableName.bind fun tree ws htree => keeps_alias?.bind fun name? us hname =>
      keeps_pure ?_
    rw [List.append_nil]
    rcases htree with ⟨name, rfl, rfl⟩ | ⟨database, name, rfl⟩
    · exact .table name hname
    · exact .qualified database name name? _

theorem keeps_joinStep (h : Keeps subquery Q) (words : TokenReader JoinOp) :
    Keeps (joinStep subquery words) (StepTree Q) := by
  refine (keeps_any words).bind fun op ws hws => (keeps_source h).bind fun right us hright =>
    keeps_expression.after?.bind fun on? vs hon => keeps_pure ?_
  rw [List.append_nil, hws, List.nil_append]
  exact .step op hright hon

theorem keeps_fromElement (h : Keeps subquery Q) :
    Keeps (fromElement subquery) (ElementTree Q) := by
  refine (keeps_source h).bind fun first ws hfirst =>
    (Keeps.chain fun _ words _ => keeps_joinStep h words).bind fun steps us hsteps => keeps_pure ?_
  rw [List.append_nil]
  exact .joins hfirst hsteps

/-! ### Queries and statements -/

theorem keeps_group : Keeps (do expect (.keyword .BY); commaSeparated expression)
    (KeptList ExprTree) := by
  refine keeps_expect.bind fun _ ws hws => keeps_expression.separatedBy.mono ?_
  intro exprs us hexprs
  rw [hws]
  exact hexprs.2

theorem keeps_queryOver (h : Keeps subquery Q) (destination : SyntaxTree) :
    Keeps (queryOver subquery destination) (QueryOver Q) := by
  refine keeps_selectItem.separatedBy.bind fun items ws hitems =>
    (keeps_fromElement h).after?.bind fun from? us hfrom =>
    keeps_expression.after?.bind fun where? vs hwhere =>
    keeps_group.after?.bind fun group? xs hgroup => keeps_pure ?_
  rw [List.append_nil]
  exact .clauses destination hitems.1 hitems.2 hfrom hwhere hgroup

theorem keeps_queryTo (destination : SyntaxTree) (depth : Nat) :
    Keeps (queryTo destination depth) (QueryTree depth) := by
  induction depth generalizing destination with
  | zero => exact keeps_refuse
  | succ depth ih =>
    refine keeps_expect.bind fun _ ws hws => ?_
    rw [hws]
    exact keeps_queryOver (keeps_look fun _ => ih tempDestination) destination

theorem keeps_query (destination : SyntaxTree) :
    Keeps (query destination) fun tree ws => ∃ depth, QueryTree depth tree ws :=
  keeps_look fun ts => (keeps_queryTo destination ts.length).mono fun _ _ h => ⟨ts.length, h⟩

theorem keeps_insert : Keeps insert fun tree ws => ∃ depth, QueryTree depth tree ws := by
  refine keeps_expect.bind fun _ ws hws => keeps_expect.bind fun _ us hus =>
    (keeps_any tableName).bind fun table vs hvs => ?_
  rw [hws, hus, hvs]
  exact keeps_query _

/-- No `LOAD` is read as a query. -/
theorem keeps_load : Keeps load fun tree _ => tree.tag ≠ .query := by
  refine (keeps_any _).bind fun _ _ _ => (keeps_any _).bind fun isLocal _ _ =>
    (keeps_any _).bind fun _ _ _ => (keeps_any _).bind fun file _ _ =>
    (keeps_any _).bind fun overwrite _ _ => (keeps_any _).bind fun _ _ _ =>
    (keeps_any _).bind fun _ _ _ => (keeps_any _).bind fun table _ _ => keeps_pure ?_
  exact Tag.noConfusion

/-- Where a statement is read as a query, it is the tree of one. -/
theorem keeps_statement : Keeps statement fun tree ws =>
    tree.tag = .query → ∃ depth, QueryTree depth tree ws := by
  refine keeps_look fun ts => ?_
  split
  · exact (keeps_query _).mono fun _ _ htree _ => htree
  · refine keeps_expect.bind fun _ ws hws => ?_
    rw [hws]
    exact keeps_insert.mono fun _ _ htree _ => htree
  · refine keeps_expect.bind fun _ ws hws => ?_
    rw [hws]
    exact keeps_load.mono fun _ _ hload hquery => absurd hquery hload
  · exact keeps_refuse

theorem keeps_wholeStatement : Keeps wholeStatement fun tree ws =>
    tree.tag = .query → ∃ depth, QueryTree depth tree ws := by
  refine keeps_statement.bind fun tree ws htree => keeps_accept.bind fun _ us hus =>
    (keeps_any atEnd).bind fun _ vs hvs => keeps_pure ?_
  rw [hus, hvs]
  simpa only [List.append_nil] using htree

end Grammar

theorem SyntaxTree.ofText_eq_bind (sql : String) :
    ofText sql = (do
      let ts ← (Token.ofText sql).mapError ParseError.scan
      (ofTokens ts).mapError ParseError.grammar) := by
  unfold ofText
  cases Token.ofText sql with
  | error e => rfl
  | ok ts =>
    show _ = (ofTokens ts).mapError ParseError.grammar
    dsimp only
    cases ofTokens ts <;> rfl

/-- A text is parsed by scanning it and reading its tokens. -/
theorem SyntaxTree.exists_run_of_ofText {sql : String} {tree : SyntaxTree}
    (h : SyntaxTree.ofText sql = .ok tree) :
    ∃ ts rest, Token.ofText sql = .ok ts ∧ Grammar.wholeStatement.run ts = .ok (tree, rest) := by
  unfold SyntaxTree.ofText at h
  cases hscan : Token.ofText sql with
  | error e => simp [hscan] at h
  | ok ts =>
    unfold SyntaxTree.ofTokens at h
    cases hrun : Grammar.wholeStatement.run ts with
    | error e => simp [hscan, hrun, Except.map] at h
    | ok p =>
      obtain ⟨tree', rest⟩ := p
      simp only [hscan, hrun, Except.map] at h
      cases h
      exact ⟨ts, rest, rfl, hrun⟩

end SqlGuard
