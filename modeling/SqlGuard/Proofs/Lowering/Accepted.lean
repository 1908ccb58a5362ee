import Mathlib
import SqlGuard.Proofs.Grammar.Acceptance
import SqlGuard.Proofs.Lowering.DecidedQuery
import SqlGuard.Proofs.Token.Scanned

/-!
# What lowering accepts

Of the texts that are parsed, those with a supported tree have a statement; none of them holds `AND`
or `OR`. Main statement: `Statement.ofTree_eq_ok_iff_supported`.
-/

namespace SqlGuard

open Grammar LoweringError

/-! ### Conjunctions and disjunctions -/

namespace SyntaxTree

/-- The tree has a node for `AND` or for `OR`. -/
def HasLogic (tree : SyntaxTree) : Prop := tree.Has .conjunction ∨ tree.Has .disjunction

theorem has_node {t tag : Tag} {children : List SyntaxTree} :
    (node t children).Has tag ↔ t = tag ∨ ∃ child ∈ children, child.Has tag := by
  constructor
  · intro h
    cases h with
    | root isTag => exact .inl isTag
    | child below inside => exact .inr ⟨_, below, inside⟩
  · rintro (rfl | ⟨child, below, inside⟩)
    · exact .root rfl
    · exact .child below inside

theorem has_leaf {t tag : Tag} {text : String} : (leaf t text).Has tag ↔ t = tag := by
  constructor
  · intro h
    cases h with
    | root isTag => exact isTag
    | child below inside => cases below
  · rintro rfl
    exact .root rfl

@[simp]
theorem hasLogic_node {tag : Tag} {children : List SyntaxTree} :
    (node tag children).HasLogic ↔
      (tag = .conjunction ∨ tag = .disjunction) ∨ ∃ child ∈ children, child.HasLogic := by
  simp only [HasLogic, has_node]
  grind

@[simp]
theorem hasLogic_leaf {tag : Tag} {text : String} :
    (leaf tag text).HasLogic ↔ tag = .conjunction ∨ tag = .disjunction := by
  simp only [HasLogic, has_leaf]

theorem IsOperand.not_hasLogic {e : SyntaxTree} (h : e.IsOperand) : ¬ e.HasLogic := by
  induction h with
  | @number kind isNumber text =>
    rw [hasLogic_leaf]
    rintro (rfl | rfl) <;> exact absurd isNumber (by decide)
  | arith op hleft hright ihl ihr => simp [ihl, ihr]
  | _ => simp [columnNode, qualifiedNode, starCallNode, nameLeaf]

theorem IsComparison.not_hasLogic {op : CompareOp} {e : SyntaxTree} (h : e.IsComparison op) :
    ¬ e.HasLogic := by
  cases h with
  | mk hleft hright => simp [hleft.not_hasLogic, hright.not_hasLogic]

theorem IsColumn.not_hasLogic {e : SyntaxTree} (h : e.IsColumn) : ¬ e.HasLogic := by
  cases h <;> simp [columnNode, qualifiedNode, nameLeaf]

theorem not_hasLogic_of_mem_aliasLeaves {name? : Option String} :
    ∀ name ∈ aliasLeaves name?, ¬ name.HasLogic := by
  intro name hmem
  obtain ⟨text, -, rfl⟩ := List.mem_map.1 hmem
  simp [nameLeaf]

/-- If the tree is supported, it has no node for `AND` and none for `OR`. -/
def Excludes (tree : SyntaxTree) : Prop := tree.Supported → ¬ tree.HasLogic

end SyntaxTree

namespace Derivation

theorem not_hasLogic_tableName :
    Makes TableName fun table => ¬ table.HasLogic := by
  intro ws table d
  cases d <;> simp [nameLeaf]

theorem excludes_item : Makes Item SyntaxTree.Excludes := by
  intro ws item d supported
  cases d with
  | allColumns => simp [allColumnsNode]
  | expr expr named =>
    have operand : SyntaxTree.IsOperand _ := (SyntaxTree.supported_node.1 supported).1
    simpa [operand.not_hasLogic] using SyntaxTree.not_hasLogic_of_mem_aliasLeaves

section Nesting

variable {Q : Language SyntaxTree}

theorem excludes_source (h : Makes Q SyntaxTree.Excludes) :
    Makes (Source Q) SyntaxTree.Excludes := by
  intro ws tree d supported
  cases d with
  | table name named =>
    simpa [not_hasLogic_tableName _ _ name] using SyntaxTree.not_hasLogic_of_mem_aliasLeaves
  | subquery query named =>
    have hquery := (SyntaxTree.supported_node.1 supported).2 _ List.mem_cons_self
    simpa [h _ _ query hquery] using SyntaxTree.not_hasLogic_of_mem_aliasLeaves

theorem excludes_element (h : Makes Q SyntaxTree.Excludes) :
    Makes (Element Q) SyntaxTree.Excludes := by
  have hstep : Makes (Join Q) fun step =>
      step.right.Excludes ∧ ∀ on ∈ step.on?, on.IsExpression := by
    intro ws step d
    cases d with
    | mk spelled source condition =>
      exact ⟨excludes_source h _ _ source, makes_clause makes_expression _ _ condition⟩
  refine makes_nested (excludes_source h) hstep fun left step hleft given supported => ?_
  obtain ⟨hright, hon⟩ := given
  obtain ⟨left', right', conditions⟩ := (supported_joinNode hon).1 supported
  have hconditions : ∀ on ∈ step.on?, ¬ on.HasLogic :=
    fun on hmem => (conditions on hmem).not_hasLogic
  simpa [joinNode, hleft left', hright right'] using hconditions

theorem excludes_query (h : Makes Q SyntaxTree.Excludes) {destination : SyntaxTree}
    (hdestination : destination.Supported) (plain : ¬ destination.HasLogic) :
    Makes (Query Q destination) SyntaxTree.Excludes := by
  intro ws tree d supported
  cases d with
  | @mk ws us vs xs items from? where? group? selected tables condition grouped =>
    have hwhere := makes_clause makes_expression _ _ condition
    have hgroup := makes_clause (makes_listed makes_expression) _ _ grouped
    obtain ⟨htables, hitems, hcondition, hgrouping⟩ :=
      (supported_queryNode hdestination hwhere hgroup).1 supported
    have tables' : ∀ element ∈ from?, ¬ element.HasLogic := fun element hmem =>
      makes_clause (excludes_element h) _ _ tables element hmem (htables element hmem)
    have items' : ∀ item ∈ items, ¬ item.HasLogic := fun item hmem =>
      makes_listed excludes_item _ _ selected item hmem (hitems item hmem)
    have clauses' : ∀ clause ∈ where?.toList.map (fun e => SyntaxTree.node .whereClause [e]) ++
        group?.toList.map (.node .groupByClause), ¬ clause.HasLogic := by
      intro clause hmem
      rw [List.mem_append, List.mem_map, List.mem_map] at hmem
      rcases hmem with ⟨e, hmem, rfl⟩ | ⟨es, hmem, rfl⟩
      · obtain ⟨op, comparison⟩ := hcondition e (Option.mem_toList.1 hmem)
        simp [comparison.not_hasLogic]
      · cases Option.mem_toList.1 hmem
        simpa using fun e hmem => (hgrouping e hmem).not_hasLogic
    simpa [queryNode, plain] using ⟨tables', items', by simpa using clauses'⟩

theorem excludes_subqueryTo (depth : Nat) : Makes (SubqueryTo depth) SyntaxTree.Excludes := by
  induction depth with
  | zero => exact nofun
  | succ depth ih =>
    exact excludes_query ih supported_tempDestination (by simp [tempDestination])

end Nesting

theorem excludes_plain : Makes Plain SyntaxTree.Excludes := by
  have hsubquery : Makes Subquery SyntaxTree.Excludes :=
    fun ws tree d => excludes_subqueryTo ws.length ws tree d
  intro ws tree d
  cases d with
  | select query =>
    exact excludes_query hsubquery supported_tempDestination (by simp [tempDestination]) _ _ query
  | insert target query =>
    refine excludes_query hsubquery ?_ ?_ _ _ query
    · exact SyntaxTree.supported_node.2 ⟨trivial, List.forall_mem_singleton.2 <|
        SyntaxTree.supported_tableName target⟩
    · simp [not_hasLogic_tableName _ _ target]
  | load isLocal overwrite file target =>
    have hflags : ∀ flag ∈ flagIf isLocal .localFlag "LOCAL" ++
        flagIf overwrite .overwriteFlag "OVERWRITE", ¬ flag.HasLogic := by
      cases isLocal <;> cases overwrite <;> simp [flagIf]
    intro supported
    simpa [not_hasLogic_tableName _ _ target] using hflags

/-! ### Texts -/

theorem exists_statement_of_ofText {sql : String} {tree : SyntaxTree}
    (h : SyntaxTree.ofText sql = .ok tree) :
    ∃ ts, Token.ofText sql = .ok (ts ++ [.eof]) ∧ Derives Statement tree ts := by
  obtain ⟨ts, rest, hscan, hrun⟩ := SyntaxTree.exists_run_of_ofText h
  obtain ⟨us, rfl, noEnd⟩ := Token.scan_ends hscan
  obtain ⟨ws, ⟨d⟩, hts, hhead⟩ := statement_of_run hrun
  obtain rfl := eq_of_append_end hts noEnd (noEnd_of_statement d) hhead
  exact ⟨ws, hscan, ⟨d⟩⟩

/-- A statement is one without its semicolon. -/
theorem plain_of_statement {ws : List Token} {tree : SyntaxTree} (d : Statement ws tree) :
    ∃ us, Derives Plain tree us ∧ ∀ k, .keyword k ∈ ws → .keyword k ∈ us := by
  cases d with
  | bare plain => exact ⟨_, ⟨plain⟩, fun _ => id⟩
  | terminated plain => exact ⟨_, ⟨plain⟩, by simp⟩

end Derivation

/-- A text that is parsed has a statement if and only if its tree is supported. No text has one in
    which `AND` or `OR` stands outside strings and quoted names. Where there is none, a place
    refuses an element, or an ON clause is refused as it is a conjunction. -/
theorem Statement.ofTree_eq_ok_iff_supported {sql : String} {tree : SyntaxTree}
    (h : SyntaxTree.ofText sql = .ok tree) :
    ((∃ s, Statement.ofTree tree = .ok s) ↔ tree.Supported) ∧
      (∀ ts, Token.ofText sql = .ok ts → .keyword .AND ∈ ts ∨ .keyword .OR ∈ ts →
        ∀ s, Statement.ofTree tree ≠ .ok s) ∧
      ∀ e, Statement.ofTree tree = .error e → e.Blames tree := by
  obtain ⟨ts, hscan, ⟨d⟩⟩ := Derivation.exists_statement_of_ofText h
  obtain ⟨ws, ⟨plain⟩, hkeywords⟩ := Derivation.plain_of_statement d
  have decided := Derivation.makes_plain ws tree plain
  refine ⟨decided.ok_iff, ?_, decided.refusal⟩
  intro ts' hscan' hlogic s hs
  cases hscan.symm.trans hscan'
  have hleaves := Derivation.leave_plain ws tree plain
  have hasLogic : tree.HasLogic := by
    rcases hlogic with hmem | hmem
    · have hmem' : .keyword .AND ∈ ws := hkeywords _ (by simpa using hmem)
      obtain ⟨_, hin, has⟩ := (hleaves _ hmem').conjunction rfl
      cases List.mem_singleton.1 hin
      exact .inl has
    · have hmem' : .keyword .OR ∈ ws := hkeywords _ (by simpa using hmem)
      obtain ⟨_, hin, has⟩ := (hleaves _ hmem').disjunction rfl
      cases List.mem_singleton.1 hin
      exact .inr has
  exact Derivation.excludes_plain ws tree plain (decided.ok_iff.1 ⟨s, hs⟩) hasLogic

set_option maxRecDepth 2000 in
/-- An `INSERT` into a table of another database, from a nested query that counts rows. -/
theorem Statement.ofTree_supported_insert :
    let sql := "INSERT OVERWRITE TABLE d.t SELECT n FROM (SELECT f(*) n FROM t) v WHERE n > 1"
    let target : SyntaxTree := .node .targetTable [.node .tableName [nameLeaf "d", nameLeaf "t"]]
    let table : SyntaxTree := .node .tableRef [.node .tableName [nameLeaf "t"]]
    let item : SyntaxTree := .node .selectItem [starCallNode "f", nameLeaf "n"]
    let view := queryNode tempDestination [item] (some table) none none
    let condition : SyntaxTree := .node (.compare .gt) [columnNode "n", numberLiteral "1"]
    let tree := queryNode target [.node .selectItem [columnNode "n"]]
      (some (.node .subquery [view, nameLeaf "v"])) (some condition) none
    SyntaxTree.ofText sql = .ok tree ∧ tree.Supported := by
  intro sql target table item view condition tree
  have parsed : SyntaxTree.ofText sql = .ok tree := by cbv
  let n : Expr := .field (.unresolved "" "n")
  let inner : Query := {
    items := [⟨.starCall "f", some "n"⟩]
    tables := [⟨.table "t", none, none⟩] }
  let query : Query := {
    items := [⟨n, none⟩]
    where? := some (.compare .gt n (.literal .int "1"))
    tables := [⟨.view inner, some "v", none⟩] }
  have lowered : Statement.ofTree tree = .ok (.select query) := by cbv
  exact ⟨parsed, (Statement.ofTree_eq_ok_iff_supported parsed).1.1 ⟨_, lowered⟩⟩

end SqlGuard
