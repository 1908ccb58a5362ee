import SqlGuard.Proofs.Lowering.Accepted
import SqlGuard.Proofs.Messages.Lines

/-!
# Trees on one line

The tree of a text without line breaks has none: its texts are those of tokens, and the names of
rules. So it is written on one line. Main statements: `SyntaxTree.isLine_ofText` and
`SyntaxTree.IsLine.render`.
-/

namespace SqlGuard

open Grammar

namespace SyntaxTree

/-- No node of the tree has a line break in its text or in the name of its kind. -/
inductive IsLine : SyntaxTree → Prop
  | mk {tag : Tag} {text : String} {children : List SyntaxTree} (kind : Text.IsLine tag.name)
      (line : Text.IsLine text) (each : ∀ child ∈ children, child.IsLine) :
      IsLine (.mk tag text children)

namespace IsLine

variable {tree : SyntaxTree}

theorem kind (h : tree.IsLine) : Text.IsLine tree.tag.name := by
  cases h with
  | mk kind line each => exact kind

theorem text (h : tree.IsLine) : Text.IsLine tree.text := by
  cases h with
  | mk kind line each => exact line

theorem each (h : tree.IsLine) : ∀ child ∈ tree.children, child.IsLine := by
  cases h with
  | mk kind line each => exact each

theorem firstChildText? (h : tree.IsLine) : ∀ text ∈ tree.firstChildText?, Text.IsLine text := by
  intro text hmem
  obtain ⟨child, hchild, rfl⟩ := Option.map_eq_some_iff.1 hmem
  exact (h.each child (List.mem_of_head? hchild)).text

theorem node {tag : Tag} {children : List SyntaxTree} (kind : Text.IsLine tag.name)
    (each : ∀ child ∈ children, child.IsLine) : (SyntaxTree.node tag children).IsLine :=
  .mk kind kind each

theorem single {tag : Tag} {child : SyntaxTree} (kind : Text.IsLine tag.name)
    (h : child.IsLine) : (SyntaxTree.node tag [child]).IsLine :=
  node kind (List.forall_mem_singleton.2 h)

theorem pair {tag : Tag} {left right : SyntaxTree} (kind : Text.IsLine tag.name)
    (hleft : left.IsLine) (hright : right.IsLine) : (SyntaxTree.node tag [left, right]).IsLine :=
  node kind (List.forall_mem_cons.2 ⟨hleft, List.forall_mem_singleton.2 hright⟩)

theorem leaf {tag : Tag} {text : String} (kind : Text.IsLine tag.name)
    (line : Text.IsLine text) : (SyntaxTree.leaf tag text).IsLine :=
  .mk kind line (List.forall_mem_nil _)

end IsLine

mutual

/-- A tree without line breaks is written on one line. -/
theorem IsLine.render : ∀ {tree : SyntaxTree}, tree.IsLine → Text.IsLine tree.render
  | .mk _ _ [], .mk _ line _ => by
    rw [SyntaxTree.render]
    exact line
  | .mk _ _ (_ :: _), .mk _ line each => by
    rw [SyntaxTree.render]
    exact (((Text.IsLine.append (by decide) line).append (isLine_renderBlanks each)).append
      (by decide))

theorem isLine_renderBlanks : ∀ {trees : List SyntaxTree}, (∀ tree ∈ trees, tree.IsLine) →
    Text.IsLine (renderBlanks trees)
  | [], _ => by
    rw [renderBlanks]
    decide
  | _ :: _, each => by
    rw [List.forall_mem_cons] at each
    rw [renderBlanks]
    exact (Text.IsLine.append (by decide) each.1.render).append (isLine_renderBlanks each.2)

end

end SyntaxTree

/-! ### Nodes of the grammar -/

namespace Grammar

theorem isLine_nameLeaf {name : String} (line : Text.IsLine name) : (nameLeaf name).IsLine :=
  .leaf (by decide) line

theorem isLine_columnNode {name : String} (line : Text.IsLine name) : (columnNode name).IsLine :=
  .single (by decide) (isLine_nameLeaf line)

theorem isLine_numberLiteral {text : String} (line : Text.IsLine text) :
    (numberLiteral text).IsLine := by
  unfold numberLiteral
  split <;> exact .leaf (by decide) line

theorem isLine_callNode {name : String} (line : Text.IsLine name) {arguments : List SyntaxTree}
    (each : ∀ e ∈ arguments, e.IsLine) : (callNode name arguments).IsLine :=
  .node (by decide) (List.forall_mem_cons.2 ⟨isLine_nameLeaf line, each⟩)

theorem isLine_aliasLeaves {name? : Option String} (line : ∀ name ∈ name?, Text.IsLine name) :
    ∀ leaf ∈ aliasLeaves name?, leaf.IsLine := by
  intro leaf hmem
  obtain ⟨name, hname, rfl⟩ := List.mem_map.1 hmem
  exact isLine_nameLeaf (line name (Option.mem_toList.1 hname))

theorem isLine_tempDestination : tempDestination.IsLine :=
  .single (by decide) (.node (by decide) (List.forall_mem_nil _))

theorem isLine_queryNode {destination : SyntaxTree} {items : List SyntaxTree}
    {from? where? : Option SyntaxTree} {group? : Option (List SyntaxTree)}
    (target : destination.IsLine) (selected : ∀ item ∈ items, item.IsLine)
    (tables : ∀ element ∈ from?, element.IsLine) (condition : ∀ e ∈ where?, e.IsLine)
    (grouped : ∀ es ∈ group?, ∀ e ∈ es, e.IsLine) :
    (queryNode destination items from? where? group?).IsLine := by
  have hwhere : ∀ clause ∈ where?.toList.map fun e => SyntaxTree.node .whereClause [e],
      clause.IsLine := by
    intro clause hmem
    obtain ⟨e, he, rfl⟩ := List.mem_map.1 hmem
    exact .single (by decide) (condition e (Option.mem_toList.1 he))
  have hgroup : ∀ clause ∈ group?.toList.map (SyntaxTree.node .groupByClause), clause.IsLine := by
    intro clause hmem
    obtain ⟨es, hes, rfl⟩ := List.mem_map.1 hmem
    exact .node (by decide) (grouped es (Option.mem_toList.1 hes))
  have hfrom : ∀ clause ∈ from?.toList.map fun element => SyntaxTree.node .fromClause [element],
      clause.IsLine := by
    intro clause hmem
    obtain ⟨element, helement, rfl⟩ := List.mem_map.1 hmem
    exact .single (by decide) (tables element (Option.mem_toList.1 helement))
  have hdestination : (SyntaxTree.node .destination [destination]).IsLine :=
    .single (by decide) target
  have hselect : (SyntaxTree.node .selectClause items).IsLine := .node (by decide) selected
  refine .node (by decide) (List.forall_mem_append.2 ⟨hfrom, List.forall_mem_singleton.2 ?_⟩)
  refine .node (by decide) (List.forall_mem_append.2 ⟨?_, hgroup⟩)
  refine List.forall_mem_append.2 ⟨?_, hwhere⟩
  exact List.forall_mem_cons.2 ⟨hdestination, List.forall_mem_singleton.2 hselect⟩

end Grammar

/-! ### Derivations -/

namespace Derivation

variable {α : Type}

/-- Whatever is derived from tokens without line breaks has the property. -/
def MakesOnLine (L : Language α) (P : α → Prop) : Prop :=
  ∀ ws a, L ws a → (∀ t ∈ ws, t.IsLine) → P a

section Parts

variable {L : Language α} {P : α → Prop}

theorem onLine_clause {words : List Token} (h : MakesOnLine L P) :
    MakesOnLine (Clause words L) fun a? => ∀ a ∈ a?, P a := by
  intro ws a? d line a ha
  cases d with
  | absent => cases ha
  | present part =>
    cases ha
    exact h _ _ part (List.forall_mem_append.1 line).2

theorem onLine_listed (h : MakesOnLine L P) : MakesOnLine (Listed L) fun as => ∀ a ∈ as, P a := by
  intro ws as d line
  induction d with
  | last item => exact List.forall_mem_singleton.2 (h _ _ item line)
  | more item items ih =>
    rw [List.forall_mem_append, List.forall_mem_cons] at line
    exact List.forall_mem_cons.2 ⟨h _ _ item line.1, ih line.2.2⟩

theorem onLine_alias : MakesOnLine Alias fun name? => ∀ name ∈ name?, Text.IsLine name := by
  intro ws name? d line name hname
  cases d with
  | absent => cases hname
  | bare | word =>
    cases hname
    exact line (.ident name) (by simp)

/-- Steps keep what holds of the first tree. -/
theorem onLine_nested {nest : SyntaxTree → α → SyntaxTree} {First : Language SyntaxTree}
    {Step : Language α} (hfirst : MakesOnLine First SyntaxTree.IsLine) (hstep : MakesOnLine Step P)
    (keeps : ∀ left a, left.IsLine → P a → (nest left a).IsLine) :
    MakesOnLine (Nested nest First Step) SyntaxTree.IsLine := by
  have hsteps : ∀ {left tree : SyntaxTree} {ws : List Token}, Steps nest Step left ws tree →
      (∀ t ∈ ws, t.IsLine) → left.IsLine → tree.IsLine := by
    intro left tree ws d
    induction d with
    | done left => exact fun _ => id
    | step first more ih =>
      intro line hleft
      rw [List.forall_mem_append] at line
      exact ih line.2 (keeps _ _ hleft (hstep _ _ first line.1))
  intro ws tree d line
  cases d with
  | mk first steps =>
    rw [List.forall_mem_append] at line
    exact hsteps steps line.2 (hfirst _ _ first line.1)

end Parts

/-! ### Expressions -/

section Expressions

variable {E O : Language SyntaxTree}

theorem onLine_operand (h : MakesOnLine E SyntaxTree.IsLine) :
    MakesOnLine (Operand E) SyntaxTree.IsLine := by
  intro ws tree d line
  cases d with
  | number text => exact isLine_numberLiteral (line (.number text) (by simp))
  | string text => exact .leaf (by decide) (line (.string text) (by simp))
  | column name => exact isLine_columnNode (line (.ident name) (by simp))
  | qualified qualifier name =>
    have hqualifier := isLine_columnNode (line (.ident qualifier) (by simp))
    have hname := isLine_nameLeaf (line (.ident name) (by simp))
    exact .pair (by decide) hqualifier hname
  | starCall name =>
    exact .single (by decide) (isLine_nameLeaf (line (.ident name) (by simp)))
  | emptyCall name => exact isLine_callNode (line (.ident name) (by simp)) (List.forall_mem_nil _)
  | call name listed =>
    simp only [List.forall_mem_cons, List.forall_mem_append] at line
    obtain ⟨hname, -, harguments, -⟩ := line
    exact isLine_callNode hname (onLine_listed h _ _ listed harguments)
  | enclosed inner =>
    simp only [List.forall_mem_cons, List.forall_mem_append] at line
    exact h _ _ inner line.2.1

theorem onLine_signed (h : MakesOnLine O SyntaxTree.IsLine) :
    MakesOnLine (Signed O) SyntaxTree.IsLine := by
  intro ws tree d line
  induction d with
  | negative text =>
    have htext : Text.IsLine text := line (.number text) (by simp)
    exact isLine_numberLiteral (Text.IsLine.append (by decide) htext)
  | negated noNumber signed ih =>
    exact .single (by decide) (ih (List.forall_mem_cons.1 line).2)
  | operand operand => exact h _ _ operand line

theorem onLine_joined {operators : List (Token × Tag)}
    (kinds : ∀ p ∈ operators, Text.IsLine p.2.name) (h : MakesOnLine O SyntaxTree.IsLine) :
    MakesOnLine (Joined operators O) SyntaxTree.IsLine := by
  have hstep : MakesOnLine (Infix operators O) fun step =>
      Text.IsLine step.1.name ∧ step.2.IsLine := by
    intro ws step d line
    cases d with
    | mk operator operand =>
      exact ⟨kinds _ operator, h _ _ operand (List.forall_mem_cons.1 line).2⟩
  exact onLine_nested h hstep fun left step hleft hright => .pair hright.1 hleft hright.2

theorem onLine_comparison (h : MakesOnLine O SyntaxTree.IsLine) :
    MakesOnLine (Comparison O) SyntaxTree.IsLine := by
  have kinds : ∀ p ∈ comparisonOperators, Text.IsLine p.2.name := by decide
  intro ws tree d line
  cases d with
  | none operand => exact h _ _ operand line
  | compare hleft operator hright =>
    simp only [List.forall_mem_append, List.forall_mem_cons] at line
    obtain ⟨lineLeft, -, lineRight⟩ := line
    exact .pair (kinds _ operator) (h _ _ hleft lineLeft) (h _ _ hright lineRight)

theorem onLine_expressionTo (depth : Nat) :
    MakesOnLine (ExpressionTo depth) SyntaxTree.IsLine := by
  induction depth with
  | zero => exact nofun
  | succ depth ih =>
    exact onLine_joined (by decide) <| onLine_joined (by decide) <| onLine_comparison <|
      onLine_joined (by decide) <| onLine_joined (by decide) <| onLine_signed <| onLine_operand ih

theorem onLine_expression : MakesOnLine Expression SyntaxTree.IsLine :=
  fun ws e d => onLine_expressionTo ws.length ws e d

end Expressions

/-! ### Queries and statements -/

theorem onLine_item : MakesOnLine Item SyntaxTree.IsLine := by
  intro ws item d line
  cases d with
  | allColumns => exact .single (by decide) (.node (by decide) (List.forall_mem_nil _))
  | expr expr named =>
    rw [List.forall_mem_append] at line
    have hname := isLine_aliasLeaves (onLine_alias _ _ named line.2)
    exact .node (by decide) (List.forall_mem_cons.2 ⟨onLine_expression _ _ expr line.1, hname⟩)

theorem onLine_tableName : MakesOnLine TableName SyntaxTree.IsLine := by
  intro ws table d line
  cases d with
  | plain name => exact .single (by decide) (isLine_nameLeaf (line (.ident name) (by simp)))
  | qualified database name =>
    have hdatabase := isLine_nameLeaf (line (.ident database) (by simp))
    have hname := isLine_nameLeaf (line (.ident name) (by simp))
    exact .pair (by decide) hdatabase hname

section Nesting

variable {Q : Language SyntaxTree}

theorem onLine_source (h : MakesOnLine Q SyntaxTree.IsLine) :
    MakesOnLine (Source Q) SyntaxTree.IsLine := by
  intro ws tree d line
  cases d with
  | table name named =>
    rw [List.forall_mem_append] at line
    have halias := isLine_aliasLeaves (onLine_alias _ _ named line.2)
    exact .node (by decide) (List.forall_mem_cons.2 ⟨onLine_tableName _ _ name line.1, halias⟩)
  | subquery query named =>
    simp only [List.forall_mem_append, List.forall_mem_cons] at line
    obtain ⟨-, lineQuery, -, lineAlias⟩ := line
    have halias := isLine_aliasLeaves (onLine_alias _ _ named lineAlias)
    exact .node (by decide) (List.forall_mem_cons.2 ⟨h _ _ query lineQuery, halias⟩)

theorem onLine_element (h : MakesOnLine Q SyntaxTree.IsLine) :
    MakesOnLine (Element Q) SyntaxTree.IsLine := by
  have hstep : MakesOnLine (Join Q) fun step =>
      step.right.IsLine ∧ ∀ on ∈ step.on?, on.IsLine := by
    intro ws step d line
    cases d with
    | mk spelled source condition =>
      simp only [List.forall_mem_append] at line
      obtain ⟨-, lineSource, lineCondition⟩ := line
      exact ⟨onLine_source h _ _ source lineSource,
        onLine_clause onLine_expression _ _ condition lineCondition⟩
  refine onLine_nested (onLine_source h) hstep fun left step hleft given => ?_
  obtain ⟨hright, hon⟩ := given
  refine .node (by cases step.op <;> decide) ?_
  refine List.forall_mem_cons.2 ⟨hleft, List.forall_mem_cons.2 ⟨hright, fun on hmem => ?_⟩⟩
  exact hon on (Option.mem_toList.1 hmem)

theorem onLine_query (h : MakesOnLine Q SyntaxTree.IsLine) {destination : SyntaxTree}
    (target : destination.IsLine) : MakesOnLine (Query Q destination) SyntaxTree.IsLine := by
  intro ws tree d line
  cases d with
  | mk selected tables condition grouped =>
    simp only [List.forall_mem_append, List.forall_mem_cons] at line
    obtain ⟨-, lineItems, lineTables, lineCondition, lineGroup⟩ := line
    exact isLine_queryNode target (onLine_listed onLine_item _ _ selected lineItems)
      (onLine_clause (onLine_element h) _ _ tables lineTables)
      (onLine_clause onLine_expression _ _ condition lineCondition)
      (onLine_clause (onLine_listed onLine_expression) _ _ grouped lineGroup)

theorem onLine_subqueryTo (depth : Nat) : MakesOnLine (SubqueryTo depth) SyntaxTree.IsLine := by
  induction depth with
  | zero => exact nofun
  | succ depth ih => exact onLine_query ih isLine_tempDestination

theorem onLine_subquery : MakesOnLine Subquery SyntaxTree.IsLine :=
  fun ws tree d => onLine_subqueryTo ws.length ws tree d

end Nesting

theorem onLine_plain : MakesOnLine Plain SyntaxTree.IsLine := by
  intro ws tree d line
  cases d with
  | select query => exact onLine_query onLine_subquery isLine_tempDestination _ _ query line
  | insert target query =>
    simp only [List.forall_mem_append, List.forall_mem_cons] at line
    obtain ⟨-, -, -, lineTarget, lineQuery⟩ := line
    have htable := onLine_tableName _ _ target lineTarget
    exact onLine_query onLine_subquery (.single (by decide) htable) _ _ query lineQuery
  | load isLocal overwrite path target =>
    simp only [List.forall_mem_append, List.forall_mem_cons] at line
    obtain ⟨-, -, -, -, linePath, -, -, -, lineTarget⟩ := line
    have hflag : ∀ (isThere : Bool) (tag : Tag) (text : String), Text.IsLine tag.name →
        Text.IsLine text → ∀ flag ∈ flagIf isThere tag text, flag.IsLine := by
      intro isThere tag text kind htext flag hmem
      cases isThere with
      | true =>
        rw [List.mem_singleton.1 hmem]
        exact .leaf kind htext
      | false => cases hmem
    have hpath : (SyntaxTree.leaf .stringLiteral path).IsLine := .leaf (by decide) linePath
    have htarget : (SyntaxTree.node .targetTable [_]).IsLine :=
      .single (by decide) (onLine_tableName _ _ target lineTarget)
    refine .node (by decide) (List.forall_mem_append.2 ⟨List.forall_mem_append.2 ⟨?_, ?_⟩, ?_⟩)
    · exact List.forall_mem_cons.2 ⟨hpath, List.forall_mem_singleton.2 htarget⟩
    · exact hflag _ _ _ (by decide) (by decide)
    · exact hflag _ _ _ (by decide) (by decide)

theorem onLine_statement : MakesOnLine Statement SyntaxTree.IsLine := by
  intro ws tree d line
  cases d with
  | bare plain => exact onLine_plain _ _ plain line
  | terminated plain => exact onLine_plain _ _ plain (List.forall_mem_append.1 line).1

end Derivation

/-- The tree of a text without line breaks has none. -/
theorem SyntaxTree.isLine_ofText {sql : String} (line : Text.IsLine sql) {tree : SyntaxTree}
    (h : SyntaxTree.ofText sql = .ok tree) : tree.IsLine := by
  obtain ⟨ts, hscan, ⟨d⟩⟩ := Derivation.exists_statement_of_ofText h
  have tokens := Token.isLine_of_scan line hscan
  exact Derivation.onLine_statement ts tree d (List.forall_mem_append.1 tokens).1

end SqlGuard
