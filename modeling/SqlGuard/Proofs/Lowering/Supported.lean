import SqlGuard.Grammar.Query
import SqlGuard.Lowering.Error

/-!
# The supported part of the grammar

Which of the trees that the grammar makes have a statement, in terms of the trees alone: each kind
of node says what may stand in it, and in a supported tree all nodes keep to that, at any depth.
Main definition: `SyntaxTree.Supported`.
-/

namespace SqlGuard

open Grammar

namespace SyntaxTree

/-! ### Expressions -/

/-- The kinds of number literals. -/
def numberKinds : List Tag :=
  [.number, .bigintLiteral, .smallintLiteral, .tinyintLiteral, .decimalLiteral]

/-- An operand: a column, a literal, `name(*)`, or arithmetic on two operands. -/
inductive IsOperand : SyntaxTree → Prop
  | number {kind : Tag} (isNumber : kind ∈ numberKinds) (text : String) :
      IsOperand (.leaf kind text)
  | string (text : String) : IsOperand (.leaf .stringLiteral text)
  | column (name : String) : IsOperand (columnNode name)
  | qualified (qualifier name : String) : IsOperand (qualifiedNode qualifier name)
  | starCall (name : String) : IsOperand (starCallNode name)
  | arith (op : ArithOp) {left right : SyntaxTree} (hleft : IsOperand left)
      (hright : IsOperand right) : IsOperand (.node (.arith op) [left, right])

/-- A single comparison, whose sides are operands. -/
inductive IsComparison (op : CompareOp) : SyntaxTree → Prop
  | mk {left right : SyntaxTree} (hleft : left.IsOperand) (hright : right.IsOperand) :
      IsComparison op (.node (.compare op) [left, right])

/-- A column, alone or behind the name of its table. -/
inductive IsColumn : SyntaxTree → Prop
  | plain (name : String) : IsColumn (columnNode name)
  | qualified (qualifier name : String) : IsColumn (qualifiedNode qualifier name)

/-- The name of a table without that of its database. -/
inductive IsTableName : SyntaxTree → Prop
  | mk (name : String) : IsTableName (.node .tableName [nameLeaf name])

/-! ### Nodes -/

/-- What may stand in a node. An item is an operand, so that it is not `*`. A target of an `INSERT`
    may be behind the name of its database, unlike one of a `LOAD`. -/
def Allowed : SyntaxTree → Prop
  | .mk .selectItem _ (e :: _) => e.IsOperand
  | .mk .whereClause _ conditions => ∀ e ∈ conditions, ∃ op, e.IsComparison op
  | .mk (.join _) _ (_ :: _ :: conditions) => ∀ on ∈ conditions, on.IsComparison .eq
  | .mk .groupByClause _ exprs => ∀ e ∈ exprs, e.IsColumn
  | .mk .tableRef _ (table :: _) => table.IsTableName
  | .mk .load _ (_ :: target :: _) => ∀ table ∈ target.children, table.IsTableName
  | _ => True

/-- Each node of the tree, at any depth, holds what may stand in it. -/
inductive Supported : SyntaxTree → Prop
  | mk {tag : Tag} {text : String} {children : List SyntaxTree}
      (allowed : (SyntaxTree.mk tag text children).Allowed)
      (below : ∀ child ∈ children, child.Supported) : Supported (.mk tag text children)

/-- The first tree is the ON clause of a join, at any depth of the second one. -/
inductive IsConditionIn (on : SyntaxTree) : SyntaxTree → Prop
  | here (op : JoinOp) (left right : SyntaxTree) :
      IsConditionIn on (.node (.join op) [left, right, on])
  | inside {tree child : SyntaxTree} (hmem : child ∈ tree.children)
      (condition : IsConditionIn on child) : IsConditionIn on tree

theorem supported_node {tag : Tag} {children : List SyntaxTree} :
    (node tag children).Supported ↔
      (node tag children).Allowed ∧ ∀ child ∈ children, child.Supported := by
  constructor
  · intro h
    cases h with
    | mk allowed below => exact ⟨allowed, below⟩
  · exact fun h => .mk h.1 h.2

theorem supported_leaf (tag : Tag) (text : String) : (leaf tag text).Supported := by
  refine .mk ?_ nofun
  cases tag <;> first | trivial | exact nofun

theorem supported_aliasLeaves (name? : Option String) :
    ∀ name ∈ aliasLeaves name?, name.Supported := by
  intro name hmem
  obtain ⟨text, -, rfl⟩ := List.mem_map.1 hmem
  exact supported_leaf _ text

end SyntaxTree

/-! ### Errors -/

namespace LoweringError

/-- The error names an element that a place refuses. -/
inductive NamesElement : LoweringError → Prop
  | mk (place : Construct) (element : String) : NamesElement (.unsupportedConstruct place element)

/-- The errors of a tree: a place refuses an element, or an ON clause of the tree is refused as it
    is a conjunction. -/
inductive Blames (tree : SyntaxTree) : LoweringError → Prop
  | element {e : LoweringError} (names : e.NamesElement) : Blames tree e
  | condition {on : SyntaxTree} (condition : on.IsConditionIn tree)
      (isAnd : on.tag = .conjunction) : Blames tree (.unsupportedJoinCondition on.render)

/-- The errors of a child are errors of its node. -/
theorem Blames.below {tree child : SyntaxTree} (hmem : child ∈ tree.children) {e : LoweringError}
    (h : Blames child e) : Blames tree e := by
  cases h with
  | element names => exact .element names
  | condition condition isAnd => exact .condition (.inside hmem condition) isAnd

end LoweringError

end SqlGuard
