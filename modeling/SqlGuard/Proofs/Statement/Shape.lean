import SqlGuard.Grammar.Expression
import SqlGuard.Lowering.Expr
import SqlGuard.Proofs.Statement.Tokens
import SqlGuard.Proofs.Token.Forms

/-!
# The shape of statements without notes

Which statements are made up the way texts are read: predicates stand in WHERE and ON only, the
references of a FROM clause are joined one after the other, and nothing is noted yet. A statement is
plain if, on top of that, its names and literals can be written as they are.
-/

namespace SqlGuard

/-- An expression that is no predicate and holds none, without notes. A number has the kind that its
    text is given. -/
inductive Expr.IsOperand : Expr → Prop
  | field (qualifier name : String) : IsOperand (.field (.unresolved qualifier name))
  | number {kind : LiteralKind} {text : String}
      (assigned : Expr.ofTree (Grammar.numberLiteral text) = .ok (.literal kind text)) :
      IsOperand (.literal kind text)
  | string (text : String) : IsOperand (.literal .string text)
  | starCall (name : String) : IsOperand (.starCall name)
  | arith (op : ArithOp) {left right : Expr} (hleft : left.IsOperand) (hright : right.IsOperand) :
      IsOperand (.arith op left right .unknown)

/-- A comparison of two operands. -/
inductive Expr.IsPredicate : Expr → Prop
  | compare (op : CompareOp) {left right : Expr} (hleft : left.IsOperand)
      (hright : right.IsOperand) : IsPredicate (.compare op left right)

/-- The comparison of two operands by `=`. -/
inductive Expr.IsEquality : Expr → Prop
  | eq {left right : Expr} (hleft : left.IsOperand) (hright : right.IsOperand) :
      IsEquality (.compare .eq left right)

/-- The reference to a column, without notes. -/
inductive Expr.IsColumn : Expr → Prop
  | field (qualifier name : String) : IsColumn (.field (.unresolved qualifier name))

/-- Each reference but the first is joined with the one before it, on an equality if on anything. -/
structure IsChain (tables : List TableRef) : Prop where
  first : ∀ t, tables[0]? = some t → t.join? = none
  later : ∀ (k : Nat) (t : TableRef), tables[k + 1]? = some t →
    ∃ join, t.join? = some join ∧ join.left = k ∧ ∀ e, join.on? = some e → e.IsEquality

/-- A query whose clauses hold what they can hold, and so do its views. -/
inductive Query.IsShaped : Query → Prop
  | intro {query : Query} (selects : query.items ≠ [])
      (items : ∀ item ∈ query.items, item.expr.IsOperand)
      (condition : ∀ e, query.where? = some e → e.IsPredicate)
      (grouping : ∀ e ∈ query.groupBy, e.IsColumn) (chain : IsChain query.tables)
      (views : ∀ t ∈ query.tables, ∀ view, t.source = .view view → view.IsShaped) :
      query.IsShaped

/-- Whether a token is written as it is: a name without backticks, a number without a sign, and a
    string with its quotes. -/
def Token.IsPlain : Token → Prop
  | .ident name => isPlainName name = true
  | .number text => IsNumber text
  | .string text => IsQuoted text
  | _ => True

/-- A query without notes, whose names and literals can be written as they are. -/
structure Query.IsPlain (query : Query) : Prop where
  shaped : query.IsShaped
  tokens : ∀ t ∈ query.tokens, t.IsPlain

/-- A query that is plain, or the `LOAD` of a file whose path has nothing to escape. -/
inductive Statement.IsPlain : Statement → Prop
  | select {query : Query} (plain : query.IsPlain) : IsPlain (.select query)
  | load {path table : String} (noQuote : '\x27' ∉ path.toList) (noSlash : '\x5c' ∉ path.toList)
      (name : Token.isPlainName table = true) : IsPlain (.load path table true)

end SqlGuard
