import SqlGuard.Lowering.Expr
import SqlGuard.Proofs.Grammar.Derivation
import SqlGuard.Statement

/-!
# What tokens mean

Which query the tokens of a statement mean, said of the tokens alone and apart from all trees.
Products bind tighter than sums, and both associate to the left. Items, columns and references stand
in the order of their tokens; the first reference of a FROM clause has no join, and each further one
is joined with the reference right before it. Main definition: `Meaning.Statement`.
-/

namespace SqlGuard

open SqlGuard.Derivation

/-- The kind of a number by its suffix: a decimal is a float, and an integer of any other suffix is
    an integer. Without a suffix a point makes it a float. -/
def LiteralKind.ofSuffix (text : String) : LiteralKind :=
  match text.toList.reverse.map Grammar.suffixLetter with
  | 'd' :: 'b' :: _ => float
  | 'l' :: _ | 's' :: _ | 'y' :: _ => int
  | _ => ofNumber text

namespace Meaning

/-! ### Expressions -/

mutual

/-- Products with `+` and `-` between them, from left to right. -/
inductive Sum : Language Expr
  | product {ws : List Token} {e : Expr} (product : Product ws e) : Sum ws e
  | step {t : Token} {op : ArithOp} {ws us : List Token} {left right : Expr} (before : Sum ws left)
      (written : (t, .arith op) ∈ sumOperators) (product : Product us right) :
      Sum (ws ++ t :: us) (.arith op left right .unknown)

/-- Factors with `*` and `/` between them, from left to right. -/
inductive Product : Language Expr
  | factor {ws : List Token} {e : Expr} (factor : Factor ws e) : Product ws e
  | step {t : Token} {op : ArithOp} {ws us : List Token} {left right : Expr}
      (before : Product ws left) (written : (t, .arith op) ∈ productOperators)
      (factor : Factor us right) : Product (ws ++ t :: us) (.arith op left right .unknown)

/-- A literal or a column as it is written, `name(*)`, or a sum in parentheses. A sign in front of a
    number belongs to the number. -/
inductive Factor : Language Expr
  | number (text : String) : Factor [.number text] (.literal (.ofSuffix text) text)
  | negative (text : String) :
      Factor [.mark .minus, .number text] (.literal (.ofSuffix ("-" ++ text)) ("-" ++ text))
  | string (text : String) : Factor [.string text] (.literal .string text)
  | column (name : String) : Factor [.ident name] (.field (.unresolved "" name))
  | qualified (qualifier name : String) :
      Factor [.ident qualifier, .mark .dot, .ident name] (.field (.unresolved qualifier name))
  | starCall (name : String) :
      Factor [.ident name, .mark .lparen, .mark .asterisk, .mark .rparen] (.starCall name)
  | enclosed {ws : List Token} {e : Expr} (inner : Sum ws e) :
      Factor (.mark .lparen :: (ws ++ [.mark .rparen])) e

end

/-- The comparison of two sums by the operator, in any number of parentheses. -/
inductive Comparison (op : CompareOp) : Language Expr
  | compare {t : Token} {ws us : List Token} {left right : Expr} (hleft : Sum ws left)
      (written : (t, .compare op) ∈ comparisonOperators) (hright : Sum us right) :
      Comparison op (ws ++ t :: us) (.compare op left right)
  | enclosed {ws : List Token} {e : Expr} (inner : Comparison op ws e) :
      Comparison op (.mark .lparen :: (ws ++ [.mark .rparen])) e

/-- A comparison by any operator. -/
inductive Predicate : Language Expr
  | mk {op : CompareOp} {ws : List Token} {e : Expr} (comparison : Comparison op ws e) :
      Predicate ws e

/-- A sum that is a column. -/
inductive Column : Language Expr
  | mk {ws : List Token} {f : Field} (column : Sum ws (.field f)) : Column ws (.field f)

/-! ### Queries -/

/-- An item of a selection list with its alias. -/
inductive Item : Language SelectItem
  | mk {ws us : List Token} {expr : Expr} {alias? : Option String} (sum : Sum ws expr)
      (named : Alias us alias?) : Item (ws ++ us) { expr, alias? }

mutual

/-- A query with its clauses in their order. -/
inductive Query : Language SqlGuard.Query
  | mk {ws us vs xs : List Token} {items : List SelectItem} {tables : List TableRef}
      {where? : Option Expr} {group? : Option (List Expr)} (selected : Listed Item ws items)
      (references : Tables us tables)
      (condition : Derivation.Clause [.keyword .WHERE] Predicate vs where?)
      (grouped : Derivation.Clause [.keyword .GROUP, .keyword .BY] (Listed Column) xs group?) :
      Query (.keyword .SELECT :: (ws ++ (us ++ (vs ++ xs))))
        { items, where?, groupBy := group?.getD [], tables }

/-- The references of a FROM clause, if there is one. The first has no join. -/
inductive Tables : Language (List TableRef)
  | absent : Tables [] []
  | present {ws us : List Token} {t : TableRef} {ts : List TableRef} (first : Source ws t)
      (links : Links 0 us ts) : Tables (.keyword .FROM :: (ws ++ us)) (t :: ts)

/-- A table or a query in parentheses, with its alias and without a join. -/
inductive Source : Language TableRef
  | table (name : String) {us : List Token} {alias? : Option String} (named : Alias us alias?) :
      Source (.ident name :: us) { source := .table name, alias? }
  | view {ws us : List Token} {query : SqlGuard.Query} {alias? : Option String}
      (view : Query ws query) (named : Alias us alias?) :
      Source (.mark .lparen :: (ws ++ .mark .rparen :: us)) { source := .view query, alias? }

/-- The references behind the one at the position `k`, each joined with the one before it by its own
    words and its own condition. -/
inductive Links : Nat → Language (List TableRef)
  | done (k : Nat) : Links k [] []
  | link {k : Nat} {words ws us vs : List Token} {op : JoinOp} {t : TableRef} {on? : Option Expr}
      {ts : List TableRef} (spelled : (words, op) ∈ joinSpellings) (source : Source ws t)
      (condition : Derivation.Clause [.keyword .ON] (Comparison .eq) us on?)
      (more : Links (k + 1) vs ts) :
      Links k (words ++ (ws ++ us) ++ vs) ({ t with join? := some ⟨op, on?, k⟩ } :: ts)

end

/-! ### Statements -/

/-- A query, whose rows may go into a table. -/
inductive Plain : Language SqlGuard.Query
  | select {ws : List Token} {query : SqlGuard.Query} (rows : Query ws query) : Plain ws query
  | insert (name : String) {ws : List Token} {query : SqlGuard.Query} (rows : Query ws query) :
      Plain (.keyword .INSERT :: .keyword .OVERWRITE :: .keyword .TABLE :: .ident name :: ws) query
  | insertQualified (database name : String) {ws : List Token} {query : SqlGuard.Query}
      (rows : Query ws query) :
      Plain (.keyword .INSERT :: .keyword .OVERWRITE :: .keyword .TABLE ::
        .ident database :: .mark .dot :: .ident name :: ws) query

/-- The same with an optional semicolon. -/
inductive Statement : Language SqlGuard.Query
  | bare {ws : List Token} {query : SqlGuard.Query} (plain : Plain ws query) : Statement ws query
  | terminated {ws : List Token} {query : SqlGuard.Query} (plain : Plain ws query) :
      Statement (ws ++ [.mark .semicolon]) query

end Meaning

end SqlGuard
