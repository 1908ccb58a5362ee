import SqlGuard.Statement

/-!
# Chains of table references

The references of a FROM clause in order. A chain is built from shorter ones: when one chain is put
behind another, its joins move along, and a join of two chains is noted at the last reference.
-/

namespace SqlGuard

/-- The references of a FROM clause, in order. -/
abbrev TableChain := List TableRef

/-- The join, with the position it names moved by an offset. -/
def Join.moved (offset : Nat) (join : Join) : Join := { join with left := join.left + offset }

/-- The reference, with the position its join names moved by an offset. -/
def TableRef.moved (offset : Nat) (t : TableRef) : TableRef :=
  { t with join? := t.join?.map (Join.moved offset) }

namespace TableChain

/-- One chain behind another, with its joins naming the references that they named before. -/
def followedBy (chain more : TableChain) : TableChain :=
  chain ++ more.map (TableRef.moved chain.length)

/-- All chains, one behind the other. -/
def concat (chains : List TableChain) : TableChain := chains.foldl followedBy []

/-- Joins the last reference with the one before it, whatever join it had. -/
def joinLast (op : JoinOp) (on? : Option Expr) (chain : TableChain) : TableChain :=
  match chain.getLast? with
  | some last => chain.dropLast ++ [{ last with join? := some ⟨op, on?, chain.length - 2⟩ }]
  | none => []

/-- The reference that the one at index `i` is joined with. -/
def left? (chain : TableChain) (i : Nat) : Option TableRef := do
  let t ← chain[i]?
  let join ← t.join?
  chain[join.left]?

end TableChain

end SqlGuard
