/-!
# Operators

The operators of expressions and of FROM clauses, with the words and marks they are written with.
-/

namespace SqlGuard

/-- The arithmetic operators. -/
inductive ArithOp where
  | add | sub | mul | div
  deriving DecidableEq, Repr

namespace ArithOp

/-- All arithmetic operators. -/
def all : List ArithOp := [add, sub, mul, div]

/-- The mark an arithmetic operator is written with. -/
def symbol : ArithOp → String
  | add => "+"
  | sub => "-"
  | mul => "*"
  | div => "/"

end ArithOp

/-- The comparisons. -/
inductive CompareOp where
  | eq | ne | le | ge | lt | gt
  deriving DecidableEq, Repr

namespace CompareOp

/-- All comparisons. -/
def all : List CompareOp := [eq, ne, le, ge, lt, gt]

/-- The mark a comparison is written with. -/
def symbol : CompareOp → String
  | eq => "="
  | ne => "!="
  | le => "<="
  | ge => ">="
  | lt => "<"
  | gt => ">"

/-- The short name of a comparison. -/
def name : CompareOp → String
  | eq => "eq"
  | ne => "ne"
  | le => "le"
  | ge => "ge"
  | lt => "lt"
  | gt => "gt"

end CompareOp

/-- The ways two table references are joined. -/
inductive JoinOp where
  | inner | leftOuter | rightOuter | fullOuter | cross
  deriving DecidableEq, Repr

namespace JoinOp

/-- All joins. -/
def all : List JoinOp := [inner, leftOuter, rightOuter, fullOuter, cross]

/-- The words a join is written with. -/
def keyword : JoinOp → String
  | inner => "JOIN"
  | leftOuter => "LEFT OUTER JOIN"
  | rightOuter => "RIGHT OUTER JOIN"
  | fullOuter => "FULL OUTER JOIN"
  | cross => "CROSS JOIN"

end JoinOp

end SqlGuard
