import SqlGuard.DataType
import SqlGuard.Operator
import SqlGuard.Text.AsciiCase

/-!
# Expressions

Columns, literals, `name(*)`, arithmetic and comparisons, with their types, their written form and
whether they hold protected data. The type and the protection of a column are notes that analysis
makes; before it the type is unknown and the column counts as not protected.
-/

namespace SqlGuard

/-- A reference to a column. The qualifier is empty where none is written. -/
structure Field where
  qualifier : String
  name : String
  type : DataType := .unknown
  isProtected : Bool := false
  deriving DecidableEq, Repr

/-- The kinds of literals. The kind of a number is decided by how it is written. -/
inductive LiteralKind where
  | int | float | string
  deriving DecidableEq, Repr

/-- An expression. Literals keep their written text, strings with their quotes. The type of
    arithmetic is a note that analysis makes. -/
inductive Expr where
  | field (field : Field)
  | literal (kind : LiteralKind) (text : String)
  | starCall (name : String)
  | arith (op : ArithOp) (left right : Expr) (type : DataType)
  | compare (op : CompareOp) (left right : Expr)
  deriving DecidableEq, Repr

/-- The number of bytes that characters take in UTF-8. -/
def utf8Length : List Char → Nat
  | [] => 0
  | c :: cs => c.utf8Size + utf8Length cs

/-- The precision and scale of a decimal with so many digits before and behind its point. Neither
    exceeds 38, and the precision is at least one. Both are limited before they are put in bytes. -/
def decimalOfDigits (whole fraction : Nat) : DataType :=
  let scale := UInt8.ofNat (min fraction 38)
  let precision := UInt8.ofNat (max 1 (min (whole + fraction) 38))
  .decimal (max precision scale) scale

/-- The type of a number with the suffix `bd`, by what is written before it; all signs are left
    out, and the digits behind the first point are its scale. -/
def decimalType (number : List Char) : DataType :=
  let digits := number.dropWhile (· == '-')
  let whole := digits.takeWhile (· != '.')
  let fraction := (digits.dropWhile (· != '.')).drop 1
  decimalOfDigits (utf8Length whole) (utf8Length fraction)

/-- The type of a literal that ends in `bd`, in any letter case. -/
def decimalLiteralType? (text : String) : Option DataType :=
  match text.toList.reverse with
  | d :: b :: number =>
    if d.toLower = 'd' ∧ b.toLower = 'b' then some (decimalType number.reverse) else none
  | _ => none

namespace LiteralKind

/-- The type of a literal. Among the integers only the suffix `L` makes a difference. -/
def type (kind : LiteralKind) (text : String) : DataType :=
  match kind with
  | int => if text.toList.getLast?.any (·.toLower == 'l') then .bigInt else .int
  | float => (decimalLiteralType? text).getD .double
  | string => .string

/-- The kind of a number without a suffix: a point makes it a float. -/
def ofNumber (text : String) : LiteralKind := if '.' ∈ text.toList then float else int

end LiteralKind

namespace Expr

/-- The type of an expression. -/
def type : Expr → DataType
  | field f => f.type
  | literal kind text => kind.type text
  | starCall _ => .bigInt
  | arith _ _ _ type => type
  | compare _ _ _ => .boolean

/-- Whether a protected column occurs in the expression. -/
def isProtected : Expr → Bool
  | field f => f.isProtected
  | literal _ _ | starCall _ => false
  | arith _ left right _ => left.isProtected || right.isProtected
  | compare _ left right => left.isProtected || right.isProtected

/-- Whether the expression is arithmetic, which is written in parentheses as an operand of
    arithmetic. -/
def isArith : Expr → Bool
  | arith _ _ _ _ => true
  | _ => false

/-- A text in parentheses, if they are asked for. -/
def enclosedIf (parentheses : Bool) (text : String) : String :=
  if parentheses then "(" ++ text ++ ")" else text

/-- The written form of an expression. -/
def render : Expr → String
  | field f => if f.qualifier.isEmpty then f.name else f.qualifier ++ "." ++ f.name
  | literal _ text => text
  | starCall name => name ++ "(*)"
  | arith op left right _ =>
    enclosedIf left.isArith left.render ++ " " ++ op.symbol ++ " " ++
      enclosedIf right.isArith right.render
  | compare op left right => left.render ++ " " ++ op.symbol ++ " " ++ right.render

end Expr

end SqlGuard
