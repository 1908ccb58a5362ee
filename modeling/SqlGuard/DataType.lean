import SqlGuard.Text.Blank
import SqlGuard.Text.Lower

/-!
# Data types

The types of columns and expressions, how they are written, and how they combine in arithmetic and
comparisons.
-/

namespace SqlGuard

/-- The type of a column or an expression. `unknown` stands for a type that is not resolved yet.
    Precision and scale of a decimal are kept in a byte each. -/
inductive DataType where
  | unknown | int | bigInt | float | double
  | decimal (precision scale : UInt8)
  | string | boolean
  deriving DecidableEq, Repr

namespace DataType

/-- Whether values of the type are numbers. -/
def isNumeric : DataType → Bool
  | int | bigInt | float | double | decimal _ _ => true
  | unknown | string | boolean => false

/-- The place of a numeric type in the order from the narrowest to the widest. -/
def rank : DataType → Nat
  | int => 1
  | bigInt => 2
  | float => 3
  | double => 4
  | decimal _ _ => 5
  | unknown | string | boolean => 0

/-- The type of an arithmetic expression over operands of two types: the wider one, the left one of
    two that are equally wide, and `unknown` if one is unknown. -/
def widen (left right : DataType) : DataType :=
  if left = unknown ∨ right = unknown then unknown
  else if right.rank ≤ left.rank then left
  else right

/-- Whether values of two types can be compared. -/
def comparable : DataType → DataType → Bool
  | unknown, _ | _, unknown => true
  | string, string => true
  | boolean, boolean => true
  | left, right => left.isNumeric && right.isNumeric

/-- Whether an operand of arithmetic can have the type. -/
def isOperand (type : DataType) : Bool := type = unknown || type.isNumeric

/-- The written form of a type. -/
def render : DataType → String
  | unknown => "unknown"
  | int => "int"
  | bigInt => "bigint"
  | float => "float"
  | double => "double"
  | decimal precision scale => "decimal(" ++ toString precision ++ "," ++ toString scale ++ ")"
  | string => "string"
  | boolean => "boolean"

/-- The number that decimal digits are, read from left to right. -/
def ofDigits (digits : List Char) : Nat :=
  digits.foldl (fun value d => 10 * value + (d.toNat - '0'.toNat)) 0

/-- The characters behind a plus sign, if they start with one, and else all of them. -/
def withoutPlus : List Char → List Char
  | '+' :: cs => cs
  | cs => cs

/-- A number up to 255: decimal digits, which may have a plus sign before them. -/
def ofByteDigits? (cs : List Char) : Option UInt8 :=
  let digits := withoutPlus cs
  if digits ≠ [] ∧ digits.all Char.isDigit ∧ ofDigits digits ≤ 255 then
    some (UInt8.ofNat (ofDigits digits))
  else none

/-- The characters before the first comma and those behind it, if there is one. -/
def cutAtComma (cs : List Char) : List Char × Option (List Char) :=
  match cs.dropWhile (· != ',') with
  | [] => (cs, none)
  | _ :: rest => (cs.takeWhile (· != ','), some rest)

/-- What stands between `decimal(` and a closing parenthesis at the very end. -/
def decimalArguments? (cs : List Char) : Option (List Char) :=
  if "decimal(".toList.isPrefixOf cs then
    let rest := cs.drop "decimal(".length
    if rest.getLast? = some ')' then some rest.dropLast else none
  else none

/-- The decimal type with the precision and scale that stand between its parentheses. -/
def ofDecimalArguments? (cs : List Char) : Option DataType :=
  let (precision, scale?) := cutAtComma cs
  match ofByteDigits? (Text.trimList precision), scale?.map (ofByteDigits? ∘ Text.trimList) with
  | some precision, none => some (decimal precision 0)
  | some precision, some (some scale) => some (decimal precision scale)
  | _, _ => none

/-- The type that a name in lower case stands for. -/
def ofLowerName? (cs : List Char) : Option DataType :=
  if ["int", "integer", "smallint", "tinyint"].any (·.toList == cs) then some int
  else if cs = "bigint".toList then some bigInt
  else if cs = "float".toList then some float
  else if cs = "double".toList then some double
  else if ["string", "varchar", "char"].any (·.toList == cs) then some string
  else if ["boolean", "bool"].any (·.toList == cs) then some boolean
  else if cs = "decimal".toList then some (decimal 10 0)
  else decimalArguments? cs >>= ofDecimalArguments?

/-- The type that a text stands for, in any letter case and with white space around it. There is no
    such text for `unknown`. -/
def ofName? (name : String) : Option DataType :=
  ofLowerName? (Text.lowerList [] (Text.trimList name.toList))

end DataType

/-- What is said of a text that names no type. -/
def unknownTypeMessage (name : String) : String := "unknown data type: " ++ name

/-- A text that names no type, as it was given. -/
structure UnknownType where
  name : String
  deriving DecidableEq, Repr

/-- The text of the error. -/
def UnknownType.message (e : UnknownType) : String := unknownTypeMessage e.name

/-- The type that a text stands for, or the text itself where it stands for none. -/
def DataType.ofName (name : String) : Except UnknownType DataType :=
  match ofName? name with
  | some type => .ok type
  | none => .error ⟨name⟩

end SqlGuard
