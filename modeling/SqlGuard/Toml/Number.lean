/-!
# Numbers of configuration files

Which words are integers and floats. Underscores may stand between digits. Integers have 64 bits; a
float that is too large for 64 bits is refused, though not a negative one.
-/

namespace SqlGuard.Toml

/-- The digits of a word without the underscores between them. -/
def separatedDigits? (isDigit : Char → Bool) : List Char → Option (List Char)
  | [] => none
  | [c] => if isDigit c then some [c] else none
  | c :: '_' :: cs =>
    if isDigit c then (separatedDigits? isDigit cs).map (c :: ·) else none
  | c :: d :: cs =>
    if isDigit c then (separatedDigits? isDigit (d :: cs)).map (c :: ·) else none

/-- The value of a digit, up to base sixteen. -/
def digitValue (c : Char) : Nat :=
  if c.isDigit then c.toNat - '0'.toNat else c.toLower.toNat - 'a'.toNat + 10

/-- The number that digits are in a base. -/
def numberOfDigits (base : Nat) (digits : List Char) : Nat :=
  digits.foldl (fun value d => base * value + digitValue d) 0

/-- Whether a character is a digit of base sixteen. -/
def isHexDigit (c : Char) : Bool :=
  c.isDigit || ('a' ≤ c && c ≤ 'f') || ('A' ≤ c && c ≤ 'F')

/-- Whether a character is a digit of base eight. -/
def isOctalDigit (c : Char) : Bool := '0' ≤ c && c ≤ '7'

/-- Whether a character is a digit of base two. -/
def isBinaryDigit (c : Char) : Bool := c == '0' || c == '1'

/-- Whether a word starts with a minus sign, and the word without its sign. -/
def cutSign : List Char → Bool × List Char
  | '-' :: cs => (true, cs)
  | '+' :: cs => (false, cs)
  | cs => (false, cs)

/-- The digits of a number in base ten, which has no leading zeros. -/
def wholeDigits? : List Char → Option (List Char)
  | ['0'] => some ['0']
  | '0' :: _ => none
  | cs => separatedDigits? Char.isDigit cs

/-- A number that is within 64 bits with a sign. -/
def within64? (value : Int) : Option Int :=
  if -9223372036854775808 ≤ value ∧ value ≤ 9223372036854775807 then some value else none

/-- The number with a prefix for its base that the digits behind the prefix are. -/
def prefixedInteger? (base : Nat) (isDigit : Char → Bool) (cs : List Char) : Option Int := do
  let digits ← separatedDigits? isDigit cs
  within64? (numberOfDigits base digits)

/-- The integer that a word is. -/
def integer? : List Char → Option Int
  | '0' :: 'x' :: cs => prefixedInteger? 16 isHexDigit cs
  | '0' :: 'o' :: cs => prefixedInteger? 8 isOctalDigit cs
  | '0' :: 'b' :: cs => prefixedInteger? 2 isBinaryDigit cs
  | cs => do
    let (negative, cs) := cutSign cs
    let digits ← wholeDigits? cs
    let value : Int := numberOfDigits 10 digits
    within64? (if negative then -value else value)

/-- Whether a character ends the whole part or the fraction of a float. -/
def isExponentMark (c : Char) : Bool := c == 'e' || c == 'E'

/-- The exponent that the end of a float is; zero if there is none. -/
def exponent? : List Char → Option Int
  | [] => some 0
  | _ :: cs => do
    let (negative, cs) := cutSign cs
    let digits ← separatedDigits? Char.isDigit cs
    let value : Int := numberOfDigits 10 digits
    return if negative then -value else value

/-- A decimal number: its digits as one number, and the power of ten they are multiplied by. -/
structure Decimal where
  negative : Bool
  digits : Nat
  exponent : Int

/-- The decimal number that a word with a fraction or an exponent is. -/
def decimal? (word : List Char) : Option Decimal := do
  let (negative, cs) := cutSign word
  let whole ← wholeDigits? (cs.takeWhile fun c => c != '.' && !isExponentMark c)
  match cs.dropWhile fun c => c != '.' && !isExponentMark c with
  | [] => none
  | '.' :: rest =>
    let fraction ← separatedDigits? Char.isDigit (rest.takeWhile (!isExponentMark ·))
    let exponent ← exponent? (rest.dropWhile (!isExponentMark ·))
    return ⟨negative, numberOfDigits 10 (whole ++ fraction), exponent - fraction.length⟩
  | rest =>
    let exponent ← exponent? rest
    return ⟨negative, numberOfDigits 10 whole, exponent⟩

/-- The least number that rounds to no finite float of 64 bits. -/
def floatLimit : Nat := Nat.pow 2 1024 - Nat.pow 2 970

/-- Whether a decimal number without its sign reaches the limit of floats. The position of its first
    digit decides it but for numbers of the limit's own length. -/
def Decimal.reachesLimit (d : Decimal) : Bool :=
  if d.digits = 0 then false
  else
    let position := (Nat.toDigits 10 d.digits).length + d.exponent
    if position > 309 then true
    else if position < 309 then false
    else if d.exponent < 0 then floatLimit * Nat.pow 10 (-d.exponent).toNat ≤ d.digits
    else floatLimit ≤ d.digits * Nat.pow 10 d.exponent.toNat

/-- Whether a word is a float. -/
def isFloat (word : List Char) : Bool :=
  let unsigned := String.ofList (cutSign word).2
  unsigned == "inf" || unsigned == "nan" ||
    (decimal? word).any fun d => d.negative || !d.reachesLimit

end SqlGuard.Toml
