import SqlGuard.Reader
import SqlGuard.Toml.Number

/-!
# Texts of configuration files

Blanks, line ends and comments, strings in their four forms, and keys. Strings in double quotes have
escapes, those in single quotes have none; in three quotes they may span lines.
-/

namespace SqlGuard.Toml

/-- A reader of characters. What it wanted is of no interest. -/
abbrev CharReader := Reader Char Unit

open Reader

/-- Whether a character can stand in comments and strings: no control but the tab. -/
def isTextChar (c : Char) : Bool :=
  c == '\t' || (0x20 ≤ c.toNat && c.toNat ≤ 0x7e) || 0x80 ≤ c.toNat

/-- Whether a character is a blank within a line. -/
def isBlankChar (c : Char) : Bool := c == ' ' || c == '\t'

/-- The number of characters of the line end that stands here; zero if there is none. -/
def lineEndLength : List Char → Nat
  | '\n' :: _ => 1
  | '\r' :: '\n' :: _ => 2
  | _ => 0

/-- Takes the blanks that stand here. -/
def blanks : CharReader Unit := do
  let _ ← takeWhile isBlankChar

/-- Takes a character that has to stand here. -/
def char (c : Char) : CharReader Unit := demand c ()

/-- Takes a line end if one stands here. -/
def lineEnd? : CharReader Unit := look fun cs => skip (lineEndLength cs)

/-- Takes blanks and line ends. -/
def blanksAndLineEnds : CharReader Unit := do
  let _ ← chainLooking
    (fun c rest =>
      if isBlankChar c ∨ c = '\n' ∨ (c = '\r' ∧ rest.head? = some '\n') then some () else none)
    pure

/-- Takes the rest of a comment. -/
def comment : CharReader Unit := do
  let _ ← takeWhile isTextChar

/-- Takes blanks, line ends, and comments up to the end of their lines. -/
def filler : CharReader Unit := do
  let _ ← chainLooking
    (fun c rest =>
      if isBlankChar c ∨ c = '\n' ∨ (c = '\r' ∧ rest.head? = some '\n') then some (pure ())
      else if c = '#' then
        some do
          comment
          look fun cs => if lineEndLength cs = 0 then refuse () else pure ()
      else none)
    id

/-- Whether a number is that of a character. -/
def isCharNumber (n : Nat) : Bool := n < 0xd800 || (0xdfff < n && n < 0x110000)

/-- Takes the character that is written as `count` digits of base sixteen. -/
def codePoint (count : Nat) : CharReader Char :=
  look fun cs =>
    let digits := cs.take count
    let number := numberOfDigits 16 digits
    if digits.length = count ∧ digits.all isHexDigit ∧ isCharNumber number then do
      skip count
      return Char.ofNat number
    else refuse ()

/-- Takes the character that is written behind a backslash. -/
def escape : CharReader Char :=
  onNext
    (fun
      | 'b' => some (pure '\x08')
      | 't' => some (pure '\t')
      | 'n' => some (pure '\n')
      | 'f' => some (pure '\x0c')
      | 'r' => some (pure '\r')
      | '\x22' => some (pure '\x22')
      | '\x5c' => some (pure '\x5c')
      | 'u' => some (codePoint 4)
      | 'U' => some (codePoint 8)
      | _ => none)
    (refuse ())

/-- Whether a line ends here but for blanks. -/
def endsLine (cs : List Char) : Bool := lineEndLength (cs.dropWhile isBlankChar) != 0

/-- Takes what is written behind a backslash in a string over several lines: a character, or nothing
    at the end of a line, where all blanks and line ends are taken along. -/
def escapeOrLineEnd : CharReader (List Char) :=
  look fun cs =>
    if endsLine cs then do
      blanksAndLineEnds
      return []
    else do
      let c ← escape
      return [c]

/-- Takes a string behind its double quote. -/
def basicString : CharReader String := do
  let cs ← chain
    (fun c =>
      if c = '\x22' then none
      else if c = '\x5c' then some escape
      else if isTextChar c then some (pure c)
      else none)
    id
  char '\x22'
  return String.ofList cs

/-- Takes a string behind its single quote. -/
def literalString : CharReader String := do
  let cs ← takeWhile fun c => c != '\x27' && isTextChar c
  char '\x27'
  return String.ofList cs

/-- Takes the three quotes that end a string over several lines. Up to two more belong to it. -/
def closingQuotes (quote : Char) : CharReader (List Char) := do
  char quote
  char quote
  char quote
  let fourth ← accept quote
  let fifth ← accept quote
  return (if fourth then [quote] else []) ++ (if fifth then [quote] else [])

/-- Takes a string over several lines behind its three quotes. A line end right there is left out;
    the others are single characters in the string. -/
def longString (quote : Char) (special : Char → Option (CharReader (List Char))) :
    CharReader String := do
  lineEnd?
  let parts ← chainLooking
    (fun c rest =>
      if c = quote then if rest.take 2 = [quote, quote] then none else some (pure [c])
      else if c = '\n' then some (pure [c])
      else if c = '\r' then some do
        char '\n'
        return ['\n']
      else
        match special c with
        | some r => some r
        | none => if isTextChar c then some (pure [c]) else none)
    id
  let last ← closingQuotes quote
  return String.ofList (parts.flatten ++ last)

/-- Whether the two characters that stand here are quotes, so that three have been read with the one
    before. -/
def opensLong (quote : Char) (cs : List Char) : Bool := cs.take 2 == [quote, quote]

/-- Takes a string value behind its first quote. -/
def stringValue (quote : Char) : CharReader String :=
  look fun cs =>
    if opensLong quote cs then do
      skip 2
      longString quote fun c => if quote = '\x22' ∧ c = '\x5c' then some escapeOrLineEnd else none
    else if quote = '\x22' then basicString
    else literalString

/-- Whether a character can stand in a key without quotes. -/
def isBareKeyChar (c : Char) : Bool := c.isAlphanum || c == '-' || c == '_'

/-- Takes a part of a key: a word, or a string within a line. -/
def keyPart : CharReader String :=
  onNext
    (fun c =>
      if c = '\x22' then some basicString
      else if c = '\x27' then some literalString
      else if isBareKeyChar c then some do
        let cs ← takeWhile isBareKeyChar
        return String.ofList (c :: cs)
      else none)
    (refuse ())

/-- A key, by the parts before its last and the last. -/
structure Key where
  path : List String
  last : String

/-- The number of parts that a key must stay below. -/
def keyLimit : Nat := 80

/-- The key of parts, if they are not too many. -/
def Key.ofParts? (parts : List String) : Option Key :=
  if parts.length < keyLimit then parts.getLast?.map fun last => ⟨parts.dropLast, last⟩ else none

/-- Takes a key: parts with points between them, and blanks around each. -/
def key : CharReader Key := do
  let parts ← separatedBy '.' do
    blanks
    let part ← keyPart
    blanks
    return part
  match Key.ofParts? parts with
  | some key => return key
  | none => refuse ()

end SqlGuard.Toml
