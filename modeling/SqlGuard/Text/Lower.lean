import SqlGuard.Text.LowerTable
import SqlGuard.Text.Ranges

/-!
# Lower case

The lower-case form of a text, after the Unicode rules. Names of databases and tables are keyed by
it. Every character has a form of its own but one: a capital sigma becomes a final sigma where it
ends a word.
-/

namespace SqlGuard.Text

/-- Whether a character is a letter with case. -/
def isCased (c : Char) : Bool :=
  if c.toNat < 0x80 then c.isAlpha else inRanges casedRanges c

/-- Whether a character is passed over when the letter beside it is looked up. -/
def isCaseIgnorable (c : Char) : Bool :=
  if c.toNat < 0x80 then ['\x27', '.', ':', '^', '\x60'].contains c
  else inRanges caseIgnorableRanges c

/-- The lower-case form of a character outside ASCII, looked up in the table. -/
def lowerFromTable (c : Char) : List Char :=
  match lowerRuns.find? fun (first, last, step, _) =>
      first ≤ c.toNat && c.toNat ≤ last && (c.toNat - first) % step == 0 with
  | some (_, _, _, shift) => [Char.ofNat (c.toNat + shift).toNat]
  | none => [c]

/-- The lower-case form of a character by itself. The dotted capital I keeps its dot as a
    character of its own. -/
def lowerChar (c : Char) : List Char :=
  if c.toNat < 0x80 then [c.toLower]
  else if c = 'İ' then ['i', '\u0307']
  else lowerFromTable c

/-- Whether the first character that is not passed over is a letter with case. -/
def meetsLetter (cs : List Char) : Bool :=
  match cs.dropWhile isCaseIgnorable with
  | c :: _ => isCased c
  | [] => false

/-- The lower-case form of a character between the characters before it, nearest first, and those
    after it. -/
def lowerBetween (before : List Char) (c : Char) (after : List Char) : List Char :=
  if c = 'Σ' then [if meetsLetter before && !meetsLetter after then 'ς' else 'σ'] else lowerChar c

/-- The lower-case form of a list of characters that follows `before`, nearest first. -/
def lowerList (before : List Char) : List Char → List Char
  | [] => []
  | c :: cs => lowerBetween before c cs ++ lowerList (c :: before) cs

/-- The lower-case form of a text. -/
def lower (s : String) : String := String.ofList (lowerList [] s.toList)

end SqlGuard.Text
