import SqlGuard.Toml.Assembly
import SqlGuard.Toml.Number
import SqlGuard.Toml.Text
import SqlGuard.Toml.Time

/-!
# Configuration files

Reads a file in TOML, version 1.0. Main definition: `Value.ofText?`, which has no value for a file
that breaks the rules of the format. Values nest less than 80 deep.
-/

namespace SqlGuard.Toml

open Reader

/-- Whether a character can stand in a number, a time or a truth value. -/
def isWordChar (c : Char) : Bool :=
  c.isAlphanum || c == '_' || c == '+' || c == '-' || c == '.' || c == ':'

/-- The value that a word is. -/
def valueOfWord? (word : List Char) : Option Value :=
  if word = "true".toList then some (.boolean true)
  else if word = "false".toList then some (.boolean false)
  else if isTime word then some (.time (String.ofList word))
  else if isFloat word then some (.float (String.ofList word))
  else (integer? word).map .integer

/-- Whether a time of day follows behind a date and a blank. -/
def startsTimeOfDay : List Char → Bool
  | ' ' :: d :: _ => d.isDigit
  | _ => false

/-- Takes a number, a time or a truth value. A date may have a blank before its time of day. -/
def wordValue : CharReader Value := do
  let word ← takeWhile isWordChar
  look fun cs =>
    if isDate word ∧ startsTimeOfDay cs then do
      skip 1
      let time ← takeWhile isWordChar
      if isTimeWithOffset time then return .time (String.ofList (word ++ ' ' :: time))
      else refuse ()
    else
      match valueOfWord? word with
      | some v => pure v
      | none => refuse ()

/-- Takes the elements of an array behind its bracket. A comma may stand behind the last. -/
def arrayElements (element : CharReader Value) : CharReader (List Value) := do
  let item : CharReader Value := do
    let v ← element
    filler
    return v
  filler
  if ← accept ']' then
    return []
  let first ← item
  let more ← chain (fun c => if c = ',' then some () else none) fun _ => do
    filler
    look fun cs => if cs.head? = some ']' then pure none else some <$> item
  char ']'
  return first :: more.filterMap id

/-- Takes a key, an equals sign and a value. -/
def assignment (value : CharReader Value) : CharReader Assignment := do
  let k ← key
  char '='
  blanks
  let v ← value
  blanks
  return ⟨k.path, k.last, v⟩

/-- Takes the entries of a table in braces behind the first brace. -/
def inlineTable (value : CharReader Value) : CharReader Value := do
  blanks
  if ← accept '}' then
    return .table []
  let assignments ← separatedBy ',' (assignment value)
  char '}'
  match tableOf? assignments with
  | some v => return v
  | none => refuse ()

/-- Takes a value, given the reader of the values in it. -/
def valueOver (inner : CharReader Value) : CharReader Value :=
  onNext
    (fun c =>
      if c = '\x22' ∨ c = '\x27' then some (.string <$> stringValue c)
      else if c = '[' then some (.array <$> arrayElements inner)
      else if c = '{' then some (inlineTable inner)
      else none)
    wordValue

/-- Takes a value in which arrays and tables nest at most `depth` deep. -/
def valueTo : Nat → CharReader Value
  | 0 =>
    onNext
      (fun c => if c = '\x22' ∨ c = '\x27' then some (.string <$> stringValue c) else none)
      wordValue
  | depth + 1 => valueOver (look fun _ => valueTo depth)

/-- How deep values nest at most. -/
def nestingLimit : Nat := 79

/-- A line that says something. -/
inductive Line where
  | header (key : Key) (isElement : Bool)
  | assignment (a : Assignment)

/-- Takes a header behind its first bracket. -/
def header : CharReader Line := do
  let isElement ← accept '['
  let k ← key
  char ']'
  if isElement then
    char ']'
  return .header k isElement

/-- Takes a line up to its end. Lines may be empty and may have a comment. -/
def line : CharReader (Option Line) := do
  blanks
  let content? ← look fun cs =>
    match cs.head? with
    | none | some '\n' | some '\r' | some '#' => pure none
    | some '[' => char '[' *> some <$> header
    | some _ => some <$> .assignment <$> assignment (valueTo nestingLimit)
  blanks
  let _ ← after? '#' comment
  return content?

/-- Takes all lines to the end of the file. A mark of byte order may stand before them. -/
def lines : CharReader (List Line) := do
  let _ ← accept '\uFEFF'
  let first ← line
  let more ← chainLooking
    (fun c rest =>
      if c = '\n' then some 0
      else if c = '\r' ∧ rest.head? = some '\n' then some 1
      else none)
    fun count => skip count *> line
  look fun cs => if cs.isEmpty then pure ((first :: more).filterMap id) else refuse ()

/-- The assignments before the first header, and the sections from there on. -/
def sectionsOfLines : List Line → List Assignment × List Section
  | [] => ([], [])
  | .assignment a :: rest =>
    let (top, sections) := sectionsOfLines rest
    (a :: top, sections)
  | .header k isElement :: rest =>
    let (below, sections) := sectionsOfLines rest
    ([], ⟨k.path, k.last, isElement, below⟩ :: sections)

/-- The table that a file holds. -/
def Value.ofText? (text : String) : Option Value :=
  match lines.run text.toList with
  | .ok (ls, _) =>
    let (top, sections) := sectionsOfLines ls
    fileOf? top sections
  | .error _ => none

end SqlGuard.Toml
