import SqlGuard.Text.Quoted

/-!
# Tokens

The words, marks, names and literals a statement is written with. A list of tokens that was read
from a text ends with `eof`.
-/

namespace SqlGuard

/-- The reserved words. -/
inductive Keyword where
  | SELECT | FROM | WHERE | GROUP | BY | AS | INSERT | OVERWRITE | TABLE | LOAD | DATA | LOCAL
  | INPATH | INTO | JOIN | INNER | LEFT | RIGHT | FULL | OUTER | CROSS | ON | AND | OR
  deriving DecidableEq, Repr

namespace Keyword

/-- All reserved words. -/
def all : List Keyword :=
  [SELECT, FROM, WHERE, GROUP, BY, AS, INSERT, OVERWRITE, TABLE, LOAD, DATA, LOCAL, INPATH, INTO,
    JOIN, INNER, LEFT, RIGHT, FULL, OUTER, CROSS, ON, AND, OR]

/-- The word itself, with a capital first letter, as messages show it. -/
def name : Keyword → String
  | SELECT => "Select"
  | FROM => "From"
  | WHERE => "Where"
  | GROUP => "Group"
  | BY => "By"
  | AS => "As"
  | INSERT => "Insert"
  | OVERWRITE => "Overwrite"
  | TABLE => "Table"
  | LOAD => "Load"
  | DATA => "Data"
  | LOCAL => "Local"
  | INPATH => "Inpath"
  | INTO => "Into"
  | JOIN => "Join"
  | INNER => "Inner"
  | LEFT => "Left"
  | RIGHT => "Right"
  | FULL => "Full"
  | OUTER => "Outer"
  | CROSS => "Cross"
  | ON => "On"
  | AND => "And"
  | OR => "Or"

/-- The letters of the word in lower case. -/
def letters (k : Keyword) : List Char := k.name.toList.map Char.toLower

/-- The reserved word that a list of characters spells, in any letter case. -/
def ofWord? (word : List Char) : Option Keyword :=
  all.find? fun k => k.letters == word.map Char.toLower

theorem mem_all (k : Keyword) : k ∈ all := by cases k <;> decide

end Keyword

/-- The operators and punctuation marks. -/
inductive Mark where
  | asterisk | comma | semicolon | dot | lparen | rparen
  | eq | ne | lt | le | gt | ge | plus | minus | slash
  deriving DecidableEq, Repr

/-- How messages call a mark. -/
def Mark.name : Mark → String
  | asterisk => "Asterisk"
  | comma => "Comma"
  | semicolon => "Semicolon"
  | dot => "Dot"
  | lparen => "LParen"
  | rparen => "RParen"
  | eq => "Eq"
  | ne => "Ne"
  | lt => "Lt"
  | le => "Le"
  | gt => "Gt"
  | ge => "Ge"
  | plus => "Plus"
  | minus => "Minus"
  | slash => "Slash"

/-- A token. Numbers and strings carry their written text, quotes and escapes included; a name
    carries its letters, without the backticks it may have been written in. -/
inductive Token where
  | keyword (word : Keyword)
  | mark (mark : Mark)
  | ident (name : String)
  | number (text : String)
  | string (text : String)
  | eof
  deriving DecidableEq, Repr

/-- How messages show a token. -/
def Token.shown : Token → String
  | .keyword k => k.name
  | .mark m => m.name
  | .ident name => "Ident(" ++ Text.quoted name ++ ")"
  | .number text => "Number(" ++ Text.quoted text ++ ")"
  | .string text => "String(" ++ Text.quoted text ++ ")"
  | .eof => "Eof"

end SqlGuard
