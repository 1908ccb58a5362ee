import SqlGuard.Reader
import SqlGuard.Token

/-!
# Reading tokens

The errors of the grammar, and the readers of single tokens that it is built from.
-/

namespace SqlGuard

/-- What the grammar wanted where it could not go on. -/
inductive Wanted where
  | token (t : Token)
  | statement
  | endOfStatement
  | identifier
  | path
  | expression
  deriving DecidableEq, Repr

/-- Why tokens are no statement: what was wanted, and the tokens that stood there instead. -/
abbrev SyntaxError := Refusal Token Wanted

/-- The text of the error, which shows the token that was found. -/
def SyntaxError.message (e : SyntaxError) : String :=
  let found := (e.rest.headD .eof).shown
  match e.wanted with
  | .token t => "expected " ++ t.shown ++ ", got " ++ found
  | .statement => "unexpected token: " ++ found
  | .endOfStatement => "unexpected token after statement: " ++ found
  | .identifier => "expected identifier, got " ++ found
  | .path => "expected file path, got " ++ found
  | .expression => "unexpected token in expression: " ++ found

/-- A reader of tokens. -/
abbrev TokenReader := Reader Token Wanted

namespace Grammar

open Reader

/-- Takes the token `t`, which has to stand here. -/
def expect (t : Token) : TokenReader Unit := demand t (.token t)

/-- Reads one or more items with commas between them. -/
def commaSeparated {α : Type} (item : TokenReader α) : TokenReader (List α) :=
  separatedBy (.mark .comma) item

/-- Takes a name. -/
def identifier : TokenReader String :=
  onNext (fun | .ident name => some (pure name) | _ => none) (refuse .identifier)

/-- Reads the optional name behind an item: `AS` and a name, or a name alone. -/
def alias? : TokenReader (Option String) :=
  onNext
    (fun
      | .keyword .AS => some (some <$> identifier)
      | .ident name => some (pure (some name))
      | _ => none)
    (pure none)

end Grammar

end SqlGuard
