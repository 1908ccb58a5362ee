import SqlGuard.Grammar.Query
import SqlGuard.Token.Scan

/-!
# The grammar of statements

A statement is a query, an `INSERT OVERWRITE TABLE` with a query, or a `LOAD DATA`, with an optional
semicolon, and nothing behind it.
-/

namespace SqlGuard

namespace Grammar

open Reader

/-- `INSERT` behind that word: the target table and the query whose rows go there. -/
def insert : TokenReader SyntaxTree := do
  expect (.keyword .OVERWRITE)
  expect (.keyword .TABLE)
  let table ← tableName
  query (.node .targetTable [table])

/-- Takes a string, which has to stand here. -/
def path : TokenReader String :=
  onNext (fun | .string text => some (pure text) | _ => none) (refuse .path)

/-- `LOAD` behind that word: the file, the flags and the target table. -/
def load : TokenReader SyntaxTree := do
  expect (.keyword .DATA)
  let isLocal ← accept (.keyword .LOCAL)
  expect (.keyword .INPATH)
  let file ← path
  let overwrite ← accept (.keyword .OVERWRITE)
  expect (.keyword .INTO)
  expect (.keyword .TABLE)
  let table ← tableName
  return .node .load <|
    [.leaf .stringLiteral file, .node .targetTable [table]] ++
    (if isLocal then [.leaf .localFlag "LOCAL"] else []) ++
    (if overwrite then [.leaf .overwriteFlag "OVERWRITE"] else [])

/-- A statement without its semicolon, by the word it starts with. -/
def statement : TokenReader SyntaxTree :=
  look fun ts =>
    match ts.head? with
    | some (.keyword .SELECT) => query tempDestination
    | some (.keyword .INSERT) => expect (.keyword .INSERT) *> insert
    | some (.keyword .LOAD) => expect (.keyword .LOAD) *> load
    | _ => refuse .statement

/-- Refuses all tokens but the end, which it leaves where it is. -/
def atEnd : TokenReader Unit :=
  look fun ts => if ts.headD .eof = .eof then pure () else refuse .endOfStatement

/-- A statement with its optional semicolon, up to the end of the tokens. -/
def wholeStatement : TokenReader SyntaxTree := do
  let tree ← statement
  let _ ← accept (.mark .semicolon)
  atEnd
  return tree

end Grammar

namespace SyntaxTree

/-- The tree of the statement that the tokens are. -/
def ofTokens (ts : List Token) : Except SyntaxError SyntaxTree :=
  (Grammar.wholeStatement.run ts).map Prod.fst

end SyntaxTree

/-- Why a text is no statement. -/
inductive ParseError where
  | scan (e : ScanError)
  | grammar (e : SyntaxError)
  deriving DecidableEq, Repr

/-- The text of the error. -/
def ParseError.message : ParseError → String
  | scan e => e.message
  | grammar e => e.message

/-- The tree of the statement that a text is. -/
def SyntaxTree.ofText (sql : String) : Except ParseError SyntaxTree :=
  match Token.ofText sql with
  | .error e => .error (.scan e)
  | .ok ts =>
    match SyntaxTree.ofTokens ts with
    | .error e => .error (.grammar e)
    | .ok tree => .ok tree

end SqlGuard
