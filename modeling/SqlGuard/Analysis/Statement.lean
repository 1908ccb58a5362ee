import SqlGuard.Analysis.Query
import SqlGuard.Grammar.Statement
import SqlGuard.Lowering.Statement

/-!
# Analysis of statements

From the text of a statement to the statement with all its references resolved: the text is parsed,
its tree is lowered, and the statement is analyzed against the tables it can name. The first step
that fails is the one that is reported.
-/

namespace SqlGuard

/-- Why a text or a tree yields no analyzed statement. -/
inductive StatementError where
  | parse (e : ParseError)
  | lowering (e : LoweringError)
  | analysis (e : AnalysisError)
  deriving DecidableEq, Repr

/-- The text of the error. -/
def StatementError.message : StatementError → String
  | parse e => e.message
  | lowering e => e.message
  | analysis e => e.message

/-- Checks that there is a table of a name. -/
def Schema.require (schema : Schema) (name : String) : Analyzed Unit :=
  if (schema name).isSome then .ok () else .error (.unknownTable name)

/-- The same for a name that may be left out. -/
def Schema.require? (schema : Schema) : Option String → Analyzed Unit
  | none => .ok ()
  | some name => schema.require name

namespace Statement

/-- The statement with all its references resolved. The target of an `INSERT` or `LOAD` has to be a
    table. -/
def analyze (schema : Schema) : Statement → Analyzed Statement
  | .select query => .select <$> query.analyze schema
  | .insert target? query => do
    schema.require? target?
    let query ← query.analyze schema
    return .insert target? query
  | .load path table overwrite => do
    schema.require table
    return .load path table overwrite

/-- The analyzed statement that a tree is. -/
def analyzeTree (schema : Schema) (tree : SyntaxTree) : Except StatementError Statement := do
  let statement ← (Statement.ofTree tree).mapError .lowering
  (statement.analyze schema).mapError .analysis

/-- The statement that a text is, before analysis. -/
def ofText (sql : String) : Except StatementError Statement := do
  let tree ← (SyntaxTree.ofText sql).mapError .parse
  (Statement.ofTree tree).mapError .lowering

/-- The analyzed statement that a text is. -/
def analyzeText (schema : Schema) (sql : String) : Except StatementError Statement := do
  let tree ← (SyntaxTree.ofText sql).mapError .parse
  analyzeTree schema tree

end Statement

end SqlGuard
