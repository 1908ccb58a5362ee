import SqlGuard.Analysis.Statement
import SqlGuard.Statement.Render

/-!
# Batches of statements

Statements are answered one by one: each with its written form and whether it touches protected
data, or with the reason why it is refused. Main statement: `Batch.answer_append`, the answer to a
batch is made up of the answers to its parts.
-/

namespace SqlGuard

/-- The answer to one or more statements: lines of text, and how many statements were refused. The
    count is a signed number of 32 bits, which wraps around. -/
structure Answer where
  lines : List String := []
  failures : Int32 := 0
  deriving DecidableEq, Repr

namespace Answer

/-- One answer behind another. -/
def append (a b : Answer) : Answer := ⟨a.lines ++ b.lines, a.failures + b.failures⟩

instance : Append Answer := ⟨append⟩

theorem lines_append (a b : Answer) : (a ++ b).lines = a.lines ++ b.lines := rfl

theorem failures_append (a b : Answer) : (a ++ b).failures = a.failures + b.failures := rfl

theorem nil_append (a : Answer) : ({} : Answer) ++ a = a := by
  show append {} a = a
  simp [append]

theorem append_nil (a : Answer) : a ++ ({} : Answer) = a := by
  show append a {} = a
  simp [append]

theorem append_assoc (a b c : Answer) : a ++ b ++ c = a ++ (b ++ c) := by
  show append (append a b) c = append a (append b c)
  simp [append, List.append_assoc, Int32.add_assoc]

/-- The answer that refuses a statement, behind lines that were written before. -/
def refused (before : List String) (message : String) : Answer :=
  ⟨before ++ ["ERROR: " ++ message], 1⟩

/-- The answer for an analyzed statement, behind lines that were written before. -/
def accepted (before : List String) (statement : Statement) : Answer :=
  ⟨before ++ [statement.render, "protected=" ++ toString statement.isProtected], 0⟩

end Answer

/-- How statements are answered: against which tables, and whether trees are shown. -/
structure Batch where
  schema : Schema
  showTree : Bool := false

namespace Batch

/-- The lines that show a tree, if trees are shown. -/
def treeLines (batch : Batch) (tree : SyntaxTree) : List String :=
  if batch.showTree then [tree.render] else []

/-- The answer to the text of a statement. -/
def answerText (batch : Batch) (sql : String) : Answer :=
  match SyntaxTree.ofText sql with
  | .error e => .refused [] e.message
  | .ok tree =>
    match Statement.analyzeTree batch.schema tree with
    | .error e => .refused (batch.treeLines tree) e.message
    | .ok statement => .accepted (batch.treeLines tree) statement

/-- The answer to a text that may have white space around its statement, or no statement. -/
def answerOne (batch : Batch) (text : String) : Answer :=
  let sql := Text.trim text
  if sql.isEmpty then {} else batch.answerText sql

/-- The answer to texts, in order. -/
def answer (batch : Batch) : List String → Answer
  | [] => {}
  | text :: texts => batch.answerOne text ++ batch.answer texts

theorem answer_append (batch : Batch) (texts more : List String) :
    batch.answer (texts ++ more) = batch.answer texts ++ batch.answer more := by
  induction texts with
  | nil => exact (Answer.nil_append _).symm
  | cons text texts ih =>
    rw [List.cons_append, answer, answer, ih, Answer.append_assoc]

end Batch

/-- The lines of a text, without their ends. -/
def linesOf (cs : List Char) : List (List Char) :=
  cs.splitOn '\n'

end SqlGuard
