import Mathlib
import SqlGuard.Proofs.CommandLine.Arguments
import SqlGuard.Proofs.Messages.Analysis
import SqlGuard.Toml.Decoder

/-!
# Runs on several statements

A run answers each of its statements as a run on that statement alone does, one behind the other. As
long as the count of those that are refused does not wrap around, it fails by their number.
Statements that are lines of standard input are answered like those among the arguments. Main
statement: `Options.respond_eachAlone`.
-/

namespace SqlGuard

/-! ### Answers -/

/-- Whether a text holds a statement that is refused. -/
def Schema.refuses (schema : Schema) (text : String) : Bool :=
  !(Text.trim text).isEmpty && !(Statement.analyzeText schema (Text.trim text)).isOk

namespace Batch

/-- The lines that show the tree of a text, if it has one and trees are shown. -/
def shown (batch : Batch) (sql : String) : List String :=
  (SyntaxTree.ofText sql).toOption.toList.flatMap batch.treeLines

variable {batch : Batch} {sql : String}

/-- The tree stands before the error, also where it is the analysis that refuses the statement. -/
theorem answerText_of_error {e : StatementError}
    (h : Statement.analyzeText batch.schema sql = .error e) :
    batch.answerText sql = .refused (batch.shown sql) e.message := by
  unfold Statement.analyzeText at h
  unfold answerText shown
  cases htree : SyntaxTree.ofText sql with
  | error e' =>
    rw [htree] at h
    cases h
    rfl
  | ok tree =>
    rw [htree] at h
    have hanalysis : Statement.analyzeTree batch.schema tree = .error e := h
    simp only [hanalysis]
    simp [Except.toOption]

theorem answerText_of_ok {s : Statement} (h : Statement.analyzeText batch.schema sql = .ok s) :
    batch.answerText sql = .accepted (batch.shown sql) s := by
  simp only [Statement.analyzeText, bind_eq_ok, mapError_eq_ok] at h
  obtain ⟨tree, htree, hanalysis⟩ := h
  unfold answerText shown
  simp only [htree, hanalysis]
  simp [Except.toOption]

theorem shown_of_hidden (hidden : batch.showTree = false) (sql : String) :
    batch.shown sql = [] := by
  have hlines : ∀ tree, batch.treeLines tree = [] := fun tree => by simp [treeLines, hidden]
  simp [shown, hlines]

/-- Where no trees are shown, texts that are analyzed alike are answered alike. -/
theorem answerText_congr (hidden : batch.showTree = false) {sql' : String}
    (same : Statement.analyzeText batch.schema sql = Statement.analyzeText batch.schema sql') :
    batch.answerText sql = batch.answerText sql' := by
  have hshown := shown_of_hidden hidden
  cases hanalysis : Statement.analyzeText batch.schema sql with
  | error e =>
    rw [answerText_of_error hanalysis, answerText_of_error (same ▸ hanalysis), hshown, hshown]
  | ok s => rw [answerText_of_ok hanalysis, answerText_of_ok (same ▸ hanalysis), hshown, hshown]

theorem answerOne_of_blank {text : String} (blank : Text.trim text = "") :
    batch.answerOne text = {} := by
  rw [answerOne, blank]
  rfl

theorem answerOne_of_not_blank {text : String} (some_ : Text.trim text ≠ "") :
    batch.answerOne text = batch.answerText (Text.trim text) := by
  unfold answerOne
  exact if_neg (by simpa using some_)

/-- A text counts once if its statement is refused. -/
theorem failures_answerOne (text : String) :
    (batch.answerOne text).failures = if batch.schema.refuses text then 1 else 0 := by
  unfold Schema.refuses
  by_cases blank : Text.trim text = ""
  · rw [answerOne_of_blank blank, blank]
    rfl
  · rw [answerOne_of_not_blank blank]
    cases hanalysis : Statement.analyzeText batch.schema (Text.trim text) with
    | error e =>
      rw [answerText_of_error hanalysis]
      simp [Answer.refused, Except.isOk, Except.toBool, blank]
    | ok s =>
      rw [answerText_of_ok hanalysis]
      simp [Answer.accepted, Except.isOk, Except.toBool]

theorem lines_answer (texts : List String) :
    (batch.answer texts).lines = texts.flatMap fun text => (batch.answerOne text).lines := by
  induction texts with
  | nil => rfl
  | cons text texts ih => rw [answer, Answer.lines_append, List.flatMap_cons, ih]

/-- The failures are the number of the statements that are refused, in as many bits as the count
    has. -/
theorem failures_answer (texts : List String) :
    (batch.answer texts).failures = Int32.ofNat (texts.countP batch.schema.refuses) := by
  induction texts with
  | nil => rfl
  | cons text texts ih =>
    rw [answer, Answer.failures_append, failures_answerOne, ih, List.countP_cons, Nat.add_comm,
      Int32.ofNat_add]
    split <;> rfl

theorem answer_singleton (text : String) : batch.answer [text] = batch.answerOne text :=
  Answer.append_nil _

theorem answer_append_blank (texts : List String) :
    batch.answer (texts ++ [""]) = batch.answer texts := by
  rw [answer_append, answer_singleton, answerOne_of_blank (by decide), Answer.append_nil]

end Batch

/-! ### Standard input -/

/-- The text with the statements as its lines, the last one with an end or without. -/
def linesText (isEnded : Bool) (statements : List String) : String :=
  "\n".intercalate statements ++ (if isEnded then "\n" else "")

theorem lines_linesText {statements : List String} (some_ : statements ≠ [])
    (noBreak : ∀ sql ∈ statements, '\n' ∉ sql.toList) (isEnded : Bool) :
    (linesOf (linesText isEnded statements).toList).map String.ofList =
      statements ++ if isEnded then [""] else [] := by
  have hlines : linesOf ("\n".intercalate statements).toList = statements.map String.toList := by
    rw [String.toList_intercalate]
    refine List.splitOn_intercalate '\n' (List.forall_mem_map.2 noBreak) ?_
    simpa using some_
  have hback : (statements.map String.toList).map String.ofList = statements := by
    rw [List.map_map]
    exact (List.map_congr_left fun sql _ => String.ofList_toList).trans (List.map_id statements)
  cases isEnded with
  | false =>
    have htext : linesText false statements = "\n".intercalate statements := String.append_empty
    rw [htext, hlines, hback]
    simp
  | true =>
    have hended : linesOf (linesText true statements).toList =
        linesOf ("\n".intercalate statements).toList ++ [[]] := by
      rw [linesText, if_pos rfl, String.toList_append]
      exact List.splitOn_append_cons_self _ []
    rw [hended, hlines, List.map_append, hback]
    rfl

/-! ### Responses -/

/-- A response is made up of those to the texts alone, of which a blank one is empty, one to a
    refused statement ends with its error, and one to an analyzed statement with its written form
    and its protection. The error takes one line, unless the text itself has a line break. The
    statements that are refused count as long as their number fits the count. -/
structure Response.EachAlone (batch : Batch) (alone : String → Response) (texts : List String)
    (response : Response) : Prop where
  output : response.output = texts.flatMap fun text => (alone text).output
  succeeds : texts.countP batch.schema.refuses < 2 ^ 31 →
    (response.exitCode = 0 ↔ texts.countP batch.schema.refuses = 0)
  counts : texts.countP batch.schema.refuses < 2 ^ 31 → response =
    if texts.countP batch.schema.refuses = 0 then { output := response.output }
    else .failed response.output
      (toString (texts.countP batch.schema.refuses) ++ " statement(s) failed")
  blank : ∀ text, Text.trim text = "" → alone text = {}
  refused : ∀ text, Text.trim text ≠ "" →
    ∀ e, Statement.analyzeText batch.schema (Text.trim text) = .error e →
      alone text = .failed (batch.shown (Text.trim text) ++ ["ERROR: " ++ e.message])
        "1 statement(s) failed"
  oneLine : ∀ text, '\n' ∉ text.toList →
    ∀ e, Statement.analyzeText batch.schema (Text.trim text) = .error e →
      '\n' ∉ ("ERROR: " ++ e.message).toList
  accepted : ∀ text, Text.trim text ≠ "" →
    ∀ s, Statement.analyzeText batch.schema (Text.trim text) = .ok s →
      alone text = { output := batch.shown (Text.trim text) ++
        [s.render, "protected=" ++ toString s.isProtected] }

namespace Response

theorem output_ofAnswer (answer : Answer) : (ofAnswer answer).output = answer.lines := by
  unfold ofAnswer
  split <;> rfl

theorem exitCode_ofAnswer (answer : Answer) :
    (ofAnswer answer).exitCode = 0 ↔ ¬ 0 < answer.failures := by
  unfold ofAnswer
  split
  · rename_i positive
    exact iff_of_false Nat.one_ne_zero (not_not.2 positive)
  · rename_i notPositive
    exact iff_of_true rfl notPositive

/-- A count that fits its bits is positive if it is not zero, and is written as it is. -/
theorem ofAnswer_of_lt {answer : Answer} {k : Nat} (hk : answer.failures = Int32.ofNat k)
    (fits : k < 2 ^ 31) : ofAnswer answer =
      if k = 0 then { output := answer.lines }
      else .failed answer.lines (toString k ++ " statement(s) failed") := by
  have hint : (Int32.ofNat k).toInt = k := Int32.toInt_ofNat_of_lt fits
  have hpos : 0 < answer.failures ↔ k ≠ 0 := by
    rw [hk, Int32.lt_iff_toInt_lt, hint, Int32.toInt_zero]
    omega
  have htext : toString answer.failures = toString k := by
    rw [hk]
    show toString (Int32.ofNat k).toInt = toString k
    rw [hint]
    rfl
  by_cases hzero : k = 0
  · rw [ofAnswer, if_neg (fun positive => hpos.1 positive hzero), if_pos hzero]
  · rw [ofAnswer, if_pos (hpos.2 hzero), if_neg hzero, htext]

theorem eachAlone_ofAnswer (batch : Batch) (texts : List String) :
    EachAlone batch (fun text => .ofAnswer (batch.answerOne text)) texts
      (.ofAnswer (batch.answer texts)) where
  output := by
    simp only [output_ofAnswer]
    exact batch.lines_answer texts
  succeeds fits := by
    rw [ofAnswer_of_lt (batch.failures_answer texts) fits]
    split
    · exact iff_of_true rfl ‹_›
    · exact iff_of_false Nat.one_ne_zero ‹_›
  counts fits := by
    rw [output_ofAnswer]
    exact ofAnswer_of_lt (batch.failures_answer texts) fits
  blank text blank := by
    rw [Batch.answerOne_of_blank blank]
    rfl
  refused text some_ e h := by
    rw [Batch.answerOne_of_not_blank some_, Batch.answerText_of_error h]
    exact ofAnswer_of_lt (k := 1) rfl (by decide)
  oneLine text line e h := by
    have trimmed : Text.IsLine (Text.trim text) := Text.IsLine.trim line
    exact Text.IsLine.append (by decide) (StatementError.isLine_message batch.schema trimmed h)
  accepted text some_ s h := by
    rw [Batch.answerOne_of_not_blank some_, Batch.answerText_of_ok h]
    rfl

end Response

namespace Options

variable {decoder : Decoder} {text : String} {config : Config}

/-- The response to a run with a configuration that loads. -/
theorem respond_of_loaded (loaded : decoder.config? text = some config) (options : Options)
    (input : String) :
    options.respond decoder (some text) input =
      .ofAnswer ((options.batch config).answer (options.texts input)) := by
  have hload : loadText decoder.config? options.configPath (some text) = .ok config := by
    simp only [loadText, loaded]
  rw [respond, hload]

theorem texts_of_statements {options : Options} (some_ : options.statements ≠ [])
    (input : String) : options.texts input = options.statements := by
  rw [texts, List.isEmpty_eq_false_iff.2 some_]
  rfl

/-- Standard input does not count where there are statements among the options. -/
theorem respond_of_statements (loaded : decoder.config? text = some config) (options : Options)
    {statements : List String} (some_ : statements ≠ []) (input : String) :
    { options with statements }.respond decoder (some text) input =
      .ofAnswer ((options.batch config).answer statements) := by
  have htexts : { options with statements }.texts input = statements :=
    texts_of_statements some_ input
  rw [respond_of_loaded loaded, htexts]
  rfl

/-- Statements that are the lines of standard input are answered like those of the options. -/
theorem respond_linesText (loaded : decoder.config? text = some config) {options : Options}
    (none_ : options.statements = []) {statements : List String} (some_ : statements ≠ [])
    (noBreak : ∀ sql ∈ statements, '\n' ∉ sql.toList) (isEnded : Bool) (input : String) :
    options.respond decoder (some text) (linesText isEnded statements) =
      { options with statements }.respond decoder (some text) input := by
  have hinput : options.texts (linesText isEnded statements) =
      statements ++ if isEnded then [""] else [] := by
    rw [texts, none_]
    exact lines_linesText some_ noBreak isEnded
  rw [respond_of_loaded loaded, respond_of_statements loaded options some_, hinput]
  cases isEnded with
  | false => rw [if_neg Bool.false_ne_true, List.append_nil]
  | true => rw [if_pos rfl, Batch.answer_append_blank]

/-- With a configuration that loads, a run answers each statement as a run on that statement alone
    does, and fails by the number of those that are refused, as long as that fits the count.
    Statements without line breaks are answered alike as statements of the options and as lines of
    standard input, and so are those that do not start with a dash and are given as arguments. -/
theorem respond_eachAlone (loaded : decoder.config? text = some config) (options : Options)
    (input : String) :
    Response.EachAlone (options.batch config)
        (fun sql => { options with statements := [sql] }.respond decoder (some text) input)
        (options.texts input) (options.respond decoder (some text) input) ∧
      ∀ statements isEnded, options.statements = [] → statements ≠ [] →
        (∀ sql ∈ statements, '\n' ∉ sql.toList) →
          options.respond decoder (some text) (linesText isEnded statements) =
              { options with statements }.respond decoder (some text) input ∧
            ∀ (read : ArgumentReader) (files : String → Option String) (arguments : List String),
              read.TakesStatements → read arguments = .ok options →
              files options.configPath = some text →
              (∀ sql ∈ statements, sql.toList.head? ≠ some '-') →
                read.respond decoder files arguments (linesText isEnded statements) =
                  read.respond decoder files (arguments ++ statements) input := by
  constructor
  · have alone : ∀ sql, { options with statements := [sql] }.respond decoder (some text) input =
        .ofAnswer ((options.batch config).answerOne sql) := by
      intro sql
      rw [respond_of_statements loaded options (List.cons_ne_nil sql []), Batch.answer_singleton]
    simp only [alone, respond_of_loaded loaded]
    exact Response.eachAlone_ofAnswer _ _
  · intro statements isEnded none_ some_ noBreak
    have hlines := respond_linesText loaded none_ some_ noBreak isEnded input
    refine ⟨hlines, fun read files arguments takes given found noDash => ?_⟩
    have hmore := takes.append arguments options given statements noDash
    rw [none_, List.nil_append] at hmore
    simp only [ArgumentReader.respond, given, hmore, found]
    exact hlines

/-- A statement without tables, a blank one and one that is no statement, with trees. -/
theorem respond_three :
    let options : Options := { configPath := "catalog.toml", showTree := true }
    let arguments : List String := ["-c", "catalog.toml", "--tree"]
    let statements : List String := ["SELECT 1", " ", "LOAD"]
    let given : Options := { options with statements }
    let files : String → Option String := fun _ => some ""
    Toml.decoder.config? "" = some {} ∧ Arguments.read arguments = .ok options ∧
      Response.EachAlone (given.batch {})
        (fun sql => { given with statements := [sql] }.respond Toml.decoder (some "") "")
        statements (given.respond Toml.decoder (some "") "") ∧
      Arguments.read.respond Toml.decoder files arguments (linesText true statements) =
        Arguments.read.respond Toml.decoder files (arguments ++ statements) "" := by
  intro options arguments statements given files
  have loaded : Toml.decoder.config? "" = some {} := by cbv
  have read : Arguments.read arguments = .ok options := by decide
  refine ⟨loaded, read, (respond_eachAlone loaded given "").1, ?_⟩
  have alike := (respond_eachAlone loaded options "").2 statements true rfl (by decide) (by decide)
  exact alike.2 Arguments.read files arguments Arguments.read_takesStatements read rfl (by decide)

/-- The count of 2^31 refused statements is not positive, so the run succeeds. An error that repeats
    a name on two lines takes two lines. -/
theorem respond_many_refused :
    let options : Options := { configPath := "catalog.toml" }
    let run (statements : List String) : Response :=
      { options with statements }.respond Toml.decoder (some "") ""
    let many : List String := List.replicate (2 ^ 31) "LOAD"
    let error : String := "ERROR: unresolved reference: table t\nprotected=false"
    many.countP (options.batch {}).schema.refuses = 2 ^ 31 ∧ (run many).exitCode = 0 ∧
      (run ["SELECT a FROM `t\nprotected=false`"]).output = [error] ∧
      (linesOf error.toList).length = 2 := by
  intro options run many error
  have loaded : Toml.decoder.config? "" = some {} := by cbv
  have refuses : (options.batch {}).schema.refuses "LOAD" = true := by cbv
  have hmany : many.countP (options.batch {}).schema.refuses = 2 ^ 31 := by
    rw [List.countP_replicate, if_pos refuses]
  refine ⟨hmany, ?_, ?_, by decide⟩
  · have some_ : many ≠ [] := by
      rw [ne_eq, List.replicate_eq_nil_iff]
      decide
    have hrun : run many = .ofAnswer ((options.batch {}).answer many) :=
      respond_of_statements loaded options some_ ""
    have notPositive : ¬ 0 < Int32.ofNat (2 ^ 31) := by decide
    rw [hrun, Response.exitCode_ofAnswer, Batch.failures_answer, hmany]
    exact notPositive
  · let sql := "SELECT a FROM `t\nprotected=false`"
    let e : StatementError := .analysis (.unknownTable "t\nprotected=false")
    have htrim : Text.trim sql = sql := by cbv
    have refused : Statement.analyzeText (options.batch {}).schema sql = .error e := by cbv
    have hrun : run [sql] = .ofAnswer ((options.batch {}).answer [sql]) :=
      respond_of_statements loaded options (List.cons_ne_nil sql []) ""
    rw [hrun, Batch.answer_singleton, Batch.answerOne_of_not_blank (by rw [htrim]; decide), htrim,
      Batch.answerText_of_error refused, Response.output_ofAnswer, Batch.shown_of_hidden rfl]
    rfl

end Options

end SqlGuard
