import SqlGuard.Proofs.Grammar.Acceptance
import SqlGuard.Proofs.Statement.Reanalysis

/-!
# Loads are read back

A `LOAD` is written with its path between single quotes, whichever quotes the path was read from,
and with the name of its table as it is. Main statement: `Statement.ofText_load_render_iff`, it is
read back exactly if the path can stand between single quotes and the name without backticks.
-/

namespace SqlGuard

open Grammar

/-! ### Texts that are loads -/

/-- The tokens of a `LOAD` without its semicolon. -/
def loadTokens (isLocal overwrite : Bool) (file table : String) : List Token :=
  .keyword .LOAD :: .keyword .DATA :: (Derivation.wordIf isLocal .LOCAL ++
    .keyword .INPATH :: .string file :: (Derivation.wordIf overwrite .OVERWRITE ++
      [.keyword .INTO, .keyword .TABLE, .ident table]))

theorem chars_loadTokens (isLocal overwrite : Bool) (file table : String) :
    (loadTokens isLocal overwrite file table).flatMap Token.chars =
      file.toList ++ table.toList := by
  cases isLocal <;> cases overwrite <;> simp [loadTokens, Derivation.wordIf, Token.chars]

/-- The tree of a `LOAD` is the `LOAD` of the path without its quotes. -/
theorem Statement.ofTree_loadNode (isLocal overwrite : Bool) (file table : String) :
    Statement.ofTree (.node .load ([.leaf .stringLiteral file, targetTree table] ++
      Derivation.flagIf isLocal .localFlag "LOCAL" ++
        Derivation.flagIf overwrite .overwriteFlag "OVERWRITE")) =
        .ok (.load (withoutQuotes file) table true) := by
  cases isLocal <;> cases overwrite <;> rfl

theorem Statement.ofTree_queryNode_ne_load {destination : SyntaxTree} {items : List SyntaxTree}
    {from? where? : Option SyntaxTree} {group? : Option (List SyntaxTree)} {path table : String}
    {overwrite : Bool} :
    Statement.ofTree (queryNode destination items from? where? group?) ≠
      .ok (.load path table overwrite) := by
  intro h
  have hselect : (Statement.select <$> Query.ofTree (queryNode destination items from? where?
      group?) : Lowered Statement) = .ok (.load path table overwrite) := h
  obtain ⟨query, -, hquery⟩ := map_eq_ok.1 hselect
  cases hquery

/-- A statement that is lowered to a `LOAD` has the tokens of one. -/
theorem Derivation.Plain.eq_loadTokens {ws : List Token} {tree : SyntaxTree} (d : Plain ws tree)
    {path table : String} {overwrite : Bool}
    (lowered : Statement.ofTree tree = .ok (.load path table overwrite)) :
    ∃ isLocal isWritten file, ws = loadTokens isLocal isWritten file table ∧
      path = withoutQuotes file ∧ overwrite = true := by
  cases d with
  | select query =>
    cases query
    exact absurd lowered Statement.ofTree_queryNode_ne_load
  | insert target query =>
    cases query
    exact absurd lowered Statement.ofTree_queryNode_ne_load
  | load isLocal isWritten file target =>
    cases target with
    | plain name =>
      have hload := Statement.ofTree_loadNode isLocal isWritten file name
      cases hload.symm.trans lowered
      exact ⟨isLocal, isWritten, file, rfl, rfl, rfl⟩
    | qualified database name => cases lowered

/-- A text that is a `LOAD` is scanned as the tokens of one, and what may stand behind a
    statement. -/
theorem Statement.exists_loadTokens {sql path table : String} {overwrite : Bool}
    (accepted : Statement.ofText sql = .ok (.load path table overwrite)) :
    ∃ isLocal isWritten file behind,
      Token.ofText sql = .ok (loadTokens isLocal isWritten file table ++ behind) ∧
        path = withoutQuotes file ∧ overwrite = true := by
  obtain ⟨ts, tree, rest, hscan, hrun, hs⟩ := Statement.exists_of_ofText accepted
  obtain ⟨ws, ⟨d⟩, rfl, -⟩ := Derivation.statement_of_run hrun
  cases d with
  | bare plain =>
    obtain ⟨isLocal, isWritten, file, rfl, hpath, hflag⟩ := plain.eq_loadTokens hs
    exact ⟨isLocal, isWritten, file, rest, hscan, hpath, hflag⟩
  | terminated plain =>
    obtain ⟨isLocal, isWritten, file, rfl, hpath, hflag⟩ := plain.eq_loadTokens hs
    rw [List.append_assoc] at hscan
    exact ⟨isLocal, isWritten, file, _, hscan, hpath, hflag⟩

/-! ### Paths -/

/-- The path of a string can stand between the quotes that it has stood between. -/
theorem exists_isEscaped_of_isQuoted {file : String} (quoted : Token.IsQuoted file) :
    ∃ quote, (quote = '\x27' ∨ quote = '\x22') ∧
      Token.IsEscaped quote (withoutQuotes file).toList := by
  obtain ⟨quote, body, isQuote, escaped, hfile⟩ := quoted
  refine ⟨quote, isQuote, ?_⟩
  rwa [withoutQuotes_eq isQuote hfile, String.toList_ofList]

/-! ### Written loads -/

/-- A text that starts with a single quote is scanned as a string first. -/
theorem Token.scan_singleQuote {cs : List Char} {ts : List Token}
    (h : scan ('\x27' :: cs) = .ok ts) :
    ∃ body us, IsEscaped '\x27' body ∧
      ts = .string (String.ofList ('\x27' :: (body ++ ['\x27']))) :: us := by
  have hdrop : ('\x27' :: cs).dropWhile Text.isBlank = '\x27' :: cs := rfl
  rcases scan_eq_ok h with ⟨hnil, -⟩ | ⟨c, more, t, rest, us, hcons, htoken, -, -, rfl⟩
  · cases hnil
  · cases hdrop.symm.trans hcons
    rw [scanToken, if_pos (.inl rfl)] at htoken
    split at htoken
    · rename_i body rest' hquoted
      cases htoken
      obtain ⟨inner, escaped, rfl, -⟩ := scanQuoted_eq_some hquoted
      exact ⟨inner, us, escaped, rfl⟩
    · cases htoken

theorem Statement.render_load (path table : String) :
    (Statement.load path table true).render =
      "LOAD DATA INPATH" ++ (" '" ++ (path ++ ("' OVERWRITE INTO TABLE " ++ table))) := by
  have hload : "LOAD DATA INPATH '" = "LOAD DATA INPATH" ++ " '" := by decide
  have hinto : "' OVERWRITE INTO TABLE " = "' " ++ ("OVERWRITE " ++ "INTO TABLE ") := by decide
  unfold Statement.render
  rw [hload, hinto]
  simp only [if_true, String.append_assoc]

/-- What is read from a written `LOAD` first is its words and a string that can stand between single
    quotes. -/
theorem Statement.scan_render_load {path table : String} {ts : List Token}
    (h : Token.ofText (Statement.load path table true).render = .ok ts) :
    ∃ body us, Token.IsEscaped '\x27' body ∧
      ts = .keyword .LOAD :: .keyword .DATA :: .keyword .INPATH ::
        .string (String.ofList ('\x27' :: (body ++ ['\x27']))) :: us := by
  have hscan := spells_LOAD_DATA_INPATH
    ((" '" ++ (path ++ ("' OVERWRITE INTO TABLE " ++ table))).toList)
    (by
      intro c hc
      rw [String.toList_append] at hc
      cases hc
      rfl)
  rw [Token.ofText, Statement.render_load, String.toList_append, hscan] at h
  obtain ⟨us, hus, rfl⟩ := map_eq_ok.1 h
  rw [String.toList_append] at hus
  have hblank : Token.scan (' ' :: '\x27' ::
    (path ++ ("' OVERWRITE INTO TABLE " ++ table)).toList) = .ok us := hus
  rw [Token.scan_blank rfl] at hblank
  obtain ⟨body, us, escaped, rfl⟩ := Token.scan_singleQuote hblank
  exact ⟨body, us, escaped, rfl⟩

/-- A written `LOAD` holds the backticks of its path and of the name of its table. -/
theorem Statement.carries_load (path table : String) :
    Carries (Statement.load path table true).render
      (loadTokens false true ("'" ++ path ++ "'") table) := by
  unfold Carries
  rw [chars_loadTokens, Statement.render_load]
  simp only [String.toList_append, List.count_append]
  have hwords : "LOAD DATA INPATH".toList.count '\x60' = 0 := by decide
  have hopen : " '".toList.count '\x60' = "'".toList.count '\x60' := by decide
  have hclose : "' OVERWRITE INTO TABLE ".toList.count '\x60' = "'".toList.count '\x60' := by decide
  rw [hwords, hopen, hclose]
  omega

/-- What a written `LOAD` is read back as tells that its path and its table can be written so. -/
theorem Statement.plain_of_ofText_render_load {path table : String}
    (again : Statement.ofText (Statement.load path table true).render =
      .ok (.load path table true)) :
    Token.IsEscaped '\x27' path.toList ∧ Token.isPlainName table = true := by
  obtain ⟨isLocal, isWritten, file, behind, hscan, hpath, -⟩ := Statement.exists_loadTokens again
  obtain ⟨body, us, escaped, htokens⟩ := Statement.scan_render_load hscan
  have hfile : file = String.ofList ('\x27' :: (body ++ ['\x27'])) := by
    cases isLocal with
    | true => cases htokens
    | false => exact Token.string.inj (List.cons.inj (List.cons.inj (List.cons.inj
        (List.cons.inj htokens).2).2).2).1
  have hquoted : file.toList = '\x27' :: (body ++ ['\x27']) := by
    rw [hfile, String.toList_ofList]
  have hbody : path.toList = body := by
    rw [hpath, withoutQuotes_eq (.inl rfl) hquoted, String.toList_ofList]
  rw [hbody]
  refine ⟨escaped, ?_⟩
  by_contra needs
  obtain ⟨scanned, hcount⟩ := Token.scan_isScanned hscan
  have hname : .ident table ∈ loadTokens isLocal isWritten file table ++ behind :=
    List.mem_append_left _ (by simp [loadTokens])
  have hlt := count_chars_lt scanned hname needs
  have hcarries := Statement.carries_load path table
  have hwritten : ("'" ++ path ++ "'").toList = file.toList := by
    rw [hquoted, String.toList_append, String.toList_append, hbody]
    rfl
  unfold Carries at hcarries
  rw [chars_loadTokens, hwritten] at hcarries
  rw [List.flatMap_append, List.count_append, chars_loadTokens] at hlt
  omega

theorem Statement.ofText_render_load {path table : String}
    (escaped : Token.IsEscaped '\x27' path.toList) (name : Token.isPlainName table = true) :
    Statement.ofText (Statement.load path table true).render = .ok (.load path table true) := by
  have quoted := Token.isQuoted_of_isEscaped escaped
  have htokens : ∀ t ∈ (Statement.load path table true).tokens, t.IsPlain := by
    simp [Statement.tokens, Token.IsPlain, name, quoted]
  exact Statement.ofText_eq_ok (Statement.ofText_render htokens) (run_load path table)
    (Statement.ofTree_load path table)

/-- A `LOAD` that a text is read as overwrites its table, and its path can stand between single or
    between double quotes. It is read back from its written form if and only if the path can stand
    between single quotes and the name of the table needs no backticks. -/
theorem Statement.ofText_load_render_iff {sql path table : String} {overwrite : Bool}
    (accepted : Statement.ofText sql = .ok (.load path table overwrite)) :
    overwrite = true ∧
      (∃ quote, (quote = '\x27' ∨ quote = '\x22') ∧ Token.IsEscaped quote path.toList) ∧
      (Statement.ofText (Statement.load path table overwrite).render =
          .ok (.load path table overwrite) ↔
        Token.IsEscaped '\x27' path.toList ∧ Token.isPlainName table = true) := by
  obtain ⟨isLocal, isWritten, file, behind, hscan, rfl, rfl⟩ := Statement.exists_loadTokens accepted
  have quoted : Token.IsQuoted file :=
    (Token.scan_isScanned hscan).1 (.string file) (List.mem_append_left _ (by simp [loadTokens]))
  refine ⟨rfl, exists_isEscaped_of_isQuoted quoted, Statement.plain_of_ofText_render_load, ?_⟩
  intro given
  exact Statement.ofText_render_load given.1 given.2

/-- A path between double quotes in which a single quote stands behind a backslash. -/
theorem Statement.ofText_load_render_escaped :
    let load : Statement := .load "it\\'s" "t" true
    Statement.ofText "LOAD DATA LOCAL INPATH \"it\\'s\" INTO TABLE `t`;" = .ok load ∧
      load.render = "LOAD DATA INPATH 'it\\'s' OVERWRITE INTO TABLE t" ∧
      Statement.ofText "LOAD DATA INPATH 'it\\'s' OVERWRITE INTO TABLE t" = .ok load := by
  intro load
  have accepted : Statement.ofText "LOAD DATA LOCAL INPATH \"it\\'s\" INTO TABLE `t`;" =
      .ok load := by cbv
  have hrender : load.render = "LOAD DATA INPATH 'it\\'s' OVERWRITE INTO TABLE t" := by decide
  have escaped : Token.IsEscaped '\x27' ['i', 't', '\x5c', '\x27', 's'] :=
    .char (by decide) (by decide) (.char (by decide) (by decide)
      (.escape '\x27' (.char (by decide) (by decide) .nil)))
  have hpath : "it\\'s".toList = ['i', 't', '\x5c', '\x27', 's'] := by decide
  rw [← hpath] at escaped
  refine ⟨accepted, hrender, ?_⟩
  rw [← hrender]
  exact (Statement.ofText_load_render_iff accepted).2.2.2 ⟨escaped, by decide⟩

/-- A single quote between double quotes ends the written path too early, and a name between
    backticks is written as two words. -/
theorem Statement.ofText_load_render_ne :
    let quoted : Statement := .load "it's" "t" true
    let blank : Statement := .load "p" "a b" true
    Statement.ofText "LOAD DATA INPATH \"it's\" INTO TABLE t" = .ok quoted ∧
      quoted.render = "LOAD DATA INPATH 'it's' OVERWRITE INTO TABLE t" ∧
      Statement.ofText quoted.render ≠ .ok quoted ∧
      Statement.ofText "LOAD DATA INPATH 'p' INTO TABLE `a b`" = .ok blank ∧
      blank.render = "LOAD DATA INPATH 'p' OVERWRITE INTO TABLE a b" ∧
      Statement.ofText blank.render ≠ .ok blank := by
  intro quoted blank
  have hpath : "it's".toList = ['i', 't', '\x27', 's'] := by decide
  refine ⟨by cbv, by decide, ?_, by cbv, by decide, ?_⟩
  · intro again
    obtain ⟨escaped, -⟩ := Statement.plain_of_ofText_render_load again
    rw [hpath] at escaped
    cases escaped with
    | char _ _ escaped =>
      cases escaped with
      | char _ _ escaped =>
        cases escaped with
        | char noQuote => exact noQuote rfl
  · intro again
    obtain ⟨-, name⟩ := Statement.plain_of_ofText_render_load again
    exact absurd name (by decide)

end SqlGuard
