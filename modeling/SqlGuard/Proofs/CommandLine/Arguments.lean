import Mathlib.Data.List.Basic
import SqlGuard.Arguments

/-!
# Statements among arguments

Arguments that do not start with a dash are statements, wherever they stand behind others that make
up a run. Main statement: `Arguments.read_takesStatements`.
-/

namespace SqlGuard

/-- What is relied on of a reader of arguments: behind the arguments of a run, those that do not
    start with a dash are further statements of the run. -/
structure ArgumentReader.TakesStatements (read : ArgumentReader) : Prop where
  append : ∀ arguments options, read arguments = .ok options →
    ∀ statements : List String, (∀ sql ∈ statements, sql.toList.head? ≠ some '-') →
      read (arguments ++ statements) =
        .ok { options with statements := options.statements ++ statements }

namespace Given

theorem foldl_addStatement (given : Given) (statements : List String) :
    statements.foldl addStatement given =
      { given with statements := given.statements ++ statements } := by
  induction statements generalizing given with
  | nil => simp
  | cons sql statements ih =>
    rw [List.foldl_cons, ih]
    simp [addStatement]

/-- Further statements are further statements of the options. -/
theorem options_append {given : Given} {options : Options} (h : given.options = .ok options)
    (statements : List String) :
    ({ given with statements := given.statements ++ statements } : Given).options =
      .ok { options with statements := options.statements ++ statements } := by
  unfold Given.options at h ⊢
  split at h
  · rename_i path hpath
    cases h
    simp only [hpath]
  · cases h

end Given

theorem Argument.ofList_of_head?_ne {cs : List Char} (h : cs.head? ≠ some '-') :
    Argument.ofList cs = .statement (String.ofList cs) := by
  unfold Argument.ofList
  split
  · exact absurd rfl h
  · exact absurd rfl h
  · exact absurd rfl h
  · rfl

namespace Arguments

theorem readRest_statements (given : Given) {statements : List String}
    (noDash : ∀ sql ∈ statements, sql.toList.head? ≠ some '-') :
    readRest given statements = (statements.foldl Given.addStatement given).options := by
  induction statements generalizing given with
  | nil => rfl
  | cons sql statements ih =>
    rw [List.forall_mem_cons] at noDash
    rw [readRest, Argument.ofList_of_head?_ne noDash.1]
    dsimp only
    rw [String.ofList_toList, ih _ noDash.2]
    rfl

/-- Statements behind arguments are added to those among the arguments. -/
theorem readRest_append {statements : List String}
    (noDash : ∀ sql ∈ statements, sql.toList.head? ≠ some '-') (given : Given)
    (arguments : List String) {options : Options} (h : readRest given arguments = .ok options) :
    readRest given (arguments ++ statements) =
      .ok { options with statements := options.statements ++ statements } := by
  -- The induction is on the arguments as they are read: the statements are reached with what the
  -- arguments have given, at their end or behind a separator.
  induction given, arguments using readRest.induct with
  | case1 given =>
    rw [readRest] at h
    rw [List.nil_append, readRest_statements _ noDash, Given.foldl_addStatement]
    exact Given.options_append h statements
  | case2 given argument rest isSeparator =>
    simp only [readRest, isSeparator] at h
    simp only [List.cons_append, readRest, isSeparator]
    rw [List.foldl_append, Given.foldl_addStatement _ statements]
    exact Given.options_append h statements
  | case3 given argument rest option value isOption set hset ih =>
    simp only [readRest, isOption, hset] at h
    simp only [List.cons_append, readRest, isOption, hset, ih h]
  | case6 given argument option isOption next rest value isValue set hset ih =>
    simp only [readRest, isOption, isValue, hset] at h
    simp only [List.cons_append, readRest, isOption, isValue, hset, ih h]
  | case9 given argument rest isTree set hset ih =>
    simp only [readRest, isTree, hset] at h
    simp only [List.cons_append, readRest, isTree, hset, ih h]
  | case13 given argument rest sql isStatement ih =>
    simp only [readRest, isStatement] at h
    simp only [List.cons_append, readRest, isStatement, ih h]
  -- In the remaining cases the arguments make up no run.
  | _ => simp [readRest, *] at h

theorem read_takesStatements : ArgumentReader.TakesStatements read where
  append arguments _ given _ noDash := readRest_append noDash {} arguments given

end Arguments

end SqlGuard
