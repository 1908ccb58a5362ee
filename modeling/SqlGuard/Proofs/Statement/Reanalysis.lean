import Mathlib
import SqlGuard.Proofs.Analysis.Writing
import SqlGuard.Proofs.Lowering.ParsedQuery
import SqlGuard.Proofs.Statement.Backticks
import SqlGuard.Proofs.Statement.Occurrence
import SqlGuard.Proofs.Statement.RoundTrip

/-!
# Written forms are analyzed again

The written form of an analyzed query goes on to execution. It is read back as that query exactly
if no name in the query needs backticks, for these are not written. Main statements:
`Query.ofText_render_iff` and `Statement.analyzeText_render_iff`.
-/

namespace SqlGuard

open Reader Grammar

/-- All names in the query can be written without backticks. -/
def Query.HasPlainNames (query : Query) : Prop :=
  ∀ name, .ident name ∈ query.tokens → Token.isPlainName name = true

/-! ### From texts to queries and back -/

theorem Statement.analyzeText_eq_ok {schema : Schema} {sql : String} {s' : Statement} :
    Statement.analyzeText schema sql = .ok s' ↔
      ∃ s, Statement.ofText sql = .ok s ∧ s.analyze schema = .ok s' := by
  simp only [Statement.analyzeText, Statement.analyzeTree, Statement.ofText, bind_eq_ok,
    mapError_eq_ok]
  constructor
  · intro given
    rcases given with ⟨tree, htree, s, hs, analyzed⟩
    exact ⟨s, ⟨tree, htree, hs⟩, analyzed⟩
  · intro given
    rcases given with ⟨s, ⟨tree, htree, hs⟩, analyzed⟩
    exact ⟨tree, htree, s, hs, analyzed⟩

/-- A text that is a statement is scanned, read and lowered. -/
theorem Statement.exists_of_ofText {sql : String} {s : Statement}
    (h : Statement.ofText sql = .ok s) :
    ∃ ts tree rest, Token.ofText sql = .ok ts ∧ wholeStatement.run ts = .ok (tree, rest) ∧
      Statement.ofTree tree = .ok s := by
  simp only [Statement.ofText, bind_eq_ok, mapError_eq_ok] at h
  obtain ⟨tree, htree, hs⟩ := h
  obtain ⟨ts, rest, hscan, hrun⟩ := SyntaxTree.exists_run_of_ofText htree
  exact ⟨ts, tree, rest, hscan, hrun, hs⟩

/-- A tree is a query or a `LOAD`. -/
theorem Statement.ofTree_eq_ok {tree : SyntaxTree} {s : Statement}
    (h : Statement.ofTree tree = .ok s) :
    (∃ query, s = .select query ∧ tree.tag = .query ∧ Query.ofTree tree = .ok query) ∨
      ∃ path table, s = .load path table true := by
  unfold Statement.ofTree at h
  split at h
  · rename_i htag
    rw [map_eq_ok] at h
    obtain ⟨query, hquery, rfl⟩ := h
    exact .inl ⟨query, rfl, htag, hquery⟩
  · rename_i htag
    rw [loadOfTree, if_pos htag, bind_eq_ok] at h
    obtain ⟨parts, -, h⟩ := h
    split at h
    · cases h
      exact .inr ⟨_, _, rfl⟩
    · cases h
  · cases h

/-- A text is analyzed to a query with its notes or to a `LOAD`. -/
theorem Statement.of_analyzeText {schema : Schema} {sql : String} {s : Statement}
    (accepted : Statement.analyzeText schema sql = .ok s) :
    (∃ read query, s = .select query ∧ Statement.ofText sql = .ok (.select read) ∧
      read.Typed schema query) ∨ ∃ path table, s = .load path table true := by
  obtain ⟨s₀, hread, analyzed⟩ := Statement.analyzeText_eq_ok.1 accepted
  obtain ⟨ts, tree, rest, -, -, hs₀⟩ := Statement.exists_of_ofText hread
  rcases Statement.ofTree_eq_ok hs₀ with ⟨read, rfl, -, -⟩ | ⟨path, table, rfl⟩
  · cases Statement.analyze_eq_ok_iff.1 analyzed with
    | select typed => exact .inl ⟨read, _, rfl, hread, typed⟩
  · cases Statement.analyze_eq_ok_iff.1 analyzed with
    | load known => exact .inr ⟨path, table, rfl⟩

/-! ### What texts are read as -/

theorem DrawnFrom.forall_isScanned {ts ws : List Token} (h : DrawnFrom ts ws)
    (scanned : ∀ t ∈ ws, t.IsScanned) : ∀ t ∈ ts, t.IsScanned := by
  intro t ht
  cases htext : t.hasText with
  | true => exact scanned t (h.subset (List.mem_filter.2 ⟨ht, htext⟩))
  | false => cases t <;> trivial

theorem flatMap_leastChars_filter (ts : List Token) :
    (ts.filter Token.hasText).flatMap Token.leastChars = ts.flatMap Token.leastChars := by
  induction ts with
  | nil => rfl
  | cons t ts ih =>
    cases htext : t.hasText with
    | true => rw [List.filter_cons_of_pos htext, List.flatMap_cons, List.flatMap_cons, ih]
    | false =>
      have hleast : t.leastChars = [] := by
        cases t <;> first | rfl | cases htext
      rw [List.filter_cons_of_neg (by simp [htext]), List.flatMap_cons, hleast, List.nil_append, ih]

theorem DrawnFrom.leastChars_sublist {ts ws : List Token} (h : DrawnFrom ts ws) :
    (ts.flatMap Token.leastChars).Sublist (ws.flatMap Token.leastChars) := by
  rw [← flatMap_leastChars_filter]
  exact h.flatMap _

/-- A query that a text is read as has the right shape, and takes its tokens and its backticks from
    the text. -/
theorem Query.of_ofText {sql : String} {query : Query}
    (h : Statement.ofText sql = .ok (.select query)) :
    query.IsShaped ∧ (∀ t ∈ query.tokens, t.IsScanned) ∧
      (query.tokens.flatMap Token.leastChars).count '\x60' ≤ sql.toList.count '\x60' := by
  obtain ⟨ts, tree, rest, hscan, hrun, hs⟩ := Statement.exists_of_ofText h
  rcases Statement.ofTree_eq_ok hs with ⟨query', hquery, htag, hlowered⟩ | ⟨path, table, hload⟩
  · cases hquery
    obtain ⟨scanned, hcount⟩ := Token.scan_isScanned hscan
    obtain ⟨ws, htree, hsub⟩ := keeps_wholeStatement ts tree rest hrun
    obtain ⟨depth, htree⟩ := htree htag
    have hws : ws.Sublist ts := (List.sublist_append_left ws rest).trans hsub
    obtain ⟨shaped, drawn⟩ := (QueryTree.lowersToShaped depth).ofTree tree ws htree
      (fun t ht => scanned t (hws.subset ht)) query hlowered
    have drawnText : DrawnFrom query.tokens ts := drawn.mono hws
    exact ⟨shaped, drawnText.forall_isScanned scanned,
      Nat.le_trans (drawnText.leastChars_sublist.count_le _) hcount⟩
  · cases hload

theorem Query.HasPlainNames.isPlain {query : Query} (plain : query.HasPlainNames)
    (shaped : query.IsShaped) (scanned : ∀ t ∈ query.tokens, t.IsScanned) : query.IsPlain := by
  refine ⟨shaped, ?_⟩
  intro t ht
  have h := scanned t ht
  cases t with
  | ident name => exact plain name ht
  | number text => exact h
  | string text => exact h
  | _ => trivial

theorem Query.IsPlain.hasPlainNames {query : Query} (plain : query.IsPlain) :
    query.HasPlainNames :=
  fun name h => plain.tokens (.ident name) h

/-! ### Counting backticks -/

theorem Token.IsScanned.count_chars_le {t : Token} (h : t.IsScanned) :
    t.chars.count '\x60' ≤ t.leastChars.count '\x60' := by
  cases t with
  | ident name =>
    have hnone : (Token.ident name).chars.count '\x60' = 0 := List.count_eq_zero.2 h
    rw [hnone]
    exact Nat.zero_le _
  | _ => exact Nat.le_refl _

theorem count_chars_le {ts : List Token} (scanned : ∀ t ∈ ts, t.IsScanned) :
    (ts.flatMap Token.chars).count '\x60' ≤ (ts.flatMap Token.leastChars).count '\x60' := by
  induction ts with
  | nil => exact Nat.le_refl _
  | cons t ts ih =>
    rw [List.forall_mem_cons] at scanned
    rw [List.flatMap_cons, List.flatMap_cons, List.count_append, List.count_append]
    exact Nat.add_le_add scanned.1.count_chars_le (ih scanned.2)

/-- A name that needs backticks holds none itself. -/
theorem count_chars_lt {ts : List Token} (scanned : ∀ t ∈ ts, t.IsScanned) {name : String}
    (hname : .ident name ∈ ts) (needs : Token.isPlainName name ≠ true) :
    (ts.flatMap Token.chars).count '\x60' < (ts.flatMap Token.leastChars).count '\x60' := by
  obtain ⟨before, after, rfl⟩ := List.append_of_mem hname
  rw [List.forall_mem_append, List.forall_mem_cons] at scanned
  obtain ⟨scannedBefore, scannedName, scannedAfter⟩ := scanned
  have hbefore := count_chars_le scannedBefore
  have hafter := count_chars_le scannedAfter
  have hnone : (Token.ident name).chars.count '\x60' = 0 := List.count_eq_zero.2 scannedName
  have hone : (Token.ident name).leastChars = ['\x60'] := if_neg needs
  simp only [List.flatMap_append, List.flatMap_cons, List.count_append, hnone, hone,
    List.count_singleton_self]
  omega

/-- Exactly the plain queries are read back from their written forms. Where a name needs backticks,
    what is read has taken more of them from the text than the written form holds. -/
theorem Query.ofText_render_iff {query : Query} :
    Statement.ofText query.render = .ok (.select query) ↔ query.IsPlain := by
  constructor
  · intro h
    obtain ⟨shaped, scanned, hcount⟩ := Query.of_ofText h
    have hcarries : query.render.toList.count '\x60' = _ := query.carries
    refine Query.HasPlainNames.isPlain ?_ shaped scanned
    intro name hname
    by_contra needs
    have hlt := count_chars_lt scanned hname needs
    omega
  · exact Query.IsPlain.ofText_render

/-! ### Analysis of written forms -/

theorem Query.IsPlain.analyzeText_render {schema : Schema} {query query' : Query}
    (plain : query.IsPlain) (typed : query.Typed schema query') :
    Statement.analyzeText schema query'.render = .ok (.select query') := by
  rw [typed.written.2, Statement.analyzeText_eq_ok]
  refine ⟨.select query, plain.ofText_render, ?_⟩
  simp only [Statement.analyze, (Query.analyze_eq_ok_iff schema query query').2 typed]
  rfl

/-- A query that is analyzed from its own written form is plain, apart from its notes. -/
theorem Query.exists_isPlain_of_analyzeText {schema : Schema} {query' : Query}
    (accepted : Statement.analyzeText schema query'.render = .ok (.select query')) :
    ∃ query : Query, query.IsPlain ∧ query.Typed schema query' := by
  rcases Statement.of_analyzeText accepted with ⟨read, _, hquery, hread, typed⟩ | ⟨_, _, hload⟩
  · cases hquery
    rw [typed.written.2, Query.ofText_render_iff] at hread
    exact ⟨read, hread, typed⟩
  · cases hload

/-- No query is written as a `LOAD`. -/
theorem Statement.load_render_ne (path table : String) (query : Query) :
    (Statement.load path table true).render ≠ query.render := by
  have hload : (Statement.load path table true).render.toList.head? = some 'L' := by
    unfold Statement.render
    simp only [String.toList_append, List.head?_append]
    rfl
  have hselect : query.render.toList.head? = some 'S' := by
    obtain ⟨items, where?, groupBy, tables⟩ := query
    unfold Query.render
    simp only [String.toList_append, List.head?_append]
    rfl
  intro h
  rw [h, hselect] at hload
  cases hload

/-- An analyzed query is analyzed again to itself from its written form exactly if none of its names
    needs backticks. All that may be left where one does is another query that happens to be written
    the same and to be protected alike. -/
theorem Statement.analyzeText_render_iff {schema : Schema} {sql : String} {s : Statement}
    {query : Query} (accepted : Statement.analyzeText schema sql = .ok s)
    (selects : s.query? = some query) :
    (Statement.analyzeText schema s.render = .ok s ↔ query.HasPlainNames) ∧
      ((∃ s', Statement.analyzeText schema s.render = .ok s' ∧ s'.render = s.render ∧
          s'.isProtected = s.isProtected) ↔
        ∃ plain noted : Query, plain.IsPlain ∧ plain.Typed schema noted ∧
          noted.render = query.render ∧ noted.isProtected = query.isProtected) := by
  rcases Statement.of_analyzeText accepted with ⟨read, _, rfl, hread, typed⟩ | ⟨_, _, rfl⟩
  · cases selects
    constructor
    · constructor
      · intro again
        obtain ⟨plain, hplain, htyped⟩ := Query.exists_isPlain_of_analyzeText again
        have hnames := hplain.hasPlainNames
        unfold Query.HasPlainNames at hnames ⊢
        rw [htyped.written.1]
        exact hnames
      · intro names
        obtain ⟨shaped, scanned, -⟩ := Query.of_ofText hread
        unfold Query.HasPlainNames at names
        rw [typed.written.1] at names
        exact (Query.HasPlainNames.isPlain names shaped scanned).analyzeText_render typed
    · constructor
      · intro given
        rcases given with ⟨s', again, sameText, sameFlag⟩
        rcases Statement.of_analyzeText again with ⟨_, noted, rfl, -, -⟩ | ⟨path, table, rfl⟩
        · rw [← sameText] at again
          obtain ⟨plain, hplain, htyped⟩ := Query.exists_isPlain_of_analyzeText again
          exact ⟨plain, noted, hplain, htyped, sameText, sameFlag⟩
        · exact absurd sameText (Statement.load_render_ne path table query)
      · intro given
        rcases given with ⟨plain, noted, hplain, htyped, sameText, sameFlag⟩
        have again := hplain.analyzeText_render htyped
        rw [sameText] at again
        exact ⟨.select noted, again, sameText, sameFlag⟩
  · cases selects

/-- Backticks around names that do not need them. -/
theorem Statement.analyzeText_render_without_backticks :
    let a : Column := { name := "a", type := .int, isSensitive := true }
    let schema : Schema := fun name => if name = "t" then some ⟨"t", [a]⟩ else none
    let query : Query :=
      { items := [⟨.field ⟨"", "a", .int, true⟩, some "b"⟩], tables := [⟨.table "t", none, none⟩] }
    Statement.analyzeText schema "SELECT `a` AS `b` FROM `t`" = .ok (.select query) ∧
      Statement.analyzeText schema "SELECT a AS b FROM t" = .ok (.select query) := by
  intro a schema query
  have accepted : Statement.analyzeText schema "SELECT `a` AS `b` FROM `t`" =
      .ok (.select query) := by cbv
  have hrender : (Statement.select query).render = "SELECT a AS b FROM t" := by decide
  have names : query.HasPlainNames := by
    intro name hname
    have hmem : name = "a" ∨ name = "b" ∨ name = "t" := by
      simpa [query, Query.tokens, commaTokens, SelectItem.tokens, Expr.tokens, clauseTokens,
        tableTokens?, linkedTokens, TableRef.sourceTokens, withAliasTokens, Source.tokens,
        groupTokens?] using hname
    rcases hmem with rfl | rfl | rfl <;> decide
  refine ⟨accepted, ?_⟩
  rw [← hrender]
  exact (Statement.analyzeText_render_iff accepted rfl).1.2 names

/-- A column that is named like a keyword is not read back. One with a point in its name is read
    back as another column, which is not protected. -/
theorem Statement.analyzeText_render_with_backticks :
    let schema : Schema := fun name =>
      if name = "t" then
        some ⟨"t", [{ name := "a", type := .int },
          { name := "select", type := .int, isSensitive := true },
          { name := "t.a", type := .int, isSensitive := true }]⟩
      else none
    let selecting (qualifier name : String) (isProtected : Bool) : Query :=
      { items := [⟨.field ⟨qualifier, name, .int, isProtected⟩, none⟩],
        tables := [⟨.table "t", none, none⟩] }
    Statement.analyzeText schema "SELECT `select` FROM t" =
        .ok (.select (selecting "" "select" true)) ∧
      (∀ s, Statement.analyzeText schema (selecting "" "select" true).render ≠ .ok s) ∧
      Statement.analyzeText schema "SELECT `t.a` FROM t" =
        .ok (.select (selecting "" "t.a" true)) ∧
      Statement.analyzeText schema (selecting "" "t.a" true).render =
        .ok (.select (selecting "t" "a" false)) := by
  intro schema selecting
  refine ⟨by cbv, ?_, by cbv, by cbv⟩
  intro s h
  have hrefused : Statement.analyzeText schema (selecting "" "select" true).render =
      .error (.parse (.grammar ⟨.expression,
        [.keyword .SELECT, .keyword .FROM, .ident "t", .eof]⟩)) := by
    cbv
  rw [hrefused] at h
  cases h

end SqlGuard
