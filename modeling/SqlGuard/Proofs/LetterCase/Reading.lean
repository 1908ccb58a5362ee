import SqlGuard.Grammar.Statement
import SqlGuard.Proofs.Grammar.DerivedExpr
import SqlGuard.Proofs.LetterCase.Folding
import SqlGuard.Proofs.Reader.Keeps

/-!
# Letter case in the grammar

The grammar never looks at the letters of names and numbers: from tokens in lower case it reads the
trees that it reads from the tokens as they are, in lower case, and where it refuses, it refuses at
the same token. The combinators of readers keep that. Main statement: `SyntaxTree.ofTokens_folded`.
-/

namespace SqlGuard

open Reader

variable {α β γ δ : Type}

/-! ### Readers -/

/-- A word or a mark, which is met alike in any letter case. -/
def Token.IsFixed (t : Token) : Prop := ∀ t' : Token, t'.folded = t ↔ t' = t

theorem Token.isFixed_keyword (k : Keyword) : IsFixed (.keyword k) := by
  intro t
  cases t <;> simp [folded]

theorem Token.isFixed_mark (m : Mark) : IsFixed (.mark m) := by
  intro t
  cases t <;> simp [folded]

@[simp]
theorem Token.folded_folded (t : Token) : t.folded.folded = t.folded := by
  cases t <;> simp [folded]

/-- From tokens in lower case the second reader reads what the first one reads from the tokens as
    they are, in lower case. -/
def Folds (fold : α → β) (r : TokenReader α) (s : TokenReader β) : Prop :=
  ∀ ts, Mirrors SyntaxError.folded (fun p q => q = (fold p.1, p.2.map Token.folded)) (r.run ts)
    (s.run (ts.map Token.folded))

namespace Folds

variable {fold : α → β} {fold' : γ → δ} {r : TokenReader α} {s : TokenReader β}

theorem pure (a : α) : Folds fold (pure a) (pure (fold a)) := fun _ => .ok rfl

theorem refuse (wanted : Wanted) : Folds fold (refuse wanted) (refuse wanted) := by
  intro ts
  refine .error ?_
  simp [SyntaxError.folded, Function.comp_def]

/-- The second readers are only compared behind what the first ones answer. -/
theorem bind_of_ok {f : α → TokenReader γ} {g : β → TokenReader δ} (h : Folds fold r s)
    (hfg : ∀ ts a rest, r.run ts = .ok (a, rest) → Folds fold' (f a) (g (fold a))) :
    Folds fold' (r >>= f) (s >>= g) := by
  intro ts
  rw [run_bind, run_bind]
  refine (h ts).bind_of_ok fun p q hp hpq => ?_
  subst hpq
  exact hfg ts p.1 p.2 hp p.2

theorem bind {f : α → TokenReader γ} {g : β → TokenReader δ} (h : Folds fold r s)
    (hfg : ∀ a, Folds fold' (f a) (g (fold a))) : Folds fold' (r >>= f) (s >>= g) :=
  h.bind_of_ok fun _ a _ _ => hfg a

theorem map {f : α → γ} {g : β → δ} (h : Folds fold r s) (hfg : ∀ a, g (fold a) = fold' (f a)) :
    Folds fold' (f <$> r) (g <$> s) := by
  refine h.bind fun a => ?_
  show Folds fold' (Pure.pure (f a)) (Pure.pure (g (fold a)))
  rw [hfg]
  exact pure (f a)

theorem look {r : List Token → TokenReader α} {s : List Token → TokenReader β}
    (h : ∀ ts, Folds fold (r ts) (s (ts.map Token.folded))) : Folds fold (look r) (look s) :=
  fun ts => h ts ts

theorem onNext {select : Token → Option (TokenReader α)} {select' : Token → Option (TokenReader β)}
    (hselect : ∀ t, Option.Rel (Folds fold) (select t) (select' t.folded)) (h : Folds fold r s) :
    Folds fold (onNext select r) (onNext select' s) := by
  intro ts
  cases ts with
  | nil => exact h []
  | cons t ts =>
    have hnext := hselect t
    rw [List.map_cons, run_onNext_cons, run_onNext_cons]
    revert hnext
    cases select t <;> cases select' t.folded <;> intro hnext <;> cases hnext
    · exact h (t :: ts)
    · rename_i hrun
      exact hrun ts

theorem chain {ι κ : Type} {start : Token → Option ι} {start' : Token → Option κ}
    {item : ι → TokenReader α} {item' : κ → TokenReader β}
    (hstart : ∀ t, Option.Rel (fun b b' => Folds fold (item b) (item' b')) (start t)
      (start' t.folded)) :
    Folds (List.map fold) (chain start item) (chain start' item')
  | [] => by
    rw [List.map_nil, run_chain_stop nofun, run_chain_stop nofun]
    exact .ok rfl
  | t :: ts => by
    have hnext := hstart t
    rw [List.map_cons]
    match hb : start t, hb' : start' t.folded, hnext with
    | none, none, _ =>
      rw [run_chain_stop (heads_cons.2 hb), run_chain_stop (heads_cons.2 hb')]
      exact .ok rfl
    | some b, some b', .some hitem =>
      rw [run_chain_next hb, run_chain_next hb']
      refine (hitem ts).bind_of_ok fun p q hrun hpq => ?_
      subst hpq
      -- the rounds behind this one start at fewer tokens
      have hshorter := (item b).length_le hrun
      exact (chain hstart p.2).map fun us vs huv => by rw [huv]; rfl
termination_by ts => ts.length

variable {t : Token}

theorem demand (fixed : t.IsFixed) (wanted : Wanted) :
    Folds id (demand t wanted) (demand t wanted) := by
  refine .onNext (fun t' => ?_) (.refuse wanted)
  by_cases h : t' = t
  · simp only [if_pos h, if_pos ((fixed t').2 h)]
    exact .some (.pure ())
  · simp only [if_neg h, if_neg (mt (fixed t').1 h)]
    exact .none

theorem accept (fixed : t.IsFixed) : Folds id (accept t) (accept t) := by
  refine .onNext (fun t' => ?_) (.pure false)
  by_cases h : t' = t
  · simp only [if_pos h, if_pos ((fixed t').2 h)]
    exact .some (.pure true)
  · simp only [if_neg h, if_neg (mt (fixed t').1 h)]
    exact .none

theorem after? (fixed : t.IsFixed) (h : Folds fold r s) :
    Folds (Option.map fold) (after? t r) (after? t s) := by
  refine .onNext (fun t' => ?_) (.pure none)
  by_cases ht : t' = t
  · simp only [if_pos ht, if_pos ((fixed t').2 ht)]
    exact .some (h.map fun _ => rfl)
  · simp only [if_neg ht, if_neg (mt (fixed t').1 ht)]
    exact .none

theorem separatedBy (fixed : t.IsFixed) (h : Folds fold r s) :
    Folds (List.map fold) (separatedBy t r) (separatedBy t s) := by
  refine h.bind fun first => (chain fun t' => ?_).bind fun more => .pure (first :: more)
  by_cases ht : t' = t
  · simp only [if_pos ht, if_pos ((fixed t').2 ht)]
    exact .some h
  · simp only [if_neg ht, if_neg (mt (fixed t').1 ht)]
    exact .none

end Folds

/-! ### Trees -/

namespace Grammar

open SyntaxTree (folded)

theorem folded_numberLiteral (text : String) :
    (numberLiteral text).folded = numberLiteral (Text.folded text) := by
  have hletters : (Text.folded text).toList.reverse.map suffixLetter =
      text.toList.reverse.map suffixLetter := by
    simp [Function.comp_def, ← List.map_reverse]
  unfold numberLiteral
  rw [hletters]
  split <;> rfl

theorem folded_callNode (name : String) (arguments : List SyntaxTree) :
    (callNode name arguments).folded = callNode (Text.folded name) (arguments.map folded) :=
  SyntaxTree.folded_node _ rfl _

theorem folded_aliasLeaves (name? : Option String) :
    (aliasLeaves name?).map folded = aliasLeaves (name?.map Text.folded) := by
  cases name? <;> rfl

theorem folded_leftNested (first : SyntaxTree) (more : List (Tag × SyntaxTree))
    (operators : ∀ step ∈ more, step.1.hasLetters = false) :
    (leftNested first more).folded =
      leftNested first.folded (more.map fun step => (step.1, step.2.folded)) := by
  induction more generalizing first with
  | nil => rfl
  | cons step more ih =>
    obtain ⟨tag, right⟩ := step
    have hmore := ih (.node tag [first, right]) fun step hstep =>
      operators step (List.mem_cons_of_mem _ hstep)
    rw [SyntaxTree.folded_node tag (operators (tag, right) List.mem_cons_self)] at hmore
    exact hmore

/-- The join, its trees in lower case. -/
def JoinStep.folded (step : JoinStep) : JoinStep where
  op := step.op
  right := step.right.folded
  on? := step.on?.map SyntaxTree.folded

theorem folded_joinTree (first : SyntaxTree) (steps : List JoinStep) :
    (joinTree first steps).folded = joinTree first.folded (steps.map JoinStep.folded) := by
  induction steps generalizing first with
  | nil => rfl
  | cons step steps ih =>
    obtain ⟨op, right, on?⟩ := step
    have hjoin : (SyntaxTree.node (.join op) (first :: right :: on?.toList)).folded =
        .node (.join op) (first.folded :: right.folded :: (on?.map SyntaxTree.folded).toList) := by
      rw [SyntaxTree.folded_node _ rfl]
      cases on? <;> rfl
    have hmore := ih (.node (.join op) (first :: right :: on?.toList))
    rw [hjoin] at hmore
    exact hmore

theorem folded_queryNode (destination : SyntaxTree) (items : List SyntaxTree)
    (from? where? : Option SyntaxTree) (group? : Option (List SyntaxTree)) :
    (queryNode destination items from? where? group?).folded =
      queryNode destination.folded (items.map folded) (from?.map folded) (where?.map folded)
        (group?.map (List.map folded)) := by
  cases from? <;> cases where? <;> cases group? <;> simp (disch := decide) [queryNode]

/-! ### Expressions -/

theorem folds_identifier : Folds Text.folded identifier identifier := by
  refine .onNext (fun t => ?_) (.refuse _)
  cases t with
  | ident name => exact .some (.pure name)
  | _ => exact .none

theorem folds_mark (m : Mark) : Folds id (expect (.mark m)) (expect (.mark m)) :=
  .demand (Token.isFixed_mark m) _

theorem folds_keyword (k : Keyword) : Folds id (expect (.keyword k)) (expect (.keyword k)) :=
  .demand (Token.isFixed_keyword k) _

theorem folds_alias? : Folds (Option.map Text.folded) alias? alias? := by
  refine .onNext (fun t => ?_) (.pure none)
  cases t with
  | keyword k =>
    cases k with
    | AS => exact .some (folds_identifier.map fun _ => rfl)
    | _ => exact .none
  | ident name => exact .some (.pure (some name))
  | _ => exact .none

theorem startsStar_map (ts : List Token) : startsStar (ts.map Token.folded) = startsStar ts := by
  match ts with
  | [] => rfl
  | [t] => cases t <;> rfl
  | .mark m :: u :: ts =>
    cases m with
    | asterisk =>
      cases u with
      | mark m => cases m <;> rfl
      | _ => rfl
    | _ => rfl
  | .keyword _ :: _ :: _ | .ident _ :: _ :: _ | .number _ :: _ :: _ | .string _ :: _ :: _
  | .eof :: _ :: _ => rfl

variable {r : TokenReader SyntaxTree}

theorem folds_call (h : Folds folded r r) (name : String) :
    Folds folded (call r name) (call r (Text.folded name)) := by
  refine .look fun ts => ?_
  rw [startsStar_map]
  cases startsStar ts with
  | true =>
    exact (folds_mark _).bind fun _ =>
      (folds_mark _).bind fun _ => .pure (starCallNode name)
  | false =>
    refine (Folds.accept (Token.isFixed_mark .rparen)).bind fun closed => ?_
    cases closed with
    | true =>
      show Folds folded (pure (callNode name [])) (pure (callNode (Text.folded name) []))
      rw [← List.map_nil, ← folded_callNode name []]
      exact .pure _
    | false =>
      refine (Folds.separatedBy (Token.isFixed_mark .comma) h).bind fun arguments => ?_
      refine (folds_mark _).bind fun _ => ?_
      rw [← folded_callNode]
      exact .pure _

theorem folds_named (h : Folds folded r r) (name : String) :
    Folds folded (named r name) (named r (Text.folded name)) := by
  refine .onNext (fun t => ?_) (.pure (columnNode name))
  cases t with
  | mark m =>
    cases m with
    | lparen => exact .some (folds_call h name)
    | dot => exact .some (folds_identifier.map fun _ => rfl)
    | _ => exact .none
  | _ => exact .none

theorem folds_operand (h : Folds folded r r) : Folds folded (operand r) (operand r) := by
  refine .onNext (fun t => ?_) (.refuse _)
  cases t with
  | number text =>
    refine .some ?_
    rw [← folded_numberLiteral]
    exact .pure _
  | string text => exact .some (.pure (SyntaxTree.leaf .stringLiteral text))
  | ident name => exact .some (folds_named h name)
  | mark m =>
    cases m with
    | lparen =>
      exact .some (h.bind fun e => (folds_mark _).bind fun _ => .pure e)
    | _ => exact .none
  | _ => exact .none

theorem folds_signed (h : Folds folded r r) : Folds folded (signed r) (signed r) := by
  intro ts
  show Mirrors _ _ (signedRun r ts) (signedRun r (ts.map Token.folded))
  induction ts using signedRun.induct with
  | case1 text ts =>
    refine .ok ?_
    have hsign : Text.folded ("-" ++ text) = "-" ++ Text.folded text := by
      rw [← String.toList_inj]
      simp
    rw [folded_numberLiteral, hsign]
  | case2 ts hnumber ih =>
    have hnumber' : ∀ text us, ts.map Token.folded = .number text :: us → False := by
      intro text us heq
      obtain ⟨t, us', rfl, ht, -⟩ := List.map_eq_cons_iff.1 heq
      cases t <;> cases ht
      exact hnumber _ _ rfl
    rw [List.map_cons, (Token.isFixed_mark .minus _).2 rfl, signedRun, signedRun]
    · refine ih.map fun p q hpq => ?_
      rw [hpq]
      rfl
    · exact hnumber'
    · exact hnumber
  | case3 ts h1 h2 =>
    have h2' : ∀ us, ts.map Token.folded = .mark .minus :: us → False := by
      intro us heq
      obtain ⟨t, us', rfl, ht, -⟩ := List.map_eq_cons_iff.1 heq
      exact h2 us' (by rw [(Token.isFixed_mark .minus t).1 ht])
    rw [signedRun, signedRun]
    · exact folds_operand h ts
    · exact fun text us heq => h2' _ heq
    · exact h2'
    · exact h1
    · exact h2

theorem folds_joined {operators : List (Token × Tag)} {operator : Token → Option Tag}
    (lists : Derivation.Lists operators operator)
    (noLetters : ∀ p ∈ operators, p.2.hasLetters = false)
    (alike : ∀ t, operator t.folded = operator t) (h : Folds folded r r) :
    Folds folded (joined operator r) (joined operator r) := by
  have hchain : Folds (List.map fun step : Tag × SyntaxTree => (step.1, step.2.folded))
      (chain operator fun tag => (tag, ·) <$> r) (chain operator fun tag => (tag, ·) <$> r) := by
    refine .chain fun t => ?_
    rw [alike]
    cases operator t with
    | none => exact .none
    | some tag => exact .some (h.map fun _ => rfl)
  -- nodes of operators are no names, so only their operands change
  have htags : Keeps (chain operator fun tag => (tag, ·) <$> r)
      (KeptList fun step _ => step.1.hasLetters = false) :=
    Keeps.chain fun t tag htag => (keeps_any r).map fun _ _ _ => noLetters _ ((lists t tag).1 htag)
  refine h.bind fun first => hchain.bind_of_ok fun ts more rest hrun => ?_
  obtain ⟨ws, hmore, -⟩ := htags ts more rest hrun
  rw [← folded_leftNested first more (hmore.forall_mem fun _ _ => id)]
  exact .pure _

theorem folds_sum (h : Folds folded r r) : Folds folded (sum r) (sum r) :=
  folds_joined Derivation.lists_sums (by decide) (fun t => by cases t <;> rfl) <|
    folds_joined Derivation.lists_products (by decide) (fun t => by cases t <;> rfl) <|
      folds_signed h

theorem folds_comparison (h : Folds folded r r) :
    Folds folded (comparison r) (comparison r) := by
  refine (folds_sum h).bind fun left => .onNext (fun t => ?_) (.pure left)
  have alike : comparisonOperator t.folded = comparisonOperator t := by cases t <;> rfl
  rw [alike]
  cases htag : comparisonOperator t with
  | none => exact .none
  | some tag =>
    have noLetters : ∀ p ∈ Derivation.comparisonOperators, p.2.hasLetters = false := by decide
    refine .some ((folds_sum h).bind fun right => ?_)
    have hnode := SyntaxTree.folded_node tag
      (noLetters _ ((Derivation.lists_comparisons t tag).1 htag)) [left, right]
    rw [List.map_cons, List.map_cons, List.map_nil] at hnode
    rw [← hnode]
    exact .pure _

theorem folds_disjunction (h : Folds folded r r) : Folds folded (disjunction r) (disjunction r) :=
  folds_joined Derivation.lists_or (by decide) (fun t => by cases t <;> rfl) <|
    folds_joined Derivation.lists_and (by decide) (fun t => by cases t <;> rfl) <|
      folds_comparison h

theorem folds_expression : Folds folded expression expression := by
  have hdepth : ∀ depth, Folds folded (expressionTo depth) (expressionTo depth) := by
    intro depth
    induction depth with
    | zero => exact .refuse _
    | succ depth ih => exact folds_disjunction (.look fun _ => ih)
  refine .look fun ts => ?_
  rw [List.length_map]
  exact hdepth ts.length

/-! ### Queries -/

/-- An item that has an alias where it has one. -/
theorem folds_aliased {tag : Tag} (noLetters : tag.hasLetters = false) (item : SyntaxTree) :
    Folds folded (do return .node tag (item :: aliasLeaves (← alias?)))
      (do return .node tag (item.folded :: aliasLeaves (← alias?))) := by
  refine folds_alias?.bind fun name? => ?_
  rw [← folded_aliasLeaves, ← List.map_cons, ← SyntaxTree.folded_node tag noLetters]
  exact .pure _

theorem folds_selectItem : Folds folded selectItem selectItem := by
  refine .onNext (fun t => ?_) (folds_expression.bind fun e => folds_aliased rfl e)
  cases t with
  | mark m =>
    cases m with
    | asterisk => exact .some (.pure allColumnsNode)
    | _ => exact .none
  | _ => exact .none

theorem folds_tableName : Folds folded tableName tableName := by
  refine folds_identifier.bind fun first =>
    (Folds.after? (Token.isFixed_mark .dot) folds_identifier).bind fun second? => ?_
  have hname : SyntaxTree.folded (.node .tableName (nameLeaf first :: aliasLeaves second?)) =
      .node .tableName (nameLeaf (Text.folded first) :: aliasLeaves (second?.map Text.folded)) := by
    rw [SyntaxTree.folded_node _ rfl, List.map_cons, folded_aliasLeaves]
    rfl
  rw [← hname]
  exact .pure _

theorem folds_outerJoin (op : JoinOp) : Folds id (outerJoin op) (outerJoin op) :=
  (Folds.accept (Token.isFixed_keyword .OUTER)).bind fun _ =>
    (folds_keyword .JOIN).bind fun _ => .pure op

theorem folds_plainJoin (op : JoinOp) : Folds id (plainJoin op) (plainJoin op) :=
  (folds_keyword .JOIN).bind fun _ => .pure op

theorem folds_joinWords (t : Token) :
    Option.Rel (Folds id) (joinWords t) (joinWords t.folded) := by
  cases t with
  | keyword k =>
    cases k with
    | JOIN => exact .some (.pure JoinOp.inner)
    | INNER => exact .some (folds_plainJoin .inner)
    | LEFT => exact .some (folds_outerJoin .leftOuter)
    | RIGHT => exact .some (folds_outerJoin .rightOuter)
    | FULL => exact .some (folds_outerJoin .fullOuter)
    | CROSS => exact .some (folds_plainJoin .cross)
    | _ => exact .none
  | _ => exact .none

theorem folds_source (h : Folds folded r r) : Folds folded (source r) (source r) := by
  refine .onNext (fun t => ?_) (folds_tableName.bind fun table => folds_aliased rfl table)
  cases t with
  | mark m =>
    cases m with
    | lparen =>
      exact .some (h.bind fun query => (folds_mark .rparen).bind fun _ =>
        folds_aliased rfl query)
    | _ => exact .none
  | _ => exact .none

theorem folds_fromElement (h : Folds folded r r) :
    Folds folded (fromElement r) (fromElement r) := by
  have hstep : ∀ words words', Folds id words words' →
      Folds JoinStep.folded (joinStep r words) (joinStep r words') := fun _ _ hwords =>
    hwords.bind fun op => (folds_source h).bind fun right =>
      (Folds.after? (Token.isFixed_keyword .ON) folds_expression).bind fun on? =>
        .pure (JoinStep.mk op right on?)
  have hchain : Folds (List.map JoinStep.folded) (chain joinWords (joinStep r))
      (chain joinWords (joinStep r)) := by
    refine .chain fun t => ?_
    have hwords := folds_joinWords t
    revert hwords
    cases joinWords t <;> cases joinWords t.folded <;> intro hwords <;> cases hwords
    · exact .none
    · rename_i hwords
      exact .some (hstep _ _ hwords)
  refine (folds_source h).bind fun first => hchain.bind fun steps => ?_
  rw [← folded_joinTree]
  exact .pure _

theorem folds_queryOver (h : Folds folded r r) (destination : SyntaxTree) :
    Folds folded (queryOver r destination) (queryOver r destination.folded) := by
  refine (Folds.separatedBy (Token.isFixed_mark .comma) folds_selectItem).bind fun items => ?_
  refine (Folds.after? (Token.isFixed_keyword .FROM) (folds_fromElement h)).bind fun from? => ?_
  refine (Folds.after? (Token.isFixed_keyword .WHERE) folds_expression).bind fun where? => ?_
  have hgroup : Folds (List.map folded)
      (do expect (.keyword .BY); commaSeparated expression)
      (do expect (.keyword .BY); commaSeparated expression) :=
    (folds_keyword .BY).bind fun _ =>
      .separatedBy (Token.isFixed_mark .comma) folds_expression
  refine (Folds.after? (Token.isFixed_keyword .GROUP) hgroup).bind fun group? => ?_
  rw [← folded_queryNode]
  exact .pure _

theorem folds_query (destination : SyntaxTree) :
    Folds folded (query destination) (query destination.folded) := by
  have hdepth : ∀ depth destination,
      Folds folded (queryTo destination depth) (queryTo destination.folded depth) := by
    intro depth
    induction depth with
    | zero => exact fun _ => .refuse _
    | succ depth ih =>
      exact fun destination => (folds_keyword .SELECT).bind fun _ =>
        folds_queryOver (.look fun _ => ih tempDestination) destination
  refine .look fun ts => ?_
  rw [List.length_map]
  exact hdepth ts.length destination

/-! ### Statements -/

theorem folds_insert : Folds folded insert insert := by
  refine (folds_keyword .OVERWRITE).bind fun _ =>
    (folds_keyword .TABLE).bind fun _ => folds_tableName.bind fun table => ?_
  have hdestination : SyntaxTree.folded (.node .targetTable [table]) =
      .node .targetTable [table.folded] := SyntaxTree.folded_node _ rfl _
  rw [← hdestination]
  exact folds_query _

/-- The path of a file is a string, in which letter case counts. -/
theorem folds_path : Folds id path path := by
  refine .onNext (fun t => ?_) (.refuse _)
  cases t with
  | string text => exact .some (.pure text)
  | _ => exact .none

theorem folds_load : Folds folded load load := by
  refine (folds_keyword .DATA).bind fun _ =>
    (Folds.accept (Token.isFixed_keyword .LOCAL)).bind fun isLocal =>
    (folds_keyword .INPATH).bind fun _ => folds_path.bind fun file =>
    (Folds.accept (Token.isFixed_keyword .OVERWRITE)).bind fun overwrite =>
    (folds_keyword .INTO).bind fun _ =>
    (folds_keyword .TABLE).bind fun _ => folds_tableName.bind fun table => ?_
  have hload : SyntaxTree.folded (.node .load <|
      [.leaf .stringLiteral file, .node .targetTable [table]] ++
        (if isLocal then [.leaf .localFlag "LOCAL"] else []) ++
        (if overwrite then [.leaf .overwriteFlag "OVERWRITE"] else [])) =
      .node .load ([.leaf .stringLiteral file, .node .targetTable [table.folded]] ++
        (if isLocal then [.leaf .localFlag "LOCAL"] else []) ++
        (if overwrite then [.leaf .overwriteFlag "OVERWRITE"] else [])) := by
    rw [SyntaxTree.folded_node _ rfl]
    cases isLocal <;> cases overwrite <;> rfl
  exact hload ▸ .pure _

theorem folds_statement : Folds folded statement statement := by
  have hquery := folds_query tempDestination
  have hinsert : Folds folded (expect (.keyword .INSERT) *> insert)
      (expect (.keyword .INSERT) *> insert) :=
    (folds_keyword .INSERT).bind fun _ => folds_insert
  have hload : Folds folded (expect (.keyword .LOAD) *> load) (expect (.keyword .LOAD) *> load) :=
    (folds_keyword .LOAD).bind fun _ => folds_load
  refine .look fun ts => ?_
  match ts with
  | [] => exact .refuse _
  | .keyword k :: _ =>
    cases k with
    | SELECT => exact hquery
    | INSERT => exact hinsert
    | LOAD => exact hload
    | _ => exact .refuse _
  | .mark _ :: _ | .ident _ :: _ | .number _ :: _ | .string _ :: _ | .eof :: _ => exact .refuse _

theorem folds_atEnd : Folds id atEnd atEnd := by
  refine .look fun ts => ?_
  have hend : (ts.map Token.folded).headD .eof = .eof ↔ ts.headD .eof = .eof := by
    cases ts with
    | nil => rfl
    | cons t ts => cases t <;> simp [Token.folded]
  by_cases h : ts.headD .eof = .eof
  · rw [if_pos h, if_pos (hend.2 h)]
    exact .pure ()
  · rw [if_neg h, if_neg (mt hend.1 h)]
    exact .refuse _

theorem folds_wholeStatement : Folds folded wholeStatement wholeStatement :=
  folds_statement.bind fun tree => (Folds.accept (Token.isFixed_mark .semicolon)).bind fun _ =>
    folds_atEnd.bind fun _ => .pure tree

end Grammar

/-- Tokens in lower case are the statement that they are as they are, in lower case. -/
theorem SyntaxTree.ofTokens_folded (ts : List Token) :
    Mirrors SyntaxError.folded (fun tree tree' => tree' = folded tree) (ofTokens ts)
      (ofTokens (ts.map Token.folded)) :=
  (Grammar.folds_wholeStatement ts).map fun p q hpq => by rw [hpq]

end SqlGuard
