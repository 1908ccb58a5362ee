import SqlGuard.Proofs.Grammar.Expression
import SqlGuard.Proofs.Grammar.Reads

/-!
# Expressions are read as they are derived

Each level of expressions is read as it is derived if what it encloses is. Main statements:
`reads_expression` and `takes_expression`.
-/

namespace SqlGuard

open Reader Grammar

/-- The token may start an operand. -/
def Token.StartsOperand (t : Token) : Prop :=
  t ≠ .mark .asterisk ∧ t ≠ .mark .rparen ∧ t ≠ .mark .minus

/-- The token may start an expression. -/
def Token.StartsExpr (t : Token) : Prop := t ≠ .mark .asterisk ∧ t ≠ .mark .rparen

instance (t : Token) : Decidable t.StartsOperand := inferInstanceAs (Decidable (_ ∧ _ ∧ _))

instance (t : Token) : Decidable t.StartsExpr := inferInstanceAs (Decidable (_ ∧ _))

namespace Derivation

variable {r inner : TokenReader SyntaxTree} {L E O : Language SyntaxTree} {Ends : Token → Prop}

/-! ### Levels of operators -/

/-- The operators of a list are those that a function knows. -/
def Lists (operators : List (Token × Tag)) (operator : Token → Option Tag) : Prop :=
  ∀ t tag, operator t = some tag ↔ (t, tag) ∈ operators

theorem lists_products : Lists productOperators productOperator := by
  intro t tag
  constructor
  · intro h
    unfold productOperator at h
    split at h <;> cases h <;> decide
  · intro h
    simp only [productOperators, List.mem_cons, List.not_mem_nil, Prod.mk.injEq, or_false] at h
    rcases h with ⟨rfl, rfl⟩ | ⟨rfl, rfl⟩ <;> rfl

theorem lists_sums : Lists sumOperators sumOperator := by
  intro t tag
  constructor
  · intro h
    unfold sumOperator at h
    split at h <;> cases h <;> decide
  · intro h
    simp only [sumOperators, List.mem_cons, List.not_mem_nil, Prod.mk.injEq, or_false] at h
    rcases h with ⟨rfl, rfl⟩ | ⟨rfl, rfl⟩ <;> rfl

theorem lists_comparisons : Lists comparisonOperators comparisonOperator := by
  intro t tag
  constructor
  · intro h
    unfold comparisonOperator at h
    split at h <;> cases h <;> decide
  · intro h
    simp only [comparisonOperators, List.mem_cons, List.not_mem_nil, Prod.mk.injEq, or_false] at h
    rcases h with ⟨rfl, rfl⟩ | ⟨rfl, rfl⟩ | ⟨rfl, rfl⟩ | ⟨rfl, rfl⟩ | ⟨rfl, rfl⟩ | ⟨rfl, rfl⟩ <;>
      rfl

theorem lists_and : Lists andOperators andOperator := by
  intro t tag
  constructor
  · intro h
    unfold andOperator at h
    split at h <;> cases h
    decide
  · intro h
    cases List.mem_singleton.1 h
    rfl

theorem lists_or : Lists orOperators orOperator := by
  intro t tag
  constructor
  · intro h
    unfold orOperator at h
    split at h <;> cases h
    decide
  · intro h
    cases List.mem_singleton.1 h
    rfl

theorem readsSteps_joined {operators : List (Token × Tag)} {operator : Token → Option Tag}
    (lists : Lists operators operator) (h : Reads r L Ends)
    (ends : ∀ p ∈ operators, Ends p.1) :
    ReadsSteps operator (fun tag => (tag, ·) <$> r) (Infix operators L) Ends where
  complete d := by
    cases d with
    | @mk t tag ws right hop operand =>
      exact ⟨t, ws, tag, rfl, ends (t, tag) hop, (lists t tag).2 hop,
        fun hrest => run_map_ok (h.complete operand hrest)⟩
  unique := by
    rintro ⟨_, _, ⟨hop, operand⟩⟩ ⟨_, _, ⟨hop', operand'⟩⟩ same
    obtain ⟨rfl, hws⟩ := List.cons.inj same
    cases h.unique ⟨_, _, operand⟩ ⟨_, _, operand'⟩ hws
    have htag := ((lists _ _).2 hop).symm.trans ((lists _ _).2 hop')
    cases htag
    rfl

theorem reads_joined {operators : List (Token × Tag)} {operator : Token → Option Tag}
    (lists : Lists operators operator) (h : Reads r L Ends)
    (ends : ∀ p ∈ operators, Ends p.1) :
    Reads (joined operator r) (Joined operators L) fun t => Ends t ∧ operator t = none :=
  reads_nested h (readsSteps_joined lists h ends) rfl

theorem takes_joined {operators : List (Token × Tag)} {operator : Token → Option Tag}
    (lists : Lists operators operator) (h : Takes r (Derives L)) :
    Takes (joined operator r) (Derives (Joined operators L)) := by
  refine takes_nested h (fun t tag htag => ?_) rfl
  refine h.map fun right ws hright => ?_
  obtain ⟨d⟩ := hright
  exact ⟨.mk ((lists t tag).1 htag) d⟩

/-! ### Operands -/

theorem startsStar_of_heads {ts : List Token} (h : Heads (· ≠ .mark .asterisk) ts) :
    startsStar ts = false := by
  cases ts with
  | nil => rfl
  | cons t ts =>
    have ht : t ≠ .mark .asterisk := h t rfl
    unfold startsStar
    split
    · rename_i heq
      cases heq
      exact absurd rfl ht
    · rfl

theorem call_run (h : Reads inner E Token.EndsExpr) (starts : Starts E Token.StartsExpr)
    (name : String) {ws : List Token} {arguments : List SyntaxTree} (d : Listed E ws arguments)
    (rest : List Token) :
    (call inner name).run (ws ++ .mark .rparen :: rest) = .ok (callNode name arguments, rest) := by
  have heads := (starts_listed starts).heads d (.mark .rparen :: rest)
  have hlisted : (commaSeparated inner).run (ws ++ .mark .rparen :: rest) =
      .ok (arguments, .mark .rparen :: rest) :=
    listed_run h (by decide) d (heads_cons.2 (by decide))
  have hstar : startsStar (ws ++ .mark .rparen :: rest) = false :=
    startsStar_of_heads (heads.mono fun _ ht => ht.1)
  have hclosed : (accept (.mark .rparen) : TokenReader Bool).run (ws ++ .mark .rparen :: rest) =
      .ok (false, ws ++ .mark .rparen :: rest) :=
    run_accept_none (heads.mono fun _ ht => ht.2)
  simp only [call, look, hstar, Bool.false_eq_true, if_false]
  rw [run_bind_ok hclosed]
  simp only [Bool.false_eq_true, if_false]
  rw [run_bind_ok hlisted, expect, run_bind_ok run_demand]
  rfl

theorem starts_operand : Starts (Operand E) Token.StartsOperand := by
  intro ws e d
  cases d with
  | number text => exact ⟨_, _, rfl, by simp [Token.StartsOperand]⟩
  | string text => exact ⟨_, _, rfl, by simp [Token.StartsOperand]⟩
  | column name => exact ⟨_, _, rfl, by simp [Token.StartsOperand]⟩
  | qualified qualifier name => exact ⟨_, _, rfl, by simp [Token.StartsOperand]⟩
  | starCall name => exact ⟨_, _, rfl, by simp [Token.StartsOperand]⟩
  | emptyCall name => exact ⟨_, _, rfl, by simp [Token.StartsOperand]⟩
  | call name listed => exact ⟨_, _, rfl, by simp [Token.StartsOperand]⟩
  | enclosed inner => exact ⟨_, _, rfl, by decide⟩

theorem operand_unique (h : Reads inner E Token.EndsExpr) (starts : Starts E Token.StartsExpr)
    (p q : Parse (Operand E)) (same : p.tokens = q.tokens) : p = q := by
  obtain ⟨_, _, d⟩ := p
  obtain ⟨_, _, e⟩ := q
  have nonempty : ∀ {ws : List Token} {arguments : List SyntaxTree}, Listed E ws arguments →
      [.mark .rparen] ≠ ws ++ [.mark .rparen] ∧
        [.mark .asterisk, .mark .rparen] ≠ ws ++ [.mark .rparen] := by
    intro ws arguments listed
    obtain ⟨t, us, rfl, hasterisk, hrparen⟩ := starts_listed starts _ _ listed
    constructor
    · intro heq
      exact hrparen (List.cons.inj heq).1.symm
    · intro heq
      exact hasterisk (List.cons.inj heq).1.symm
  cases d with
  | number text => cases e <;> cases same; rfl
  | string text => cases e <;> cases same; rfl
  | column name => cases e <;> cases same; rfl
  | qualified qualifier name => cases e <;> cases same; rfl
  | starCall name =>
    cases e with
    | starCall name' => cases same; rfl
    | call name' listed => exact absurd (List.cons.inj (List.cons.inj same).2).2 (nonempty listed).2
    | _ => cases same
  | emptyCall name =>
    cases e with
    | emptyCall name' => cases same; rfl
    | call name' listed => exact absurd (List.cons.inj (List.cons.inj same).2).2 (nonempty listed).1
    | _ => cases same
  | call name listed =>
    cases e with
    | starCall name' =>
      exact absurd (List.cons.inj (List.cons.inj same).2).2.symm (nonempty listed).2
    | emptyCall name' =>
      exact absurd (List.cons.inj (List.cons.inj same).2).2.symm (nonempty listed).1
    | call name' listed' =>
      obtain ⟨hname, hrest⟩ := List.cons.inj same
      cases hname
      have hws := List.append_cancel_right (List.cons.inj hrest).2
      cases (reads_listed h (by decide)).unique ⟨_, _, listed⟩ ⟨_, _, listed'⟩ hws
      rfl
    | _ => cases same
  | enclosed inner =>
    cases e with
    | enclosed inner' =>
      have hws := List.append_cancel_right (List.cons.inj same).2
      cases h.unique ⟨_, _, inner⟩ ⟨_, _, inner'⟩ hws
      rfl
    | _ => cases same

theorem reads_operand (h : Reads inner E Token.EndsExpr) (starts : Starts E Token.StartsExpr) :
    Reads (operand inner) (Operand E) Token.EndsName where
  complete d rest ends := by
    cases d with
    | number text => rfl
    | string text => rfl
    | column name => exact run_named_column ends
    | qualified qualifier name => rfl
    | starCall name => rfl
    | emptyCall name => rfl
    | @call name ws arguments listed =>
      have htokens : .ident name :: .mark .lparen :: (ws ++ [.mark .rparen]) ++ rest =
          .ident name :: .mark .lparen :: (ws ++ .mark .rparen :: rest) := by simp
      rw [htokens]
      exact call_run h starts name listed rest
    | @enclosed ws e d =>
      have htokens : .mark .lparen :: (ws ++ [.mark .rparen]) ++ rest =
          .mark .lparen :: (ws ++ .mark .rparen :: rest) := by simp
      have hinner := h.run_before d (show Token.EndsExpr (.mark .rparen) by decide) rest
      rw [htokens, operand, run_onNext_some rfl, run_bind_ok hinner, expect, run_bind_ok run_demand]
      rfl
  unique := operand_unique h starts

/-- The rest of a call derives it behind its name and parenthesis. -/
theorem takes_call (h : Takes inner (Derives E)) (name : String) :
    Takes (call inner name) fun e ws =>
      Derives (Operand E) e (.ident name :: .mark .lparen :: ws) := by
  refine takes_look fun ts => ?_
  split
  · refine takes_demand.bind fun _ ws hws => takes_demand.bind fun _ us hus => takes_pure ?_
    rw [hws, hus]
    exact ⟨.starCall name⟩
  · refine takes_accept.bind fun closed ws hws => ?_
    rw [hws]
    cases closed with
    | true => exact takes_pure ⟨.emptyCall name⟩
    | false =>
      refine (takes_listed h).bind fun arguments us hus => takes_demand.bind fun _ vs hvs =>
        takes_pure ?_
      obtain ⟨d⟩ := hus
      rw [hvs]
      exact ⟨.call name d⟩

theorem takes_identifier : Takes identifier fun name ws => ws = [.ident name] := by
  refine Takes.onNext ?_ takes_refuse
  intro t r hr
  split at hr
  · cases hr
    exact takes_pure rfl
  · cases hr

theorem takes_named (h : Takes inner (Derives E)) (name : String) :
    Takes (named inner name) fun e ws => Derives (Operand E) e (.ident name :: ws) := by
  refine Takes.onNext ?_ (takes_pure ⟨.column name⟩)
  intro t r hr
  split at hr
  · cases hr
    exact takes_call h name
  · cases hr
    refine takes_identifier.map fun column ws hws => ?_
    rw [hws]
    exact ⟨.qualified name column⟩
  · cases hr

theorem takes_operand (h : Takes inner (Derives E)) :
    Takes (operand inner) (Derives (Operand E)) := by
  refine Takes.onNext ?_ takes_refuse
  intro t r hr
  split at hr
  · cases hr
    exact takes_pure ⟨.number _⟩
  · cases hr
    exact takes_pure ⟨.string _⟩
  · cases hr
    exact takes_named h _
  · cases hr
    refine h.bind fun e ws hws => takes_demand.bind fun _ us hus => takes_pure ?_
    obtain ⟨d⟩ := hws
    rw [hus]
    exact ⟨.enclosed d⟩
  · cases hr

/-! ### Signs -/

theorem starts_signed (starts : Starts O Token.StartsOperand) :
    Starts (Signed O) Token.StartsExpr := by
  intro ws e d
  cases d with
  | negative text => exact ⟨_, _, rfl, by decide⟩
  | negated noNumber signed => exact ⟨_, _, rfl, by decide⟩
  | operand operand =>
    obtain ⟨t, us, rfl, ht⟩ := starts _ _ operand
    exact ⟨t, us, rfl, ht.1, ht.2.1⟩

theorem signedRun_operand {ts : List Token} (h : Heads (· ≠ .mark .minus) ts) :
    signedRun inner ts = (operand inner).run ts := by
  cases ts with
  | nil => rw [signedRun] <;> simp
  | cons t ts =>
    have ht : t ≠ .mark .minus := h t rfl
    rw [signedRun] <;> simp [ht]

theorem signedRun_minus {ts : List Token} (h : ∀ text us, ts ≠ .number text :: us) :
    signedRun inner (.mark .minus :: ts) =
      (signedRun inner ts).map fun (e, rest) => (.node (.arith .sub) [e], rest) := by
  rw [signedRun]
  exact h

theorem signed_run (h : Reads (operand inner) O Ends) (starts : Starts O Token.StartsOperand)
    {ws rest : List Token} {e : SyntaxTree} (d : Signed O ws e) (ends : Heads Ends rest) :
    (signed inner).run (ws ++ rest) = .ok (e, rest) := by
  show signedRun inner (ws ++ rest) = _
  induction d with
  | negative text => rfl
  | negated noNumber signed ih =>
    obtain ⟨t, us, rfl, -⟩ := starts_signed starts _ _ signed
    have hnumber : ∀ text vs, t :: us ++ rest ≠ .number text :: vs := by
      intro text vs heq
      cases heq
      exact noNumber text us rfl
    rw [List.cons_append, signedRun_minus hnumber, ih]
    rfl
  | operand operand =>
    have heads := starts.heads operand rest
    rw [signedRun_operand (heads.mono fun _ ht => ht.2.2)]
    exact h.complete operand ends

theorem signed_unique (h : Reads (operand inner) O Ends) (starts : Starts O Token.StartsOperand)
    {ws : List Token} {e : SyntaxTree} (d : Signed O ws e) (q : Parse (Signed O))
    (same : ws = q.tokens) : ⟨ws, e, d⟩ = q := by
  have noMinus : ∀ {ws us : List Token} {e : SyntaxTree}, O ws e → ws ≠ .mark .minus :: us := by
    intro ws us e operand heq
    obtain ⟨t, vs, rfl, -, -, ht⟩ := starts _ _ operand
    exact ht (List.cons.inj heq).1
  induction d generalizing q with
  | negative text =>
    obtain ⟨_, _, e⟩ := q
    cases e with
    | negative text' =>
      cases same
      rfl
    | negated noNumber signed => exact absurd (List.cons.inj same).2.symm (noNumber text [])
    | operand operand => exact absurd same.symm (noMinus operand)
  | negated noNumber signed ih =>
    obtain ⟨_, _, e⟩ := q
    cases e with
    | negative text => exact absurd (List.cons.inj same).2 (noNumber text [])
    | negated noNumber' signed' =>
      cases ih ⟨_, _, signed'⟩ (List.cons.inj same).2
      rfl
    | operand operand => exact absurd same.symm (noMinus operand)
  | operand operand =>
    obtain ⟨_, _, e⟩ := q
    cases e with
    | negative text => exact absurd same (noMinus operand)
    | negated noNumber signed => exact absurd same (noMinus operand)
    | operand operand' =>
      cases h.unique ⟨_, _, operand⟩ ⟨_, _, operand'⟩ same
      rfl

theorem reads_signed (h : Reads (operand inner) O Ends) (starts : Starts O Token.StartsOperand) :
    Reads (signed inner) (Signed O) Ends where
  complete d _ ends := signed_run h starts d ends
  unique p q same := signed_unique h starts p.derivation q same

theorem takes_signed (h : Takes (operand inner) (Derives O)) :
    Takes (signed inner) (Derives (Signed O)) := by
  intro ts e rest hrun
  replace hrun : signedRun inner ts = .ok (e, rest) := hrun
  induction ts using signedRun.induct generalizing e rest with
  | case1 text ts =>
    rw [signedRun] at hrun
    cases hrun
    exact ⟨_, ⟨.negative text⟩, rfl⟩
  | case2 ts hnumber ih =>
    rw [signedRun_minus fun text us heq => hnumber text us heq] at hrun
    cases hmore : signedRun inner ts with
    | error e =>
      rw [hmore] at hrun
      cases hrun
    | ok p =>
      obtain ⟨e', rest'⟩ := p
      rw [hmore] at hrun
      cases hrun
      obtain ⟨ws, ⟨d⟩, rfl⟩ := ih e' rest hmore
      have noNumber : ∀ text us, ws ≠ .number text :: us := by
        rintro text us rfl
        exact hnumber text (us ++ rest) rfl
      exact ⟨.mark .minus :: ws, ⟨.negated noNumber d⟩, rfl⟩
  | case3 ts h1 h2 =>
    rw [signedRun] at hrun
    · obtain ⟨ws, ⟨d⟩, hts⟩ := h ts e rest hrun
      exact ⟨ws, ⟨.operand d⟩, hts⟩
    · exact h1
    · exact h2

/-! ### Comparisons -/

theorem comparison_run (h : Reads (sum inner) O Ends)
    (ends : ∀ p ∈ comparisonOperators, Ends p.1) {ws rest : List Token}
    {e : SyntaxTree} (d : Comparison O ws e)
    (behind : Heads (fun t => Ends t ∧ comparisonOperator t = none) rest) :
    (comparison inner).run (ws ++ rest) = .ok (e, rest) := by
  have hrest := behind.mono fun _ ht => ht.1
  cases d with
  | none operand =>
    rw [comparison, run_bind_ok (h.complete operand hrest), run_onNext_none]
    · rfl
    · exact behind.mono fun t ht => by rw [ht.2]; rfl
  | @compare t tag ws us left right hleft hop hright =>
    have hfirst := h.run_before hleft (ends (t, tag) hop) (us ++ rest)
    have htag : comparisonOperator t = some tag := (lists_comparisons t tag).2 hop
    rw [List.append_assoc, List.cons_append, comparison, run_bind_ok hfirst,
      run_onNext_some (by rw [htag]; rfl), run_bind_ok (h.complete hright hrest)]
    rfl

theorem comparison_unique (h : Reads r O Ends)
    (ends : ∀ p ∈ comparisonOperators, Ends p.1) (p q : Parse (Comparison O))
    (same : p.tokens = q.tokens) : p = q := by
  obtain ⟨_, _, d⟩ := p
  obtain ⟨_, _, e⟩ := q
  cases d with
  | none operand =>
    cases e with
    | none operand' =>
      cases h.unique ⟨_, _, operand⟩ ⟨_, _, operand'⟩ same
      rfl
    | compare hleft hop hright =>
      exact absurd same (h.ne_append ⟨_, _, operand⟩ ⟨_, _, hleft⟩ (ends _ hop))
  | @compare t tag us vs _ _ hleft hop hright =>
    cases e with
    | none operand =>
      exact absurd same.symm (h.ne_append ⟨_, _, operand⟩ ⟨_, _, hleft⟩ (ends _ hop))
    | @compare t' tag' us' vs' _ _ hleft' hop' hright' =>
      obtain ⟨hfirst, hrest⟩ := h.cut ⟨_, _, hleft⟩ ⟨_, _, hleft'⟩ same
        (heads_cons.2 (ends (t, tag) hop)) (heads_cons.2 (ends (t', tag') hop'))
      cases hfirst
      obtain ⟨rfl, hvs⟩ := List.cons.inj hrest
      cases h.unique ⟨_, _, hright⟩ ⟨_, _, hright'⟩ hvs
      have htag := ((lists_comparisons _ _).2 hop).symm.trans ((lists_comparisons _ _).2 hop')
      cases htag
      rfl

theorem takes_comparison (h : Takes (sum inner) (Derives O)) :
    Takes (comparison inner) (Derives (Comparison O)) := by
  refine h.bind fun left ws hleft => Takes.onNext ?_ (takes_pure ?_)
  · intro t r hr
    rw [Option.map_eq_some_iff] at hr
    obtain ⟨tag, htag, rfl⟩ := hr
    refine h.bind fun right us hright => takes_pure ?_
    obtain ⟨d⟩ := hleft
    obtain ⟨e⟩ := hright
    rw [List.append_nil]
    exact ⟨.compare d ((lists_comparisons t tag).1 htag) e⟩
  · obtain ⟨d⟩ := hleft
    rw [List.append_nil]
    exact ⟨.none d⟩

theorem starts_comparison {P : Token → Prop} (starts : Starts O P) : Starts (Comparison O) P := by
  intro ws e d
  cases d with
  | none operand => exact starts _ _ operand
  | @compare t tag ws us _ _ hleft hop hright =>
    obtain ⟨t', vs, rfl, ht⟩ := starts _ _ hleft
    exact ⟨t', vs ++ t :: us, rfl, ht⟩

/-! ### Expressions -/

theorem starts_disjunction : Starts (Disjunction E) Token.StartsExpr :=
  starts_nested <| starts_nested <| starts_comparison <| starts_nested <| starts_nested <|
    starts_signed starts_operand

theorem reads_sum (h : Reads inner E Token.EndsExpr) (starts : Starts E Token.StartsExpr) :
    Reads (sum inner) (Joined sumOperators (Joined productOperators (Signed (Operand E))))
      Token.EndsSum := by
  have hsigned := reads_signed (reads_operand h starts) starts_operand
  have hproduct := reads_joined lists_products hsigned (by decide)
  refine (reads_joined lists_sums hproduct ?_).mono fun t ht => ⟨⟨ht.1, ht.2.1⟩, ht.2.2⟩
  decide

theorem reads_disjunction (h : Reads inner E Token.EndsExpr) (starts : Starts E Token.StartsExpr) :
    Reads (disjunction inner) (Disjunction E) Token.EndsExpr := by
  have hsum := reads_sum h starts
  have hcomparison : Reads (comparison inner) (Comparison _)
      (fun t => t.EndsSum ∧ comparisonOperator t = none) :=
    ⟨fun d _ ends => comparison_run hsum (by decide) d ends, comparison_unique hsum (by decide)⟩
  have hand := reads_joined lists_and hcomparison (by decide)
  have hor := reads_joined lists_or hand (by decide)
  exact hor.mono fun t ht => ⟨⟨⟨ht.1, ht.2.1⟩, ht.2.2.1⟩, ht.2.2.2⟩

theorem takes_disjunction (h : Takes inner (Derives E)) :
    Takes (disjunction inner) (Derives (Disjunction E)) :=
  takes_joined lists_or <| takes_joined lists_and <| takes_comparison <| takes_joined lists_sums <|
    takes_joined lists_products <| takes_signed <| takes_operand h

theorem starts_expressionTo (depth : Nat) : Starts (ExpressionTo depth) Token.StartsExpr := by
  cases depth with
  | zero => exact nofun
  | succ depth => exact starts_disjunction

theorem reads_expressionTo (depth : Nat) :
    Reads expression (ExpressionTo depth) Token.EndsExpr := by
  induction depth with
  | zero => exact ⟨nofun, nofun⟩
  | succ depth ih =>
    rw [expression_eq]
    exact reads_disjunction ih (starts_expressionTo depth)

theorem takes_expressionTo (depth : Nat) :
    Takes (expressionTo depth) (Derives (ExpressionTo depth)) := by
  induction depth with
  | zero => exact takes_refuse
  | succ depth ih => exact takes_disjunction (takes_look fun _ => ih)

theorem starts_expression : Starts Expression Token.StartsExpr :=
  fun ws e d => starts_expressionTo ws.length ws e d

/-- An expression is read as it is derived, and there is only one derivation. -/
theorem reads_expression : Reads expression Expression Token.EndsExpr :=
  reads_deep reads_expressionTo

/-- What is read as an expression derives it. -/
theorem takes_expression : Takes expression (Derives Expression) :=
  takes_deep reads_expressionTo takes_expressionTo

/-- The rule of expressions, with what they enclose. -/
theorem derives_expression_iff {ws : List Token} {e : SyntaxTree} :
    Derives Expression e ws ↔ Derives (Disjunction Expression) e ws := by
  have hreads := reads_disjunction reads_expression starts_expression
  have htakes := takes_disjunction takes_expression
  rw [← expression_eq] at hreads htakes
  exact derives_iff reads_expression takes_expression hreads htakes

end Derivation

end SqlGuard
