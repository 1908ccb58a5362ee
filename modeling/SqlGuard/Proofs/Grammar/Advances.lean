import SqlGuard.Grammar.Statement
import SqlGuard.Grammar.Unfolding
import SqlGuard.Proofs.Reader.Advances

/-!
# How far the grammar goes

Each part of a statement takes tokens, and none of them takes the end, whatever the tokens are. Main
statements: `IsPart.advances` and `IsLoop.round_ahead`.
-/

namespace SqlGuard.Grammar

open Reader

variable {inner : TokenReader SyntaxTree}

/-! ### Single tokens -/

theorem advances_expect {t : Token} (notEnd : t ≠ .eof) : Advances .eof 1 (expect t) :=
  advances_demand notEnd

theorem advances_identifier : Advances .eof 1 identifier := by
  refine .onNext rfl ?_ advances_refuse
  intro t r hr
  split at hr
  · cases hr
    exact advances_pure _
  · cases hr

theorem advances_path : Advances .eof 1 path := by
  refine .onNext rfl ?_ advances_refuse
  intro t r hr
  split at hr
  · cases hr
    exact advances_pure _
  · cases hr

theorem advances_alias? : Advances .eof 0 alias? := by
  refine .onNext rfl ?_ (advances_pure none)
  intro t r hr
  split at hr
  · cases hr
    exact (advances_identifier.map some).stays
  · cases hr
    exact advances_pure _
  · cases hr

theorem advances_tableName : Advances .eof 1 tableName := by
  refine advances_identifier.bind_first fun first => ?_
  refine Advances.bind_first ?_ fun second? => advances_pure _
  exact .after? (by decide) advances_identifier.stays

/-! ### Expressions -/

section Expressions

variable (h : Advances .eof 1 inner)
include h

/-- A call takes its closing parenthesis at least. -/
theorem advances_call (name : String) : Advances .eof 1 (call inner name) := by
  refine advances_look fun ts => ?_
  split
  · refine (advances_expect (by decide)).bind_first fun _ => ?_
    exact (advances_expect (by decide)).stays.bind_first fun _ => advances_pure _
  · refine .accept_bind (by decide) (advances_pure _) ?_
    refine (h.separatedBy (by decide)).bind_first fun arguments => ?_
    exact (advances_expect (by decide)).stays.bind_first fun _ => advances_pure _

theorem advances_named (name : String) : Advances .eof 0 (named inner name) := by
  refine .onNext rfl ?_ (advances_pure _)
  intro t r hr
  split at hr
  · cases hr
    exact (advances_call h name).stays
  · cases hr
    exact (advances_identifier.map _).stays
  · cases hr

theorem advances_operand : Advances .eof 1 (operand inner) := by
  refine .onNext rfl ?_ advances_refuse
  intro t r hr
  split at hr
  · cases hr
    exact advances_pure _
  · cases hr
    exact advances_pure _
  · cases hr
    exact advances_named h _
  · cases hr
    refine h.stays.bind_first fun e => (advances_expect (by decide)).stays.bind_first fun _ => ?_
    exact advances_pure e
  · cases hr

end Expressions

/-- The reader of a number behind a sign. -/
def negativeNumber : Token → Option (TokenReader SyntaxTree)
  | .number text => some (pure (numberLiteral ("-" ++ text)))
  | _ => none

/-- A sign before a number or before more signs, read with `more`, or an operand. -/
def signedOver (inner more : TokenReader SyntaxTree) : TokenReader SyntaxTree :=
  onNext
    (fun
      | .mark .minus =>
        some (onNext negativeNumber ((fun e => .node (.arith .sub) [e]) <$> more))
      | _ => none)
    (operand inner)

theorem signed_eq (inner : TokenReader SyntaxTree) :
    signed inner = signedOver inner (signed inner) := by
  ext ts
  show signedRun inner ts = _
  fun_cases signedRun inner ts with
  | case1 text ts => rfl
  | case2 ts noNumber =>
    have hmore : Heads (negativeNumber · = none) ts := by
      intro t ht
      obtain ⟨us, rfl⟩ := List.head?_eq_some_iff.1 ht
      unfold negativeNumber
      split
      · exact absurd rfl (noNumber _ us)
      · rfl
    rw [signedOver, run_onNext_some rfl, run_onNext_none hmore, run_map]
    rfl
  | case3 _ _ noSign =>
    refine (run_onNext_none ?_).symm
    intro t ht
    obtain ⟨us, rfl⟩ := List.head?_eq_some_iff.1 ht
    split
    · exact absurd rfl (noSign us)
    · rfl

theorem advances_signed (h : Advances .eof 1 inner) : Advances .eof 1 (signed inner) := by
  intro ws
  induction ws with
  | nil => exact advances_operand h []
  | cons t ws ih =>
    intro noEnd
    rw [signed_eq]
    refine stopsAhead_onNext rfl ?_ (advances_operand h (t :: ws) noEnd)
    rintro t ws r ⟨⟩ hr
    have hmore := ih fun hmem => noEnd (List.mem_cons_of_mem t hmem)
    split at hr
    · cases hr
      refine stopsAhead_onNext rfl ?_ ?_
      · rintro t us r rfl hr
        unfold negativeNumber at hr
        split at hr
        · cases hr
          exact .here _ us
        · cases hr
      · rw [run_map]
        exact (hmore.mono (Nat.zero_le 1)).map fun e => SyntaxTree.node (.arith .sub) [e]
    · cases hr

theorem advances_joined {operator : Token → Option Tag} {operand : TokenReader SyntaxTree}
    (stops : operator .eof = none) (h : Advances .eof 1 operand) :
    Advances .eof 1 (joined operator operand) := by
  refine h.bind_first fun first => Advances.bind_first ?_ fun more => advances_pure _
  exact .chain stops fun _ tag _ => h.map (tag, ·)

theorem advances_product (h : Advances .eof 1 inner) : Advances .eof 1 (product inner) :=
  advances_joined rfl (advances_signed h)

theorem advances_sum (h : Advances .eof 1 inner) : Advances .eof 1 (sum inner) :=
  advances_joined rfl (advances_product h)

theorem advances_comparison (h : Advances .eof 1 inner) : Advances .eof 1 (comparison inner) := by
  refine (advances_sum h).bind_first fun left => .onNext rfl ?_ (advances_pure left)
  intro t r hr
  obtain ⟨tag, -, rfl⟩ := Option.map_eq_some_iff.1 hr
  exact (advances_sum h).stays.bind_first fun right => advances_pure _

theorem advances_conjunction (h : Advances .eof 1 inner) : Advances .eof 1 (conjunction inner) :=
  advances_joined rfl (advances_comparison h)

theorem advances_disjunction (h : Advances .eof 1 inner) : Advances .eof 1 (disjunction inner) :=
  advances_joined rfl (advances_conjunction h)

theorem advances_expression : Advances .eof 1 expression := by
  refine advances_look fun ts => ?_
  induction ts.length with
  | zero => exact advances_refuse
  | succ depth ih => exact advances_disjunction (advances_look fun _ => ih)

/-! ### Queries -/

variable {subquery : TokenReader SyntaxTree}

theorem advances_selectItem : Advances .eof 1 selectItem := by
  refine .onNext rfl ?_ ?_
  · intro t r hr
    split at hr
    · cases hr
      exact advances_pure _
    · cases hr
  · exact advances_expression.bind_first fun e =>
      advances_alias?.bind_first fun name? => advances_pure _

theorem advances_source (h : Advances .eof 1 subquery) : Advances .eof 1 (source subquery) := by
  refine .onNext rfl ?_ ?_
  · intro t r hr
    split at hr
    · cases hr
      refine h.stays.bind_first fun query => ?_
      refine (advances_expect (by decide)).stays.bind_first fun _ => ?_
      exact advances_alias?.bind_first fun name? => advances_pure _
    · cases hr
  · exact advances_tableName.bind_first fun table =>
      advances_alias?.bind_first fun name? => advances_pure _

theorem advances_joinWords {t : Token} {words : TokenReader JoinOp} (h : joinWords t = some words) :
    Advances .eof 0 words := by
  have hjoin : Advances .eof 0 (expect (.keyword .JOIN)) := (advances_expect (by decide)).stays
  have houter (op : JoinOp) : Advances .eof 0 (outerJoin op) :=
    (advances_accept (by decide)).bind_first fun _ => hjoin.bind_first fun _ => advances_pure op
  unfold joinWords at h
  split at h <;> cases h
  · exact advances_pure _
  · exact hjoin.bind_first fun _ => advances_pure _
  · exact houter _
  · exact houter _
  · exact houter _
  · exact hjoin.bind_first fun _ => advances_pure _

theorem advances_joinStep (h : Advances .eof 1 subquery) {t : Token} {words : TokenReader JoinOp}
    (hwords : joinWords t = some words) : Advances .eof 1 (joinStep subquery words) := by
  refine (advances_joinWords hwords).bind_last fun op => ?_
  refine (advances_source h).bind_first fun right => ?_
  refine Advances.bind_first ?_ fun on? => advances_pure _
  exact .after? (by decide) advances_expression.stays

theorem advances_fromElement (h : Advances .eof 1 subquery) :
    Advances .eof 1 (fromElement subquery) := by
  refine (advances_source h).bind_first fun first => ?_
  refine Advances.map ?_ (joinTree first)
  exact .chain rfl fun _ _ hwords => advances_joinStep h hwords

theorem advances_queryOver (h : Advances .eof 1 subquery) (destination : SyntaxTree) :
    Advances .eof 1 (queryOver subquery destination) := by
  have hgroup : Advances .eof 0 (expect (.keyword .BY) >>= fun _ => commaSeparated expression) :=
    (advances_expect (by decide)).stays.bind_first fun _ =>
      (advances_expression.separatedBy (by decide)).stays
  refine (advances_selectItem.separatedBy (by decide)).bind_first fun items => ?_
  refine ((advances_fromElement h).stays.after? (by decide)).bind_first fun from? => ?_
  refine (advances_expression.stays.after? (by decide)).bind_first fun where? => ?_
  exact (hgroup.after? (by decide)).map fun group? => _

theorem advances_query (destination : SyntaxTree) : Advances .eof 1 (query destination) := by
  refine advances_look fun ts => ?_
  induction ts.length generalizing destination with
  | zero => exact advances_refuse
  | succ depth ih =>
    refine (advances_expect (by decide)).bind_first fun _ => ?_
    exact (advances_queryOver (advances_look fun _ => ih tempDestination) destination).stays

/-! ### Statements -/

theorem advances_insert : Advances .eof 1 insert := by
  refine (advances_expect (by decide)).bind_first fun _ => ?_
  refine (advances_expect (by decide)).stays.bind_first fun _ => ?_
  exact advances_tableName.stays.bind_first fun table => (advances_query _).stays

theorem advances_load : Advances .eof 1 load := by
  refine (advances_expect (by decide)).bind_first fun _ => ?_
  refine (advances_accept (by decide)).bind_first fun isLocal => ?_
  refine (advances_expect (by decide)).stays.bind_first fun _ => ?_
  refine advances_path.stays.bind_first fun file => ?_
  refine (advances_accept (by decide)).bind_first fun overwrite => ?_
  refine (advances_expect (by decide)).stays.bind_first fun _ => ?_
  refine (advances_expect (by decide)).stays.bind_first fun _ => ?_
  exact (advances_tableName.map fun table => _).stays

theorem advances_statement : Advances .eof 1 statement := by
  refine advances_look fun ts => ?_
  split
  · exact advances_query tempDestination
  · exact (advances_expect (by decide)).bind_first fun _ => advances_insert.stays
  · exact (advances_expect (by decide)).bind_first fun _ => advances_load.stays
  · exact advances_refuse

theorem advances_atEnd : Advances .eof 0 atEnd := by
  refine advances_look fun ts => ?_
  split
  · exact advances_pure ()
  · exact advances_refuse

theorem advances_wholeStatement : Advances .eof 1 wholeStatement := by
  refine advances_statement.bind_first fun tree => ?_
  refine (advances_accept (by decide)).bind_first fun _ => ?_
  exact advances_atEnd.map fun _ => tree

/-! ### All parts and all loops -/

/-- The parts of statements that have a reader of their own, from the whole down to operands. The
    arguments of a call are read behind its opening parenthesis. -/
inductive IsPart : TokenReader SyntaxTree → Prop
  | wholeStatement : IsPart wholeStatement
  | statement : IsPart statement
  | insert : IsPart insert
  | load : IsPart load
  | query (destination : SyntaxTree) : IsPart (query destination)
  | selectItem : IsPart selectItem
  | fromElement : IsPart (fromElement (query tempDestination))
  | source : IsPart (source (query tempDestination))
  | tableName : IsPart tableName
  | expression : IsPart expression
  | disjunction : IsPart (disjunction expression)
  | conjunction : IsPart (conjunction expression)
  | comparison : IsPart (comparison expression)
  | sum : IsPart (sum expression)
  | product : IsPart (product expression)
  | signed : IsPart (signed expression)
  | operand : IsPart (operand expression)
  | call (name : String) : IsPart (call expression name)

theorem IsPart.advances {r : TokenReader SyntaxTree} (h : IsPart r) : Advances .eof 1 r := by
  cases h with
  | wholeStatement => exact advances_wholeStatement
  | statement => exact advances_statement
  | insert => exact advances_insert
  | load => exact advances_load
  | query destination => exact advances_query destination
  | selectItem => exact advances_selectItem
  | fromElement => exact advances_fromElement (advances_query _)
  | source => exact advances_source (advances_query _)
  | tableName => exact advances_tableName
  | expression => exact advances_expression
  | disjunction => exact advances_disjunction advances_expression
  | conjunction => exact advances_conjunction advances_expression
  | comparison => exact advances_comparison advances_expression
  | sum => exact advances_sum advances_expression
  | product => exact advances_product advances_expression
  | signed => exact advances_signed advances_expression
  | operand => exact advances_operand advances_expression
  | call name => exact advances_call advances_expression name

/-- The comma that starts another round of a list. -/
def listComma (t : Token) : Option Unit := if t = .mark .comma then some () else none

/-- The loops of the grammar: the token that starts another round, and what is read behind it. -/
inductive IsLoop : {β γ : Type} → (Token → Option β) → (β → TokenReader γ) → Prop
  | disjuncts : IsLoop orOperator fun tag => (tag, ·) <$> conjunction expression
  | conjuncts : IsLoop andOperator fun tag => (tag, ·) <$> comparison expression
  | summands : IsLoop sumOperator fun tag => (tag, ·) <$> product expression
  | factors : IsLoop productOperator fun tag => (tag, ·) <$> signed expression
  | joins : IsLoop joinWords (joinStep (query tempDestination))
  | selectItems : IsLoop listComma fun _ => selectItem
  | expressions : IsLoop listComma fun _ => expression

/-- A round takes the token that starts it and at least one more. -/
theorem IsLoop.round_ahead {β γ : Type} {start : Token → Option β} {item : β → TokenReader γ}
    (h : IsLoop start item) {ws us : List Token} (noEnd : .eof ∉ ws)
    (round : Round start item (ws ++ [.eof]) us) : Ahead .eof 2 ws us := by
  have hexpression := advances_expression
  cases h with
  | disjuncts =>
    exact round.ahead rfl (fun _ tag _ => (advances_conjunction hexpression).map (tag, ·)) noEnd
  | conjuncts =>
    exact round.ahead rfl (fun _ tag _ => (advances_comparison hexpression).map (tag, ·)) noEnd
  | summands =>
    exact round.ahead rfl (fun _ tag _ => (advances_product hexpression).map (tag, ·)) noEnd
  | factors =>
    exact round.ahead rfl (fun _ tag _ => (advances_signed hexpression).map (tag, ·)) noEnd
  | joins =>
    exact round.ahead rfl (fun _ _ hwords => advances_joinStep (advances_query _) hwords) noEnd
  | selectItems => exact round.ahead rfl (fun _ _ _ => advances_selectItem) noEnd
  | expressions => exact round.ahead rfl (fun _ _ _ => hexpression) noEnd

end SqlGuard.Grammar
