import SqlGuard.Proofs.Grammar.Advances
import SqlGuard.Proofs.Token.Steps

/-!
# Reading comes to an end

The readers of the grammar call each other, and nothing but the tokens they have taken before keeps
them from doing so for ever. Each call is for fewer tokens than the reader that makes it was given,
so that the equations of the calls determine all answers. Main statement: `reading_ends`.
-/

namespace SqlGuard

open Reader

/-! ### Readers that call themselves -/

namespace Reader

variable {τ ω α : Type}

/-- The reader `r` calls itself as `calls` says, and the calls end: what is read from up to `n + 1`
    elements depends on calls for up to `n` of them, and `r` alone satisfies the equation. -/
structure Recurs (calls : Reader τ ω α → Reader τ ω α) (r : Reader τ ω α) : Prop where
  guarded : ∀ n s u, AgreeUpTo n s u → AgreeUpTo (n + 1) (calls s) (calls u)
  unique : ∀ s, s = calls s ↔ s = r

/-- Where no calls are made on an empty list, an equation with calls for fewer elements has one
    solution at most. -/
theorem Recurs.of_guarded {calls : Reader τ ω α → Reader τ ω α} {r : Reader τ ω α}
    (onNothing : ∀ s u, (calls s).run [] = (calls u).run [])
    (guarded : ∀ n s u, AgreeUpTo n s u → AgreeUpTo (n + 1) (calls s) (calls u))
    (hr : r = calls r) : Recurs calls r := by
  refine ⟨guarded, fun s => ⟨fun hs => ?_, fun h => h ▸ hr⟩⟩
  have agree : ∀ n, AgreeUpTo n s r := by
    intro n
    induction n with
    | zero =>
      intro ts hts
      rw [List.eq_nil_of_length_eq_zero (Nat.le_zero.1 hts), hs, hr]
      exact onNothing s r
    | succ n ih =>
      rw [hs, hr]
      exact guarded n s r ih
  ext ts
  exact agree ts.length ts (Nat.le_refl _)

end Reader

namespace Grammar

theorem recurs_expression : Recurs disjunction expression :=
  .of_guarded (fun _ _ => rfl) (fun _ _ _ => agreeUpTo_disjunction) expression_eq

/-- Queries in parentheses. -/
theorem recurs_query :
    Recurs (fun subquery => expect (.keyword .SELECT) *> queryOver subquery tempDestination)
      (query tempDestination) := by
  refine .of_guarded (fun _ _ => rfl) (fun n r s agree => ?_) (query_eq tempDestination)
  exact .bind (.refl _) fun _ => agreeUpTo_queryOver tempDestination agree

theorem agreeUpTo_signedOver (inner : TokenReader SyntaxTree) {n : Nat}
    {r s : TokenReader SyntaxTree} (h : AgreeUpTo n r s) :
    AgreeUpTo (n + 1) (signedOver inner r) (signedOver inner s) := by
  refine .onNext (fun t => ?_) (.refl _)
  split
  · have hmore := h.map fun e => SyntaxTree.node (.arith .sub) [e]
    refine .some fun ts hts => ?_
    cases ts with
    | nil => exact hmore [] hts
    | cons t ts =>
      rw [run_onNext_cons, run_onNext_cons]
      cases negativeNumber t with
      | none => exact hmore (t :: ts) hts
      | some r => rfl
  · exact .none

theorem recurs_signed (inner : TokenReader SyntaxTree) :
    Recurs (signedOver inner) (signed inner) :=
  .of_guarded (fun _ _ => rfl) (fun _ _ _ => agreeUpTo_signedOver inner) (signed_eq inner)

end Grammar

open Grammar

open Relation (ReflTransGen)

/-- Reading a text comes to an end, and stays in front of the end of the tokens.

A step that answers a token goes on to a later position of the text, at most behind its last
character, and the steps determine the tokens, which have one end, the last of them. The readers
that call themselves, for signs, for expressions and for queries, do so for fewer tokens. Each part
of a statement that is read takes a token at least, and each round of a loop takes two. The end is
never taken, neither where a part is read nor where it is refused. -/
theorem reading_ends :
    (∀ cs t rest, Token.nextToken cs = .ok (t, rest) → t ≠ .eof →
      ∃ pos, 0 < pos ∧ pos ≤ cs.length ∧ rest = cs.drop pos) ∧
    (∀ f, (∀ cs, f cs = Token.scanOver f cs) ↔ f = Token.scan) ∧
    (∀ sql ts, Token.ofText sql = .ok ts →
      ∃ ws, ts = ws ++ [Token.eof] ∧ .eof ∉ ws ∧ ws.length ≤ sql.toList.length) ∧
    (∀ inner, Recurs (signedOver inner) (signed inner)) ∧
    Recurs disjunction expression ∧
    Recurs (fun subquery => expect (.keyword .SELECT) *> queryOver subquery tempDestination)
      (query tempDestination) ∧
    (∀ destination, query destination =
      expect (.keyword .SELECT) *> queryOver (query tempDestination) destination) ∧
    (∀ r, IsPart r → Advances Token.eof 1 r) ∧
    ∀ (β γ : Type) (start : Token → Option β) (item : β → TokenReader γ), IsLoop start item →
      (∀ ts, ∃ us, ReflTransGen (Round start item) ts us ∧ LoopEnds start item ts us) ∧
      ∀ ws us, .eof ∉ ws → Round start item (ws ++ [Token.eof]) us → Ahead Token.eof 2 ws us := by
  refine ⟨fun _ _ _ => Token.nextToken_drop, fun _ => Token.scan_unique, ?_, recurs_signed,
    recurs_expression, recurs_query, query_eq, fun _ => IsPart.advances,
    fun _ _ start item loop => ⟨chain_rounds start item, fun _ _ => loop.round_ahead⟩⟩
  intro sql ts h
  obtain ⟨ws, rfl, noEnd⟩ := Token.scan_ends h
  have hlength := Token.length_le_of_scan h
  rw [List.length_append, List.length_singleton] at hlength
  exact ⟨ws, rfl, noEnd, Nat.le_of_succ_le_succ hlength⟩

/-- The first step of a text, its tokens, where its statement stops, and a round of the items that
    are selected. -/
theorem reading_ends_selectItems :
    let sql := " Select a,-1 from t"
    let behind : List Token := [.keyword .FROM, .ident "t"]
    let round : List Token := .mark .comma :: .mark .minus :: .number "1" :: behind
    let ws : List Token := .keyword .SELECT :: .ident "a" :: round
    (∃ pos, 0 < pos ∧ pos ≤ sql.toList.length ∧ " a,-1 from t".toList = sql.toList.drop pos) ∧
      (∃ ws, Token.ofText sql = .ok (ws ++ [Token.eof]) ∧ .eof ∉ ws ∧ ws.length ≤ sql.toList.length) ∧
      StopsAhead Token.eof 1 ws (wholeStatement.run (ws ++ [Token.eof])) ∧
      Ahead Token.eof 2 round (behind ++ [Token.eof]) := by
  intro sql behind round ws
  obtain ⟨step, -, scanned, -, -, -, -, parts, loops⟩ := reading_ends
  have hfirst : Token.nextToken sql.toList = .ok (.keyword .SELECT, " a,-1 from t".toList) := by cbv
  have htokens : Token.ofText sql = .ok (ws ++ [Token.eof]) := by cbv
  have hitem : selectItem.run (.mark .minus :: .number "1" :: (behind ++ [Token.eof])) =
      .ok (.node .selectItem [numberLiteral "-1"], behind ++ [Token.eof]) := by cbv
  refine ⟨step _ _ _ hfirst (by decide), ?_, parts _ .wholeStatement ws (by decide), ?_⟩
  · obtain ⟨ws', hws, noEnd, hlength⟩ := scanned sql _ htokens
    exact ⟨ws', hws ▸ htokens, noEnd, hlength⟩
  · exact (loops _ _ _ _ .selectItems).2 round _ (by decide) ⟨_, _, (), _, rfl, rfl, hitem⟩

end SqlGuard
