import SqlGuard.Proofs.Grammar.Derivation
import SqlGuard.Proofs.Reader.Takes

/-!
# Reading what is derived

A reader finds the derivations of a language: what it takes derives what it answers (`Takes` and
`Derives`), and whatever is derived is read, in front of a token that does not go on with it
(`Reads`). So no tokens have two derivations. The parts that rules are made of keep both. Main
statements: `Reads.cut` and `reads_nested`.
-/

namespace SqlGuard

open Reader Grammar

namespace Derivation

variable {α β γ : Type}

/-- There is a derivation. -/
abbrev Derives (L : Language α) (a : α) (ws : List Token) : Prop := Nonempty (L ws a)

/-- A derivation with its tokens and its value. -/
structure Parse (L : Language α) where
  tokens : List Token
  value : α
  derivation : L tokens value

/-- The reader reads all that is derived, in front of the tokens that end it, and no tokens have two
    derivations. -/
structure Reads (r : TokenReader α) (L : Language α) (Ends : Token → Prop) : Prop where
  complete : ∀ {ws : List Token} {a : α}, L ws a → ∀ {rest : List Token}, Heads Ends rest →
    r.run (ws ++ rest) = .ok (a, rest)
  unique : ∀ p q : Parse L, p.tokens = q.tokens → p = q

/-- What is derived starts with such a token. -/
def Starts (L : Language α) (P : Token → Prop) : Prop :=
  ∀ (ws : List Token) (a : α), L ws a → ∃ t us, ws = t :: us ∧ P t

theorem heads_nil {P : Token → Prop} : Heads P [] := nofun

theorem heads_of_append_nil {P : Token → Prop} {ws : List Token} (h : Heads P (ws ++ [])) :
    Heads P ws := by
  rwa [List.append_nil] at h

theorem Starts.heads {L : Language α} {P : Token → Prop} (h : Starts L P) {ws : List Token} {a : α}
    (d : L ws a) (rest : List Token) : Heads P (ws ++ rest) := by
  obtain ⟨t, us, rfl, ht⟩ := h _ _ d
  exact heads_cons.2 ht

namespace Reads

variable {r : TokenReader α} {L : Language α} {Ends : Token → Prop}

/-- Two parts that are derived end at the same place, for the reader ends both there. -/
theorem cut (h : Reads r L Ends) (p q : Parse L) {rest rest' : List Token}
    (same : p.tokens ++ rest = q.tokens ++ rest') (ends : Heads Ends rest)
    (ends' : Heads Ends rest') : p = q ∧ rest = rest' := by
  have hp := h.complete p.derivation ends
  have hq := h.complete q.derivation ends'
  rw [same, hq, Except.ok.injEq, Prod.mk.injEq] at hp
  obtain ⟨-, rfl⟩ := hp
  exact ⟨h.unique p q (List.append_cancel_right same), rfl⟩

/-- What is derived does not go on with a token that ends it. -/
theorem ne_append (h : Reads r L Ends) (p q : Parse L) {t : Token} {ts : List Token}
    (ends : Ends t) : p.tokens ≠ q.tokens ++ t :: ts := by
  intro same
  have hcut := h.cut p q ((List.append_nil _).trans same) heads_nil (heads_cons.2 ends)
  cases hcut.2

theorem run_before (h : Reads r L Ends) {ws : List Token} {a : α} (d : L ws a) {t : Token}
    (ends : Ends t) (ts : List Token) : r.run (ws ++ t :: ts) = .ok (a, t :: ts) :=
  h.complete d (heads_cons.2 ends)

theorem mono (h : Reads r L Ends) {Ends' : Token → Prop} (hends : ∀ t, Ends' t → Ends t) :
    Reads r L Ends' where
  complete d _ ends := h.complete d (ends.mono hends)
  unique := h.unique

end Reads

/-! ### Parts of rules -/

section Listed

variable {r : TokenReader α} {L : Language α} {Ends : Token → Prop}

theorem takes_listed (h : Takes r (Derives L)) :
    Takes (commaSeparated r) (Derives (Listed L)) := by
  refine h.separatedBy ?_ ?_
  · rintro a ws ⟨d⟩
    exact ⟨.last d⟩
  · rintro a as ws us ⟨d⟩ ⟨ds⟩
    exact ⟨.more d ds⟩

theorem listed_run (h : Reads r L Ends) (comma : Ends (.mark .comma)) {ws : List Token}
    {as : List α} (d : Listed L ws as) {rest : List Token}
    (ends : Heads (fun t => Ends t ∧ t ≠ .mark .comma) rest) :
    (commaSeparated r).run (ws ++ rest) = .ok (as, rest) := by
  induction d with
  | last item =>
    have hitem := h.complete item (ends.mono fun _ ht => ht.1)
    rw [commaSeparated, separatedBy, run_bind_ok hitem,
      run_bind_ok (run_chain_stop (ends.mono fun _ ht => if_neg ht.2))]
    rfl
  | @more ws us a as item items ih =>
    have hitem := h.run_before item comma (us ++ rest)
    rw [List.append_assoc, List.cons_append]
    exact run_separatedBy_cons hitem ih

theorem listed_unique (h : Reads r L Ends) (comma : Ends (.mark .comma)) {ws : List Token}
    {as : List α} (d : Listed L ws as) (q : Parse (Listed L)) (same : ws = q.tokens) :
    ⟨ws, as, d⟩ = q := by
  induction d generalizing q with
  | @last ws a item =>
    obtain ⟨us, bs, e⟩ := q
    cases e with
    | last item' =>
      cases h.unique ⟨_, _, item⟩ ⟨_, _, item'⟩ same
      rfl
    | more item' items' => exact absurd same (h.ne_append ⟨_, _, item⟩ ⟨_, _, item'⟩ comma)
  | @more ws us a as item items ih =>
    obtain ⟨xs, bs, e⟩ := q
    cases e with
    | last item' => exact absurd same.symm (h.ne_append ⟨_, _, item'⟩ ⟨_, _, item⟩ comma)
    | more item' items' =>
      obtain ⟨hitem, hrest⟩ := h.cut ⟨_, _, item⟩ ⟨_, _, item'⟩ same (heads_cons.2 comma)
        (heads_cons.2 comma)
      cases hitem
      cases ih ⟨_, _, items'⟩ (List.cons.inj hrest).2
      rfl

theorem reads_listed (h : Reads r L Ends) (comma : Ends (.mark .comma)) :
    Reads (commaSeparated r) (Listed L) fun t => Ends t ∧ t ≠ .mark .comma where
  complete d _ ends := listed_run h comma d ends
  unique p q same := listed_unique h comma p.derivation q same

theorem starts_listed {P : Token → Prop} (h : Starts L P) : Starts (Listed L) P := by
  intro ws as d
  cases d with
  | last item => exact h _ _ item
  | @more ws us a as item items =>
    obtain ⟨t, vs, rfl, ht⟩ := h _ _ item
    exact ⟨t, vs ++ .mark .comma :: us, rfl, ht⟩

end Listed

/-! ### Clauses -/

section Clause

variable {r : TokenReader α} {L : Language α} {Ends : Token → Prop} {w : Token} {words : List Token}

theorem takes_clause (h : Takes r fun a us => ∃ vs, us = words ++ vs ∧ Derives L a vs) :
    Takes (after? w r) (Derives (Clause (w :: words) L)) := by
  have hkept : Takes (after? w r)
      (KeptOption fun a us => ∃ vs, us = w :: words ++ vs ∧ Derives L a vs) := by
    refine Takes.after? (h.mono fun a us hus => ?_)
    obtain ⟨vs, rfl, d⟩ := hus
    exact ⟨vs, rfl, d⟩
  refine hkept.mono fun a? us hus => ?_
  cases a? with
  | none =>
    cases hus
    exact ⟨.absent⟩
  | some a =>
    obtain ⟨vs, rfl, ⟨d⟩⟩ := hus
    exact ⟨.present d⟩

/-- What stands in front of a clause or of what is behind it. -/
theorem heads_clause {P : Token → Prop} {ws rest : List Token} {a? : Option α}
    (d : Clause (w :: words) L ws a?) (word : P w) (h : Heads P rest) : Heads P (ws ++ rest) := by
  cases d with
  | absent => exact h
  | present part => exact heads_cons.2 word

theorem clause_run {s : TokenReader α} (h : Reads r L Ends)
    (hs : ∀ ts, s.run (words ++ ts) = r.run ts) {ws : List Token} {a? : Option α}
    (d : Clause (w :: words) L ws a?) {rest : List Token}
    (ends : Heads (fun t => Ends t ∧ t ≠ w) rest) :
    (after? w s).run (ws ++ rest) = .ok (a?, rest) := by
  cases d with
  | absent => exact run_after?_none (ends.mono fun _ ht => ht.2)
  | @present us a part =>
    have hpart : s.run (words ++ us ++ rest) = .ok (a, rest) := by
      rw [List.append_assoc, hs]
      exact h.complete part (ends.mono fun _ ht => ht.1)
    exact run_after?_some hpart

theorem reads_clause {s : TokenReader α} (h : Reads r L Ends)
    (hs : ∀ ts, s.run (words ++ ts) = r.run ts) :
    Reads (after? w s) (Clause (w :: words) L) fun t => Ends t ∧ t ≠ w where
  complete d _ ends := clause_run h hs d ends
  unique := by
    rintro ⟨_, _, d⟩ ⟨_, _, e⟩ same
    cases d with
    | absent =>
      cases e with
      | absent => rfl
      | present part => cases same
    | present part =>
      cases e with
      | absent => cases same
      | present part' =>
        cases h.unique ⟨_, _, part⟩ ⟨_, _, part'⟩ (List.append_cancel_left same)
        rfl

end Clause

/-! ### Steps -/

section Steps

variable {nest : SyntaxTree → γ → SyntaxTree} {First : Language SyntaxTree} {Step : Language γ}
  {start : Token → Option β} {item : β → TokenReader γ} {r : TokenReader SyntaxTree}
  {Ends : Token → Prop}

/-- Each step starts with a token that ends what is before it and that says how it is read; no
    tokens have two derivations as a step. -/
structure ReadsSteps (start : Token → Option β) (item : β → TokenReader γ) (Step : Language γ)
    (Ends : Token → Prop) : Prop where
  complete : ∀ {ws : List Token} {c : γ}, Step ws c → ∃ t us b, ws = t :: us ∧ Ends t ∧
    start t = some b ∧ ∀ {rest : List Token}, Heads Ends rest →
      (item b).run (us ++ rest) = .ok (c, rest)
  unique : ∀ p q : Parse Step, p.tokens = q.tokens → p = q

/-- Two steps that are derived end at the same place, for the reader ends both there. -/
theorem ReadsSteps.cut (h : ReadsSteps start item Step Ends) (p q : Parse Step)
    {rest rest' : List Token} (same : p.tokens ++ rest = q.tokens ++ rest')
    (ends : Heads Ends rest) (ends' : Heads Ends rest') : p = q ∧ rest = rest' := by
  obtain ⟨t, us, b, hp, -, hb, hrun⟩ := h.complete p.derivation
  obtain ⟨t', us', b', hq, -, hb', hrun'⟩ := h.complete q.derivation
  have htokens := same
  rw [hp, hq, List.cons_append, List.cons_append, List.cons.injEq] at htokens
  obtain ⟨rfl, htail⟩ := htokens
  rw [hb] at hb'
  cases hb'
  have hrest := hrun ends
  rw [htail, hrun' ends', Except.ok.injEq, Prod.mk.injEq] at hrest
  obtain ⟨-, rfl⟩ := hrest
  exact ⟨h.unique p q (List.append_cancel_right same), rfl⟩

theorem heads_steps (h : ReadsSteps start item Step Ends) {left tree : SyntaxTree}
    {ws rest : List Token} (d : Steps nest Step left ws tree) (ends : Heads Ends rest) :
    Heads Ends (ws ++ rest) := by
  cases d with
  | done => exact ends
  | step first more =>
    obtain ⟨t, us, b, rfl, ht, -, -⟩ := h.complete first
    exact heads_cons.2 ht

theorem steps_run (h : ReadsSteps start item Step Ends) {left tree : SyntaxTree}
    {ws rest : List Token} (d : Steps nest Step left ws tree)
    (ends : Heads (fun t => Ends t ∧ start t = none) rest) :
    ∃ cs, (chain start item).run (ws ++ rest) = .ok (cs, rest) ∧ cs.foldl nest left = tree := by
  induction d with
  | done left => exact ⟨[], run_chain_stop (ends.mono fun _ ht => ht.2), rfl⟩
  | @step left tree ws us c first more ih =>
    obtain ⟨cs, hmore, htree⟩ := ih
    obtain ⟨t, vs, b, rfl, -, hb, hrun⟩ := h.complete first
    have hstep := hrun (heads_steps h more (ends.mono fun _ ht => ht.1))
    refine ⟨c :: cs, ?_, htree⟩
    rw [List.append_assoc]
    exact run_chain_cons hb hstep hmore

theorem steps_unique (h : ReadsSteps start item Step Ends) {left tree : SyntaxTree}
    {ws : List Token} (d : Steps nest Step left ws tree) (q : Parse (Steps nest Step left))
    (same : ws = q.tokens) : ⟨ws, tree, d⟩ = q := by
  induction d with
  | done left =>
    obtain ⟨_, _, e⟩ := q
    cases e with
    | done => rfl
    | step first more =>
      obtain ⟨t, us, b, rfl, -, -, -⟩ := h.complete first
      cases same
  | step first more ih =>
    obtain ⟨_, _, e⟩ := q
    cases e with
    | done =>
      obtain ⟨t, us, b, rfl, -, -, -⟩ := h.complete first
      cases same
    | step first' more' =>
      obtain ⟨hfirst, hrest⟩ := h.cut ⟨_, _, first⟩ ⟨_, _, first'⟩ same
        (heads_of_append_nil (heads_steps h more heads_nil))
        (heads_of_append_nil (heads_steps h more' heads_nil))
      cases hfirst
      cases ih ⟨_, _, more'⟩ hrest
      rfl

/-- A first tree is read in front of the steps behind it, and these one after the other. -/
theorem reads_nested (hfirst : Reads r First Ends) (h : ReadsSteps start item Step Ends)
    {s : TokenReader SyntaxTree}
    (hs : s = r >>= fun first => chain start item >>= fun steps => pure (steps.foldl nest first)) :
    Reads s (Nested nest First Step) fun t => Ends t ∧ start t = none where
  complete d _ ends := by
    cases d with
    | mk first steps =>
      obtain ⟨cs, hsteps, htree⟩ := steps_run h steps ends
      have hends := heads_steps h steps (ends.mono fun _ ht => ht.1)
      rw [hs, List.append_assoc, run_bind_ok (hfirst.complete first hends), run_bind_ok hsteps,
        htree]
      rfl
  unique := by
    rintro ⟨_, _, ⟨first, steps⟩⟩ ⟨_, _, ⟨first', steps'⟩⟩ same
    obtain ⟨hleft, hrest⟩ := hfirst.cut ⟨_, _, first⟩ ⟨_, _, first'⟩ same
      (heads_of_append_nil (heads_steps h steps heads_nil))
      (heads_of_append_nil (heads_steps h steps' heads_nil))
    cases hleft
    cases steps_unique h steps ⟨_, _, steps'⟩ hrest
    rfl

theorem derives_steps {left : SyntaxTree} {cs : List γ} {ws : List Token}
    (h : KeptList (Derives Step) cs ws) :
    Derives (Steps nest Step left) (cs.foldl nest left) ws := by
  induction h generalizing left with
  | nil => exact ⟨.done left⟩
  | cons first _ ih =>
    obtain ⟨d⟩ := first
    obtain ⟨ds⟩ := @ih (nest left _)
    exact ⟨.step d ds⟩

theorem takes_nested (hfirst : Takes r (Derives First))
    (h : ∀ t b, start t = some b → Takes (item b) fun c ws => Derives Step c (t :: ws))
    {s : TokenReader SyntaxTree}
    (hs : s = r >>= fun first => chain start item >>= fun steps => pure (steps.foldl nest first)) :
    Takes s (Derives (Nested nest First Step)) := by
  rw [hs]
  refine hfirst.bind fun first ws hws => (Takes.chain h).bind fun steps us hus => takes_pure ?_
  obtain ⟨d⟩ := hws
  obtain ⟨ds⟩ : Derives (Steps nest Step first) (steps.foldl nest first) us := derives_steps hus
  rw [List.append_nil]
  exact ⟨.mk d ds⟩

theorem starts_nested {P : Token → Prop} (h : Starts First P) :
    Starts (Nested nest First Step) P := by
  intro ws tree d
  cases d with
  | @mk ws us _ _ first steps =>
    obtain ⟨t, vs, rfl, ht⟩ := h _ _ first
    exact ⟨t, vs ++ us, rfl, ht⟩

end Steps

/-! ### Nesting -/

/-- Two languages of one reader derive the same. -/
theorem derives_iff {r : TokenReader α} {L L' : Language α} {Ends Ends' : Token → Prop}
    (h : Reads r L Ends) (htakes : Takes r (Derives L)) (h' : Reads r L' Ends')
    (htakes' : Takes r (Derives L')) {ws : List Token} {a : α} :
    Derives L a ws ↔ Derives L' a ws := by
  constructor
  · intro given
    obtain ⟨d⟩ := given
    obtain ⟨us, hus, hws⟩ := htakes' _ _ _ (h.complete d heads_nil)
    rw [List.append_cancel_right hws]
    exact hus
  · intro given
    obtain ⟨d⟩ := given
    obtain ⟨us, hus, hws⟩ := htakes _ _ _ (h'.complete d heads_nil)
    rw [List.append_cancel_right hws]
    exact hus

section Depth

variable {readTo : Nat → TokenReader α} {L : Nat → Language α} {Ends : Token → Prop}

/-- What is read at any depth is read where the number of tokens is the depth. -/
theorem reads_deep {r : TokenReader α} (h : ∀ depth, Reads r (L depth) Ends) :
    Reads r (fun ws a => L ws.length ws a) Ends where
  complete {ws} _ d _ ends := (h ws.length).complete d ends
  unique := by
    rintro ⟨ws, a, d⟩ ⟨us, b, d'⟩ same
    cases same
    cases (h ws.length).unique ⟨ws, a, d⟩ ⟨ws, b, d'⟩ rfl
    rfl

/-- What is read is derived at some depth, so it is read on its own, and then to the depth of its
    number of tokens. -/
theorem takes_deep (h : ∀ depth, Reads (look fun ts => readTo ts.length) (L depth) Ends)
    (htakes : ∀ depth, Takes (readTo depth) (Derives (L depth))) :
    Takes (look fun ts => readTo ts.length) (Derives fun ws a => L ws.length ws a) := by
  intro ts a rest hrun
  obtain ⟨ws, ⟨d⟩, rfl⟩ := htakes ts.length ts a rest hrun
  have halone := (h _).complete d heads_nil
  rw [List.append_nil] at halone
  obtain ⟨us, hus, hws⟩ := htakes ws.length ws a [] halone
  rw [List.append_nil] at hws
  cases hws
  exact ⟨ws, hus, rfl⟩

end Depth

end Derivation

end SqlGuard
