import SqlGuard.Proofs.Grammar.DerivedStatement

/-!
# What tokens leave in a tree

The end of the tokens is in no derivation, and wherever `AND` or `OR` is, the tree has a node for
it. Main statement: `leave_plain`.
-/

namespace SqlGuard

/-- A node with the tag stands somewhere in the tree. -/
inductive SyntaxTree.Has (tag : Tag) : SyntaxTree → Prop
  | root {tree : SyntaxTree} (isTag : tree.tag = tag) : Has tag tree
  | child {tree inner : SyntaxTree} (below : inner ∈ tree.children) (inside : Has tag inner) :
      Has tag tree

/-- The token is not the end, and if it is `AND` or `OR`, one of the trees has a node for it. -/
structure Token.Leaves (trees : List SyntaxTree) (t : Token) : Prop where
  noEnd : t ≠ .eof
  conjunction : t = .keyword .AND → ∃ tree ∈ trees, tree.Has .conjunction
  disjunction : t = .keyword .OR → ∃ tree ∈ trees, tree.Has .disjunction

/-- The tokens that leave nothing in particular. -/
def Token.IsOrdinary (t : Token) : Prop := t ≠ .eof ∧ t ≠ .keyword .AND ∧ t ≠ .keyword .OR

instance (t : Token) : Decidable t.IsOrdinary := inferInstanceAs (Decidable (_ ∧ _ ∧ _))

theorem Token.IsOrdinary.leaves {t : Token} (h : t.IsOrdinary) (trees : List SyntaxTree) :
    t.Leaves trees where
  noEnd := h.1
  conjunction ht := absurd ht h.2.1
  disjunction ht := absurd ht h.2.2

/-- What is left in trees is left in the trees that hold them. -/
theorem Token.Leaves.mono {trees trees' : List SyntaxTree} {t : Token} (h : t.Leaves trees)
    (kept : ∀ tag, ∀ tree ∈ trees, tree.Has tag → ∃ tree' ∈ trees', tree'.Has tag) :
    t.Leaves trees' where
  noEnd := h.noEnd
  conjunction ht := by
    obtain ⟨tree, hmem, has⟩ := h.conjunction ht
    exact kept _ tree hmem has
  disjunction ht := by
    obtain ⟨tree, hmem, has⟩ := h.disjunction ht
    exact kept _ tree hmem has

/-- What is left in trees is left in a node that has them as children. -/
theorem Token.Leaves.node {trees children : List SyntaxTree} {t : Token} (h : t.Leaves trees)
    (tag : Tag) (below : ∀ tree ∈ trees, tree ∈ children) : t.Leaves [.node tag children] := by
  refine h.mono fun tag' tree hmem has => ?_
  exact ⟨_, List.mem_singleton_self _, .child (below tree hmem) has⟩

namespace Derivation

open Grammar

variable {α : Type}

/-- All tokens of a derivation leave what they leave in the trees of its value. -/
def Leave (L : Language α) (trees : α → List SyntaxTree) : Prop :=
  ∀ ws a, L ws a → ∀ t ∈ ws, t.Leaves (trees a)

theorem leave_clause {L : Language α} {trees : α → List SyntaxTree} {words : List Token}
    (ordinary : ∀ w ∈ words, w.IsOrdinary) (h : Leave L trees) :
    Leave (Clause words L) fun a? => a?.toList.flatMap trees := by
  intro ws a? d t ht
  cases d with
  | absent => cases ht
  | @present us a part =>
    rcases List.mem_append.1 ht with ht | ht
    · exact (ordinary t ht).leaves _
    · simpa using h _ _ part t ht

theorem leave_listed {L : Language α} {trees : α → List SyntaxTree} (h : Leave L trees) :
    Leave (Listed L) fun as => as.flatMap trees := by
  intro ws as d
  induction d with
  | last item => simpa using h _ _ item
  | @more ws us a as item items ih =>
    intro t ht
    simp only [List.mem_append, List.mem_cons] at ht
    rcases ht with ht | rfl | ht
    · refine (h _ _ item t ht).mono fun tag tree hmem has => ⟨tree, ?_, has⟩
      exact List.mem_append_left _ hmem
    · exact Token.IsOrdinary.leaves (by decide) _
    · refine (ih t ht).mono fun tag tree hmem has => ⟨tree, ?_, has⟩
      exact List.mem_append_right _ hmem

theorem leave_alias : Leave Alias fun _ => [] := by
  intro ws name? d t ht
  refine Token.IsOrdinary.leaves ?_ _
  cases d <;> simp at ht
  · simp [ht, Token.IsOrdinary]
  · rcases ht with rfl | rfl <;> simp [Token.IsOrdinary]

section Nested

variable {nest : SyntaxTree → α → SyntaxTree} {First : Language SyntaxTree} {Step : Language α}

/-- Steps leave what they leave in the node that is made of them. -/
theorem leave_nested (hfirst : Leave First fun tree => [tree])
    (hstep : ∀ left, Leave Step fun a => [nest left a])
    (kept : ∀ left a tag, left.Has tag → (nest left a).Has tag) :
    Leave (Nested nest First Step) fun tree => [tree] := by
  have hsteps : ∀ {left tree : SyntaxTree} {ws : List Token}, Steps nest Step left ws tree →
      (∀ tag, left.Has tag → tree.Has tag) ∧ ∀ t ∈ ws, t.Leaves [tree] := by
    intro left tree ws d
    induction d with
    | done left => exact ⟨fun _ has => has, nofun⟩
    | @step left tree ws us a first more ih =>
      refine ⟨fun tag has => ih.1 tag (kept left a tag has), fun t ht => ?_⟩
      rcases List.mem_append.1 ht with ht | ht
      · refine (hstep left _ _ first t ht).mono fun tag node hmem has => ?_
        rw [List.mem_singleton.1 hmem] at has
        exact ⟨tree, List.mem_singleton_self _, ih.1 tag has⟩
      · exact ih.2 t ht
  intro ws tree d t ht
  cases d with
  | @mk ws us left _ first steps =>
    obtain ⟨hkept, hmore⟩ := hsteps steps
    rcases List.mem_append.1 ht with ht | ht
    · refine (hfirst _ _ first t ht).mono fun tag node hmem has => ?_
      rw [List.mem_singleton.1 hmem] at has
      exact ⟨tree, List.mem_singleton_self _, hkept tag has⟩
    · exact hmore t ht

end Nested

/-! ### Expressions -/

/-- The operators of a level leave their own tag. -/
def OperatorsLeave (operators : List (Token × Tag)) : Prop :=
  ∀ p ∈ operators, p.1 ≠ .eof ∧ (p.1 = .keyword .AND → p.2 = .conjunction) ∧
    (p.1 = .keyword .OR → p.2 = .disjunction)

instance (operators : List (Token × Tag)) : Decidable (OperatorsLeave operators) :=
  inferInstanceAs (Decidable (∀ p ∈ operators, _ ∧ _ ∧ _))

theorem OperatorsLeave.leaves {operators : List (Token × Tag)} (h : OperatorsLeave operators)
    {t : Token} {tag : Tag} (operator : (t, tag) ∈ operators) (children : List SyntaxTree) :
    t.Leaves [.node tag children] where
  noEnd := (h _ operator).1
  conjunction ht := ⟨_, List.mem_singleton_self _, .root ((h _ operator).2.1 ht)⟩
  disjunction ht := ⟨_, List.mem_singleton_self _, .root ((h _ operator).2.2 ht)⟩

variable {E O : Language SyntaxTree}

theorem leave_joined {operators : List (Token × Tag)} (hoperators : OperatorsLeave operators)
    (h : Leave O fun tree => [tree]) : Leave (Joined operators O) fun tree => [tree] := by
  refine leave_nested h ?_ ?_
  · intro left ws step d t ht
    cases d with
    | @mk t' tag ws right operator operand =>
      rcases List.mem_cons.1 ht with rfl | ht
      · exact hoperators.leaves operator _
      · exact (h _ _ operand t ht).node tag (by simp)
  · exact fun left step tag has => .child (List.mem_cons_self ..) has

theorem leave_comparison (h : Leave O fun tree => [tree]) :
    Leave (Comparison O) fun tree => [tree] := by
  intro ws tree d t ht
  cases d with
  | none operand => exact h _ _ operand t ht
  | @compare t' tag ws us left right hleft operator hright =>
    simp only [List.mem_append, List.mem_cons] at ht
    have hoperators : OperatorsLeave comparisonOperators := by decide
    rcases ht with ht | rfl | ht
    · exact (h _ _ hleft t ht).node tag (by simp)
    · exact hoperators.leaves operator _
    · exact (h _ _ hright t ht).node tag (by simp)

theorem leave_operand (h : Leave E fun tree => [tree]) : Leave (Operand E) fun tree => [tree] := by
  intro ws tree d t ht
  cases d with
  | call name listed =>
    simp only [List.mem_append, List.mem_cons, List.not_mem_nil, or_false] at ht
    rcases ht with rfl | rfl | ht | rfl
    · exact Token.IsOrdinary.leaves (by simp [Token.IsOrdinary]) _
    · exact Token.IsOrdinary.leaves (by decide) _
    · refine (leave_listed h _ _ listed t ht).node _ fun tree hmem => ?_
      simp only [List.mem_flatMap, List.mem_singleton, exists_eq_right'] at hmem
      exact List.mem_cons_of_mem _ hmem
    · exact Token.IsOrdinary.leaves (by decide) _
  | enclosed inner =>
    simp only [List.mem_append, List.mem_cons, List.not_mem_nil, or_false] at ht
    rcases ht with rfl | ht | rfl
    · exact Token.IsOrdinary.leaves (by decide) _
    · exact h _ _ inner t ht
    · exact Token.IsOrdinary.leaves (by decide) _
  | _ =>
    refine Token.IsOrdinary.leaves ?_ _
    simp only [List.mem_cons, List.not_mem_nil, or_false] at ht
    rcases ht with rfl | rfl | rfl | rfl <;> simp [Token.IsOrdinary]

theorem leave_signed (h : Leave O fun tree => [tree]) : Leave (Signed O) fun tree => [tree] := by
  intro ws tree d
  induction d with
  | negative text =>
    intro t ht
    refine Token.IsOrdinary.leaves ?_ _
    simp only [List.mem_cons, List.not_mem_nil, or_false] at ht
    rcases ht with rfl | rfl <;> simp [Token.IsOrdinary]
  | negated noNumber signed ih =>
    intro t ht
    rcases List.mem_cons.1 ht with rfl | ht
    · exact Token.IsOrdinary.leaves (by decide) _
    · exact (ih t ht).node _ (by simp)
  | operand operand => exact h _ _ operand

theorem leave_expressionTo (depth : Nat) : Leave (ExpressionTo depth) fun tree => [tree] := by
  induction depth with
  | zero => exact nofun
  | succ depth ih =>
    exact leave_joined (by decide) <| leave_joined (by decide) <| leave_comparison <|
      leave_joined (by decide) <| leave_joined (by decide) <| leave_signed <| leave_operand ih

theorem leave_expression : Leave Expression fun tree => [tree] :=
  fun ws e d => leave_expressionTo ws.length ws e d

/-! ### Queries and statements -/

theorem leave_item : Leave Item fun tree => [tree] := by
  intro ws tree d t ht
  cases d with
  | allColumns =>
    rw [List.mem_singleton.1 ht]
    exact Token.IsOrdinary.leaves (by decide) _
  | expr expr named =>
    rcases List.mem_append.1 ht with ht | ht
    · exact (leave_expression _ _ expr t ht).node _ (by simp)
    · exact (leave_alias _ _ named t ht).node _ (by simp)

theorem leave_tableName : Leave TableName fun _ => [] := by
  intro ws tree d t ht
  refine Token.IsOrdinary.leaves ?_ _
  cases d with
  | plain name =>
    rw [List.mem_singleton.1 ht]
    simp [Token.IsOrdinary]
  | qualified database name =>
    simp only [List.mem_cons, List.not_mem_nil, or_false] at ht
    rcases ht with rfl | rfl | rfl <;> simp [Token.IsOrdinary]

section Nesting

variable {Q : Language SyntaxTree}

theorem leave_source (h : Leave Q fun tree => [tree]) : Leave (Source Q) fun tree => [tree] := by
  intro ws tree d t ht
  cases d with
  | table name named =>
    rcases List.mem_append.1 ht with ht | ht
    · exact (leave_tableName _ _ name t ht).node _ (by simp)
    · exact (leave_alias _ _ named t ht).node _ (by simp)
  | subquery query named =>
    simp only [List.mem_append, List.mem_cons] at ht
    rcases ht with rfl | ht | rfl | ht
    · exact Token.IsOrdinary.leaves (by decide) _
    · exact (h _ _ query t ht).node _ (by simp)
    · exact Token.IsOrdinary.leaves (by decide) _
    · exact (leave_alias _ _ named t ht).node _ (by simp)

theorem joinSpellings_ordinary : ∀ p ∈ joinSpellings, ∀ t ∈ p.1, t.IsOrdinary := by decide

theorem leave_element (h : Leave Q fun tree => [tree]) : Leave (Element Q) fun tree => [tree] := by
  refine leave_nested (leave_source h) ?_ ?_
  · intro left ws step d t ht
    cases d with
    | @mk words ws us op right on? spelled source condition =>
      simp only [List.mem_append] at ht
      rcases ht with ht | ht | ht
      · exact (joinSpellings_ordinary _ spelled t ht).leaves _
      · exact (leave_source h _ _ source t ht).node _ (by simp)
      · have hon := leave_clause (by decide) leave_expression _ _ condition t ht
        refine hon.node _ fun tree hmem => ?_
        simp only [List.mem_flatMap, List.mem_singleton, exists_eq_right'] at hmem
        exact List.mem_cons_of_mem _ (List.mem_cons_of_mem _ hmem)
  · exact fun left step tag has => .child (List.mem_cons_self ..) has

theorem leave_query (h : Leave Q fun tree => [tree]) (destination : SyntaxTree) :
    Leave (Query Q destination) fun tree => [tree] := by
  intro ws tree d t ht
  cases d with
  | @mk ws us vs xs items from? where? group? selected tables condition grouped =>
    -- The clauses but FROM stand one level further down.
    have hclause : ∀ clause, t.Leaves [clause] →
        clause ∈ [.node .destination [destination], .node .selectClause items] ++
          (where?.toList.map fun condition => .node .whereClause [condition]) ++
          group?.toList.map (.node .groupByClause) →
        t.Leaves [queryNode destination items from? where? group?] := by
      intro clause leaves below
      have hinsert := leaves.node .insertClause fun tree hmem => by
        rw [List.mem_singleton.1 hmem]
        exact below
      exact hinsert.node .query fun tree hmem => List.mem_append_right _ hmem
    simp only [List.mem_append, List.mem_cons] at ht
    rcases ht with rfl | ht | ht | ht | ht
    · exact Token.IsOrdinary.leaves (by decide) _
    · have hitems : t.Leaves (items.flatMap fun tree => [tree]) :=
        leave_listed leave_item _ _ selected t ht
      rw [List.flatMap_singleton'] at hitems
      exact hclause _ (hitems.node .selectClause fun _ => id) (by simp)
    · have hfrom : t.Leaves (from?.toList.flatMap fun tree => [tree]) :=
        leave_clause (by decide) (leave_element h) _ _ tables t ht
      rw [List.flatMap_singleton'] at hfrom
      cases tables with
      | absent => cases ht
      | present part =>
        exact (hfrom.node .fromClause fun _ => id).node .query fun tree hmem =>
          List.mem_append_left _ hmem
    · have hwhere : t.Leaves (where?.toList.flatMap fun tree => [tree]) :=
        leave_clause (by decide) leave_expression _ _ condition t ht
      rw [List.flatMap_singleton'] at hwhere
      cases condition with
      | absent => cases ht
      | present part => exact hclause _ (hwhere.node .whereClause fun _ => id) (by simp)
    · have hgroup := leave_clause (by decide) (leave_listed leave_expression) _ _ grouped t ht
      cases grouped with
      | absent => cases ht
      | @present us exprs part =>
        refine hclause (.node .groupByClause exprs) (hgroup.node .groupByClause ?_) (by simp)
        simp

end Nesting

theorem leave_subqueryTo (depth : Nat) : Leave (SubqueryTo depth) fun tree => [tree] := by
  induction depth with
  | zero => exact nofun
  | succ depth ih => exact leave_query ih tempDestination

theorem leave_subquery : Leave Subquery fun tree => [tree] :=
  fun ws tree d => leave_subqueryTo ws.length ws tree d

theorem wordIf_ordinary {isThere : Bool} {word : Keyword} (h : Token.IsOrdinary (.keyword word)) :
    ∀ t ∈ wordIf isThere word, t.IsOrdinary := by
  intro t ht
  cases isThere with
  | true =>
    rw [List.mem_singleton.1 ht]
    exact h
  | false => cases ht

/-- The tokens of a statement do not hold the end, and its tree has nodes for `AND` and `OR`. -/
theorem leave_plain : Leave Plain fun tree => [tree] := by
  intro ws tree d t ht
  cases d with
  | select query => exact leave_query leave_subquery _ _ _ query t ht
  | insert target query =>
    simp only [List.mem_append, List.mem_cons] at ht
    rcases ht with rfl | rfl | rfl | ht | ht
    · exact Token.IsOrdinary.leaves (by decide) _
    · exact Token.IsOrdinary.leaves (by decide) _
    · exact Token.IsOrdinary.leaves (by decide) _
    · exact (leave_tableName _ _ target t ht).mono nofun
    · exact leave_query leave_subquery _ _ _ query t ht
  | load isLocal overwrite file target =>
    simp only [List.mem_append, List.mem_cons] at ht
    rcases ht with rfl | rfl | ht | rfl | rfl | ht | rfl | rfl | ht
    · exact Token.IsOrdinary.leaves (by decide) _
    · exact Token.IsOrdinary.leaves (by decide) _
    · exact (wordIf_ordinary (by decide) t ht).leaves _
    · exact Token.IsOrdinary.leaves (by decide) _
    · exact Token.IsOrdinary.leaves (by simp [Token.IsOrdinary]) _
    · exact (wordIf_ordinary (by decide) t ht).leaves _
    · exact Token.IsOrdinary.leaves (by decide) _
    · exact Token.IsOrdinary.leaves (by decide) _
    · exact (leave_tableName _ _ target t ht).mono nofun

end Derivation

end SqlGuard
