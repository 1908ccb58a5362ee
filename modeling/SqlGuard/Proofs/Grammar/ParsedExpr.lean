import SqlGuard.Grammar.Query
import SqlGuard.Proofs.Reader.Keeps

/-!
# What expressions are read as

The trees that the grammar makes of expressions, each with the names and literals in it. These are
tokens that were read, in their order. Main statement: `keeps_expression`.
-/

namespace SqlGuard.Grammar

open Reader

/-- The kinds of nodes with two operands. -/
def isOperatorTag : Tag → Bool
  | .arith _ | .compare _ | .conjunction | .disjunction => true
  | _ => false

/-- The tree of an expression with the tokens of the names and literals in it, from left to right.
    Trees that no expression is made of may have any tokens. -/
inductive ExprTree : SyntaxTree → List Token → Prop
  | number (text : String) : ExprTree (numberLiteral text) [.number text]
  | negative (text : String) : ExprTree (numberLiteral ("-" ++ text)) [.number text]
  | string (text : String) : ExprTree (.leaf .stringLiteral text) [.string text]
  | column (name : String) : ExprTree (columnNode name) [.ident name]
  | qualified (qualifier name : String) :
      ExprTree (qualifiedNode qualifier name) [.ident qualifier, .ident name]
  | starCall (name : String) : ExprTree (starCallNode name) [.ident name]
  | call (name : String) (arguments : List SyntaxTree) (ws : List Token) :
      ExprTree (callNode name arguments) ws
  | negated (tree : SyntaxTree) (ws : List Token) : ExprTree (.node (.arith .sub) [tree]) ws
  | operator {tag : Tag} {left right : SyntaxTree} {ws us : List Token}
      (isOperator : isOperatorTag tag = true) (hleft : ExprTree left ws)
      (hright : ExprTree right us) : ExprTree (.node tag [left, right]) (ws ++ us)

theorem keeps_identifier : Keeps identifier fun name ws => ws = [.ident name] := by
  refine Keeps.onNext ?_ keeps_refuse
  intro t r hr
  split at hr
  · cases hr
    exact .inl (keeps_pure rfl)
  · cases hr

theorem keeps_expect {t : Token} : Keeps (expect t) fun _ ws => ws = [] := keeps_demand

variable {inner : TokenReader SyntaxTree}

theorem keeps_call (name : String) :
    Keeps (call inner name) fun tree ws => ExprTree tree (.ident name :: ws) := by
  refine keeps_look fun ts => ?_
  split
  · refine keeps_expect.bind fun _ ws hws => keeps_expect.bind fun _ us hus => keeps_pure ?_
    rw [hws, hus]
    exact .starCall name
  · refine keeps_accept.bind fun closed ws _ => ?_
    split
    · exact keeps_pure (.call ..)
    · refine (keeps_any _).bind fun arguments us _ => keeps_expect.bind fun _ vs _ => keeps_pure ?_
      exact .call ..

theorem keeps_named (name : String) :
    Keeps (named inner name) fun tree ws => ExprTree tree (.ident name :: ws) := by
  refine Keeps.onNext ?_ (keeps_pure (.column name))
  intro t r hr
  split at hr
  · cases hr
    exact .inr (keeps_call name)
  · cases hr
    refine .inr (keeps_identifier.map fun column ws hws => ?_)
    rw [hws]
    exact .qualified name column
  · cases hr

theorem keeps_operand (h : Keeps inner ExprTree) : Keeps (operand inner) ExprTree := by
  refine Keeps.onNext ?_ keeps_refuse
  intro t r hr
  split at hr
  · cases hr
    exact .inl (keeps_pure (.number _))
  · cases hr
    exact .inl (keeps_pure (.string _))
  · cases hr
    exact .inl (keeps_named _)
  · cases hr
    refine .inr (h.bind fun tree ws htree => keeps_expect.bind fun _ us hus => keeps_pure ?_)
    rw [hus, List.append_nil]
    rw [List.append_nil]
    exact htree
  · cases hr

/-- A sign right before a number is a part of it, and another sign makes a node that no expression
    is made of. -/
theorem keeps_signed (h : Keeps inner ExprTree) : Keeps (signed inner) ExprTree := by
  intro ts tree rest hrun
  replace hrun : signedRun inner ts = .ok (tree, rest) := hrun
  induction ts using signedRun.induct generalizing tree rest with
  | case1 text ts =>
    rw [signedRun] at hrun
    cases hrun
    exact ⟨[.number text], .negative text, (List.Sublist.refl _).cons _⟩
  | case2 ts hnumber ih =>
    rw [signedRun] at hrun
    · cases hmore : signedRun inner ts with
      | error e =>
        rw [hmore] at hrun
        cases hrun
      | ok p =>
        obtain ⟨tree', rest'⟩ := p
        rw [hmore] at hrun
        cases hrun
        obtain ⟨ws, -, hsub⟩ := ih tree' rest hmore
        exact ⟨ws, .negated tree' ws, hsub.cons _⟩
    · exact hnumber
  | case3 ts h1 h2 =>
    rw [signedRun] at hrun
    · exact keeps_operand h ts tree rest hrun
    · exact h1
    · exact h2

/-! ### Levels of operators -/

theorem exprTree_leftNested {first : SyntaxTree} {ws : List Token} (hfirst : ExprTree first ws)
    {more : List (Tag × SyntaxTree)} {us : List Token}
    (hmore : KeptList (fun p ws => isOperatorTag p.1 = true ∧ ExprTree p.2 ws) more us) :
    ExprTree (leftNested first more) (ws ++ us) := by
  induction hmore generalizing first ws with
  | nil =>
    rw [List.append_nil]
    exact hfirst
  | cons hp _ ih =>
    rw [← List.append_assoc]
    exact ih (.operator hp.1 hfirst hp.2)

theorem keeps_joined {operator : Token → Option Tag} {operand : TokenReader SyntaxTree}
    (isOperator : ∀ t tag, operator t = some tag → isOperatorTag tag = true)
    (h : Keeps operand ExprTree) : Keeps (joined operator operand) ExprTree := by
  have hchain : Keeps (chain operator fun tag => (tag, ·) <$> operand)
      (KeptList fun p ws => isOperatorTag p.1 = true ∧ ExprTree p.2 ws) :=
    Keeps.chain fun t tag htag => h.map fun tree us htree => ⟨isOperator t tag htag, htree⟩
  refine h.bind fun first ws hfirst => hchain.bind fun more us hmore => keeps_pure ?_
  rw [List.append_nil]
  exact exprTree_leftNested hfirst hmore

theorem keeps_sum (h : Keeps inner ExprTree) : Keeps (sum inner) ExprTree := by
  refine keeps_joined ?_ (keeps_joined ?_ (keeps_signed h))
  · intro t tag htag
    unfold sumOperator at htag
    split at htag <;> cases htag <;> rfl
  · intro t tag htag
    unfold productOperator at htag
    split at htag <;> cases htag <;> rfl

theorem keeps_comparison (h : Keeps inner ExprTree) : Keeps (comparison inner) ExprTree := by
  refine (keeps_sum h).bind fun left ws hleft => Keeps.onNext ?_ (keeps_pure ?_)
  · intro t r hr
    rw [Option.map_eq_some_iff] at hr
    obtain ⟨tag, htag, rfl⟩ := hr
    have isOperator : isOperatorTag tag = true := by
      unfold comparisonOperator at htag
      split at htag <;> cases htag <;> rfl
    refine .inr ((keeps_sum h).bind fun right us hright => keeps_pure ?_)
    rw [List.append_nil]
    exact .operator isOperator hleft hright
  · rw [List.append_nil]
    exact hleft

theorem keeps_disjunction (h : Keeps inner ExprTree) : Keeps (disjunction inner) ExprTree := by
  refine keeps_joined ?_ (keeps_joined ?_ (keeps_comparison h))
  · intro t tag htag
    unfold orOperator at htag
    split at htag
    · cases htag
      rfl
    · cases htag
  · intro t tag htag
    unfold andOperator at htag
    split at htag
    · cases htag
      rfl
    · cases htag

theorem keeps_expressionTo (depth : Nat) : Keeps (expressionTo depth) ExprTree := by
  induction depth with
  | zero => exact keeps_refuse
  | succ depth ih => exact keeps_disjunction (keeps_look fun _ => ih)

/-- Expressions are read as trees of expressions. -/
theorem keeps_expression : Keeps expression ExprTree :=
  keeps_look fun ts => keeps_expressionTo ts.length

end SqlGuard.Grammar
