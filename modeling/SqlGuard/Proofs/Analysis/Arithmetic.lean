import Mathlib
import SqlGuard.Proofs.Analysis.Typing

/-!
# Arithmetic by its leaves

Analysis checks operands and widens types at each operator of an arithmetic expression, on types
that are widened already. What comes out is said by its leaves alone, the operands that are no
arithmetic themselves: all of them have to be numbers or of unknown type, and the type is the widest
of theirs. Parentheses and the choice of operators make no difference. Main statement:
`Expr.resolve_by_leaves`.
-/

namespace SqlGuard

/-- The leaves of arithmetic from left to right: the operands that are no arithmetic. -/
def Expr.leaves : Expr → List Expr
  | .arith _ left right _ => left.leaves ++ right.leaves
  | e => [e]

/-! ### The widest of several types -/

namespace DataType

/-- The widest of several types: unknown if one of them is, and otherwise the first of those whose
    rank is the highest. -/
inductive IsWidest (types : List DataType) : DataType → Prop
  | unknown (among : .unknown ∈ types) : IsWidest types .unknown
  | known {before after : List DataType} {type : DataType} (known : .unknown ∉ types)
      (place : types = before ++ type :: after) (above : ∀ t ∈ before, t.rank < type.rank)
      (atLeast : ∀ t ∈ after, t.rank ≤ type.rank) : IsWidest types type

/-- Numeric types have ranks in this order, and all decimals have the same. -/
theorem rank_order (precision scale precision' scale' : UInt8) :
    [int, bigInt, float, double, decimal precision scale].Pairwise (·.rank < ·.rank) ∧
      (decimal precision scale).rank = (decimal precision' scale').rank := by
  simp [rank]

theorem widen_unknown_left (right : DataType) : unknown.widen right = unknown :=
  if_pos (.inl rfl)

theorem widen_unknown_right (left : DataType) : left.widen unknown = unknown :=
  if_pos (.inr rfl)

theorem widen_of_known {left right : DataType} (hleft : left ≠ unknown) (hright : right ≠ unknown) :
    left.widen right = if right.rank ≤ left.rank then left else right :=
  if_neg (not_or.2 ⟨hleft, hright⟩)

namespace IsWidest

variable {types more : List DataType} {type left right : DataType}

theorem singleton (type : DataType) : IsWidest [type] type := by
  by_cases h : type = .unknown
  · subst h
    exact .unknown (List.mem_singleton_self _)
  · have known : DataType.unknown ∉ [type] := fun among => h (List.mem_singleton.1 among).symm
    exact .known known (List.nil_append _).symm nofun nofun

theorem mem (widest : IsWidest types type) : type ∈ types := by
  cases widest with
  | unknown among => exact among
  | known _ place => simp [place]

theorem rank_le (widest : IsWidest types type) (known : .unknown ∉ types) {t : DataType}
    (ht : t ∈ types) : t.rank ≤ type.rank := by
  cases widest with
  | unknown among => exact absurd among known
  | known _ place above atLeast =>
    rw [place] at ht
    rcases List.mem_append.1 ht with hbefore | hrest
    · exact Nat.le_of_lt (above t hbefore)
    · rcases List.mem_cons.1 hrest with rfl | hafter
      · exact Nat.le_refl _
      · exact atLeast t hafter

/-- Types have one widest. -/
theorem unique (hleft : IsWidest types left) (hright : IsWidest types right) : left = right := by
  by_cases among : DataType.unknown ∈ types
  · cases hleft with
    | known known => exact absurd among known
    | unknown =>
      cases hright with
      | known known => exact absurd among known
      | unknown => rfl
  · have hle := hright.rank_le among hleft.mem
    have hge := hleft.rank_le among hright.mem
    cases hleft with
    | unknown known => exact absurd known among
    | known _ place above _ =>
      cases hright with
      | unknown known => exact absurd known among
      | known _ place' above' _ =>
        -- of two places, the type at the first one would rank below the other
        rcases List.append_eq_append_iff.1 (place.symm.trans place') with
          ⟨between, hbefore, hrest⟩ | ⟨between, hbefore, hrest⟩
        · cases between with
          | nil => exact (List.cons.inj hrest).1
          | cons first between =>
            obtain ⟨rfl, -⟩ := List.cons.inj hrest
            have hlt := above' left (by simp [hbefore])
            omega
        · cases between with
          | nil => exact (List.cons.inj hrest).1.symm
          | cons first between =>
            obtain ⟨rfl, -⟩ := List.cons.inj hrest
            have hlt := above right (by simp [hbefore])
            omega

/-- Widening makes the widest type of two lists from the widest of each. -/
theorem append (hleft : IsWidest types left) (hright : IsWidest more right) :
    IsWidest (types ++ more) (left.widen right) := by
  have hmore := fun known t ht => hright.rank_le known (t := t) ht
  have htypes := fun known t ht => hleft.rank_le known (t := t) ht
  cases hleft with
  | unknown among =>
    rw [widen_unknown_left]
    exact .unknown (List.mem_append_left more among)
  | known known place above atLeast =>
    cases hright with
    | unknown among =>
      rw [widen_unknown_right]
      exact .unknown (List.mem_append_right types among)
    | known known' place' above' atLeast' =>
      have none : DataType.unknown ∉ types ++ more := by
        rw [List.mem_append]
        exact not_or.2 ⟨known, known'⟩
      have hleft : left ≠ .unknown := by
        rintro rfl
        exact known (by simp [place])
      have hright : right ≠ .unknown := by
        rintro rfl
        exact known' (by simp [place'])
      rw [widen_of_known hleft hright]
      split
      · rename_i hrank
        refine .known none (by rw [place, List.append_assoc, List.cons_append]) above ?_
        intro t ht
        rcases List.mem_append.1 ht with hafter | hmem
        · exact atLeast t hafter
        · exact Nat.le_trans (hmore known' t hmem) hrank
      · rename_i hrank
        refine .known none (by rw [place', List.append_assoc]) ?_ atLeast'
        intro t ht
        rcases List.mem_append.1 ht with hmem | hbefore
        · exact Nat.lt_of_le_of_lt (htypes known t hmem) (Nat.lt_of_not_le hrank)
        · exact above' t hbefore

end IsWidest

theorem isOperand_widen {left right : DataType} (hleft : left.isOperand = true)
    (hright : right.isOperand = true) : (left.widen right).isOperand = true := by
  rcases List.mem_pair.1 ((IsWidest.singleton left).append (.singleton right)).mem with h | h
  · rwa [h]
  · rwa [h]

end DataType

/-! ### Expressions -/

namespace Expr

variable {scope : Scope} {e e' other : Expr}

/-- Each leaf of a typed expression is typed by itself. -/
theorem Typed.forall₂_leaves (typed : e.Typed scope e') :
    List.Forall₂ (Expr.Typed scope) e.leaves e'.leaves := by
  induction typed with
  | field means column => exact .cons (.field means column) .nil
  | literal kind text => exact .cons (.literal kind text) .nil
  | starCall name => exact .cons (.starCall name) .nil
  | arith _ _ _ _ ihl ihr => exact List.rel_append ihl ihr
  | compare hleft hright comparable => exact .cons (.compare hleft hright comparable) .nil

/-- The type of an expression is the widest of those of its leaves. -/
theorem Typed.isWidest (typed : e.Typed scope e') :
    DataType.IsWidest (e'.leaves.map type) e'.type := by
  induction typed with
  | field | literal | starCall | compare => exact .singleton _
  | arith _ _ _ _ ihl ihr =>
    rw [leaves, List.map_append]
    exact ihl.append ihr

/-- Arithmetic has nothing but operands of arithmetic as its leaves, and so has such an operand. -/
theorem Typed.isOperand_of_mem_leaves (typed : e.Typed scope e')
    (taken : e.isArith = true ∨ e'.type.isOperand = true) {leaf : Expr} (hleaf : leaf ∈ e'.leaves) :
    leaf.type.isOperand = true := by
  induction typed with
  | field | literal | starCall | compare =>
    rw [List.mem_singleton.1 hleaf]
    exact taken.resolve_left nofun
  | arith _ _ leftOk rightOk ihl ihr =>
    rcases List.mem_append.1 hleaf with hmem | hmem
    · exact ihl (.inr (DataType.isOperand_iff.2 leftOk)) hmem
    · exact ihr (.inr (DataType.isOperand_iff.2 rightOk)) hmem

/-- An expression is an operand of arithmetic if its leaves are. -/
theorem exists_typed_of_leaves (e : Expr) (operands : ∀ leaf ∈ e.leaves,
    ∃ leaf', leaf.Typed scope leaf' ∧ leaf'.type.isOperand = true) :
    ∃ e', e.Typed scope e' ∧ e'.type.isOperand = true := by
  induction e with
  | field | literal | starCall | compare => exact operands _ (List.mem_singleton_self _)
  | arith op left right note ihl ihr =>
    rw [leaves, List.forall_mem_append] at operands
    obtain ⟨left', hleft, leftOk⟩ := ihl operands.1
    obtain ⟨right', hright, rightOk⟩ := ihr operands.2
    refine ⟨.arith op left' right' (left'.type.widen right'.type), ?_,
      DataType.isOperand_widen leftOk rightOk⟩
    exact .arith hleft hright (DataType.isOperand_iff.1 leftOk) (DataType.isOperand_iff.1 rightOk)

section Resolution

variable {leaves : List Expr} (resolved : e.leaves.mapM (Expr.resolve scope) = .ok leaves)

/-- What the leaves resolve to are the leaves of what the expression resolves to. -/
theorem resolve_leaves (typed : e.Typed scope e') :
    e.leaves.mapM (Expr.resolve scope) = .ok e'.leaves :=
  mapM_eq_ok.2 (typed.forall₂_leaves.imp fun _ _ => resolve_eq_ok_iff.2)

include resolved

theorem Typed.leaves_eq (typed : e.Typed scope e') : e'.leaves = leaves := by
  rw [resolve_leaves typed] at resolved
  exact Except.ok.inj resolved

/-- The operators of arithmetic take what they are given exactly if the leaves are operands. -/
theorem exists_resolve_arith_iff (arith : e.isArith = true) :
    (∃ e', e.resolve scope = .ok e') ↔ ∀ leaf ∈ leaves, leaf.type.isOperand = true := by
  constructor
  · rintro ⟨e', he⟩ leaf hleaf
    have typed := resolve_eq_ok_iff.1 he
    rw [← typed.leaves_eq resolved] at hleaf
    exact typed.isOperand_of_mem_leaves (.inl arith) hleaf
  · intro operands
    obtain ⟨e', typed, -⟩ := exists_typed_of_leaves e fun leaf hleaf => by
      obtain ⟨leaf', hleaf', hresolved⟩ := forall₂_mem_left (mapM_eq_ok.1 resolved) hleaf
      exact ⟨leaf', resolve_eq_ok_iff.1 hresolved, operands leaf' hleaf'⟩
    exact ⟨e', resolve_eq_ok_iff.2 typed⟩

end Resolution

section Regrouping

variable (arith : e.isArith = true) (arith' : other.isArith = true)
  (same : other.leaves = e.leaves)
include arith same

/-- Arithmetic is accepted with the type that other arithmetic has over the same leaves. -/
theorem resolve_of_leaves_eq (accepted : e.resolve scope = .ok e') :
    ∃ other', other.resolve scope = .ok other' ∧ other'.type = e'.type := by
  have typed := resolve_eq_ok_iff.1 accepted
  have operands : ∀ leaf ∈ other.leaves,
      ∃ leaf', leaf.Typed scope leaf' ∧ leaf'.type.isOperand = true := by
    intro leaf hleaf
    rw [same] at hleaf
    obtain ⟨leaf', hleaf', htyped⟩ := forall₂_mem_left typed.forall₂_leaves hleaf
    exact ⟨leaf', htyped, typed.isOperand_of_mem_leaves (.inl arith) hleaf'⟩
  obtain ⟨other', typed', -⟩ := exists_typed_of_leaves other operands
  have hleaves : other'.leaves = e'.leaves := typed'.leaves_eq (same ▸ resolve_leaves typed)
  have widest := typed'.isWidest
  rw [hleaves] at widest
  exact ⟨other', resolve_eq_ok_iff.2 typed', widest.unique typed.isWidest⟩

include arith'

theorem resolve_type_eq_of_leaves_eq :
    (other.resolve scope).toOption.map type = (e.resolve scope).toOption.map type := by
  cases he : e.resolve scope with
  | ok e' =>
    obtain ⟨other', hother, htype⟩ := resolve_of_leaves_eq arith same he
    rw [hother]
    exact congrArg some htype
  | error failure =>
    cases hother : other.resolve scope with
    | error failure' => rfl
    | ok other' =>
      obtain ⟨e', he', -⟩ := resolve_of_leaves_eq arith' same.symm hother
      rw [he] at he'
      cases he'

end Regrouping

/-- Arithmetic whose leaves resolve is accepted exactly if all of them are numbers or of unknown
    type, and has the widest of their types. Other arithmetic over the same leaves, with other
    operators or parentheses, is accepted with the same type, or refused like it. -/
theorem resolve_by_leaves (arith : e.isArith = true) :
    (∀ leaves, e.leaves.mapM (Expr.resolve scope) = .ok leaves →
      ((∃ e', e.resolve scope = .ok e') ↔
        ∀ leaf ∈ leaves, leaf.type = .unknown ∨ leaf.type.isNumeric = true) ∧
      ∀ e', e.resolve scope = .ok e' → DataType.IsWidest (leaves.map type) e'.type) ∧
    (∀ other : Expr, other.isArith = true → other.leaves = e.leaves →
      (other.resolve scope).toOption.map type = (e.resolve scope).toOption.map type) ∧
    ∀ p s p' s', [DataType.int, .bigInt, .float, .double, .decimal p s].Pairwise (·.rank < ·.rank) ∧
      (DataType.decimal p s).rank = (DataType.decimal p' s').rank := by
  refine ⟨fun leaves resolved => ⟨?_, fun e' he => ?_⟩,
    fun other arith' same => resolve_type_eq_of_leaves_eq arith arith' same, DataType.rank_order⟩
  · simp only [exists_resolve_arith_iff resolved arith, DataType.isOperand_iff]
  · have typed := resolve_eq_ok_iff.1 he
    rw [← typed.leaves_eq resolved]
    exact typed.isWidest

/-- A sum times a column, regrouped with other operators: the first of two decimals is the type. -/
theorem resolve_by_leaves_regrouped :
    let scope : Scope :=
      [⟨some "t", [⟨"a", .int, false⟩, ⟨"b", .decimal 5 2, true⟩, ⟨"c", .decimal 9 0, false⟩]⟩]
    let field (name : String) : Expr := .field ⟨"", name, .unknown, false⟩
    let e : Expr :=
      .arith .mul (.arith .add (field "a") (field "b") .unknown) (field "c") .unknown
    let other : Expr :=
      .arith .sub (field "a") (.arith .div (field "b") (field "c") .unknown) .unknown
    e.isArith = true ∧ (∃ e', e.resolve scope = .ok e') ∧
      (e.resolve scope).toOption.map type = some (.decimal 5 2) ∧
      (other.resolve scope).toOption.map type = some (.decimal 5 2) := by
  intro scope field e other
  obtain ⟨accepted, regrouped, -⟩ := @resolve_by_leaves scope e rfl
  have htype : (e.resolve scope).toOption.map type = some (.decimal 5 2) := by cbv
  have hleaves : e.leaves.mapM (Expr.resolve scope) = .ok
      [.field ⟨"", "a", .int, false⟩, .field ⟨"", "b", .decimal 5 2, true⟩,
        .field ⟨"", "c", .decimal 9 0, false⟩] := by cbv
  refine ⟨rfl, (accepted _ hleaves).1.2 ?_, htype, (regrouped other rfl rfl).trans htype⟩
  simp [type, DataType.isNumeric]

end Expr

end SqlGuard
