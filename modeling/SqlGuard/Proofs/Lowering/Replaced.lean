import Mathlib.Data.List.Forall2
import SqlGuard.Proofs.Outcome

/-!
# Parts that lowering replaces

Where several parts of a tree say the same thing, one of them takes the place of the others. The
parts of a tree are listed here together with whether another one takes their place: what a
statement is made of are those that stay. Main statement: `Piece.forall₂_perm_iff`, nothing is lost
if and only if nothing is replaced.
-/

namespace SqlGuard

/-- A part of a tree, and whether another one takes its place. -/
structure Piece (α : Type) where
  val : α
  isReplaced : Bool

namespace Piece

variable {α β : Type}

/-- The parts that stay. -/
def kept (ps : List (Piece α)) : List α := (ps.filter (!·.isReplaced)).map val

/-- Parts that all stay. -/
def each (xs : List α) : List (Piece α) := xs.map (⟨·, false⟩)

/-- The parts of one kind, of which the last one takes the place of the others. -/
def lastOf (kind : α → Bool) : List α → List (Piece α)
  | [] => []
  | x :: xs => if kind x then ⟨x, xs.any kind⟩ :: lastOf kind xs else lastOf kind xs

/-- The parts within parts. A part that is replaced takes those within it along. -/
def within (ps : List (Piece α)) (f : α → List (Piece β)) : List (Piece β) :=
  ps.flatMap fun p => (f p.val).map fun q => ⟨q.val, p.isReplaced || q.isReplaced⟩

theorem kept_append (ps qs : List (Piece α)) : kept (ps ++ qs) = kept ps ++ kept qs := by
  simp only [kept, List.filter_append, List.map_append]

theorem kept_each (xs : List α) : kept (each xs) = xs := by
  induction xs with
  | nil => rfl
  | cons x xs ih => exact congrArg (x :: ·) ih

theorem kept_lastOf (kind : α → Bool) (xs : List α) :
    kept (lastOf kind xs) = (xs.filter kind).getLast?.toList := by
  induction xs with
  | nil => rfl
  | cons x xs ih =>
    cases hx : kind x with
    | false => simpa only [lastOf, hx, List.filter_cons, Bool.false_eq_true, if_false] using ih
    | true =>
      rw [lastOf, if_pos hx, List.filter_cons_of_pos hx]
      cases hany : xs.any kind with
      | false =>
        have hnone : xs.filter kind = [] := by
          simpa [List.filter_eq_nil_iff] using hany
        rw [hnone] at ih ⊢
        exact congrArg (x :: ·) ih
      | true =>
        have hsome : xs.filter kind ≠ [] := by
          simpa [List.filter_eq_nil_iff] using hany
        rw [List.getLast?_cons_of_ne_nil hsome, ← ih]
        rfl

theorem kept_within (ps : List (Piece α)) (f : α → List (Piece β)) :
    kept (within ps f) = (kept ps).flatMap fun x => kept (f x) := by
  have hone : ∀ (x : α) (isReplaced : Bool), kept ((f x).map fun q =>
      ⟨q.val, isReplaced || q.isReplaced⟩) = if isReplaced then [] else kept (f x) := by
    intro x isReplaced
    cases isReplaced <;> simp [kept]
  induction ps with
  | nil => rfl
  | cons p ps ih =>
    obtain ⟨x, isReplaced⟩ := p
    have hmore := congrArg (kept ((f x).map fun q => ⟨q.val, isReplaced || q.isReplaced⟩) ++ ·) ih
    rw [within, List.flatMap_cons, kept_append]
    refine hmore.trans ?_
    rw [hone]
    cases isReplaced <;> rfl

theorem vals_each (xs : List α) : (each xs).map val = xs := by
  rw [each, List.map_map]
  exact List.map_id xs

theorem vals_lastOf (kind : α → Bool) (xs : List α) :
    (lastOf kind xs).map val = xs.filter kind := by
  induction xs with
  | nil => rfl
  | cons x xs ih =>
    cases hx : kind x with
    | false => simpa only [lastOf, hx, List.filter_cons, Bool.false_eq_true, if_false] using ih
    | true =>
      rw [lastOf, if_pos hx, List.filter_cons_of_pos hx]
      exact congrArg (x :: ·) ih

theorem vals_within (ps : List (Piece α)) (f : α → List (Piece β)) :
    (within ps f).map val = (ps.map val).flatMap fun x => (f x).map val := by
  rw [within, List.map_flatMap, List.flatMap_map]
  congr 1
  funext p
  rw [List.map_map]
  rfl

theorem kept_eq_of_forall {ps : List (Piece α)} (stay : ∀ p ∈ ps, p.isReplaced = false) :
    kept ps = ps.map val := by
  rw [kept, List.filter_eq_self.2]
  simpa using stay

/-- Parts that have a place each, in a list that has one for each part that stays, all stay. -/
theorem stay_of_forall₂_perm {R S : α → β → Prop} {ps : List (Piece α)} {ys zs : List β}
    (h : List.Forall₂ R (kept ps) ys) (perm : zs.Perm ys)
    (places : List.Forall₂ S (ps.map val) zs) : ∀ p ∈ ps, p.isReplaced = false := by
  have hlength : (kept ps).length = ps.length := by
    rw [h.length_eq, ← perm.length_eq, ← places.length_eq, List.length_map]
  rw [kept, List.length_map, List.length_filter_eq_length_iff] at hlength
  simpa using hlength

/-- All parts have a place each exactly if all of them stay. -/
theorem forall₂_perm_iff {R : α → β → Prop} {ps : List (Piece α)} {ys : List β}
    (h : List.Forall₂ R (kept ps) ys) :
    (∃ zs, zs.Perm ys ∧ List.Forall₂ R (ps.map val) zs) ↔ ∀ p ∈ ps, p.isReplaced = false := by
  constructor
  · intro given
    obtain ⟨zs, perm, places⟩ := given
    exact stay_of_forall₂_perm h perm places
  · intro stay
    rw [kept_eq_of_forall stay] at h
    exact ⟨ys, .refl ys, h⟩

end Piece

end SqlGuard
