import Mathlib.Data.List.Forall2

/-!
# Computations with errors

What a computation with errors has done when it succeeds, step by step and element by element, what
is known of its error or its answer, and of elements at the same position of two lists.
-/

namespace SqlGuard

variable {ε α β : Type}

/-- A sequence of two steps succeeds as its second step does on what the first one answers. -/
theorem bind_eq_ok {x : Except ε α} {f : α → Except ε β} {b : β} :
    x >>= f = .ok b ↔ ∃ a, x = .ok a ∧ f a = .ok b := by
  cases x with
  | error e => simp [bind, Except.bind]
  | ok a => simp [bind, Except.bind]

theorem map_eq_ok {x : Except ε α} {f : α → β} {b : β} :
    f <$> x = .ok b ↔ ∃ a, x = .ok a ∧ f a = b := by
  cases x with
  | error e => simp [Functor.map, Except.map]
  | ok a => simp [Functor.map, Except.map]

theorem pure_eq_ok {a b : α} : (pure a : Except ε α) = .ok b ↔ a = b := by
  simp [pure, Except.pure]

theorem mapError_eq_ok {ε' : Type} {x : Except ε α} {f : ε → ε'} {a : α} :
    x.mapError f = .ok a ↔ x = .ok a := by
  cases x <;> simp [Except.mapError]

/-- A step for each element succeeds if every single one does. -/
theorem mapM_eq_ok {f : α → Except ε β} {xs : List α} {ys : List β} :
    xs.mapM f = .ok ys ↔ List.Forall₂ (fun x y => f x = .ok y) xs ys := by
  induction xs generalizing ys with
  | nil => rw [List.mapM_nil, pure_eq_ok, List.forall₂_nil_left_iff, eq_comm]
  | cons x xs ih =>
    simp only [List.mapM_cons, bind_eq_ok, pure_eq_ok, ih, List.forall₂_cons_left_iff]
    constructor
    · intro given
      rcases given with ⟨y, hy, ys', hys, rfl⟩
      exact ⟨y, ys', hy, hys, rfl⟩
    · intro given
      rcases given with ⟨y, ys', hy, hys, rfl⟩
      exact ⟨y, hy, ys', hys, rfl⟩

/-! ### Errors and answers -/

/-- The computation fails with an error of one kind, or succeeds with an answer of another. -/
inductive Meets (E : ε → Prop) (P : α → Prop) : Except ε α → Prop
  | error {e : ε} (reported : E e) : Meets E P (.error e)
  | ok {a : α} (answered : P a) : Meets E P (.ok a)

namespace Meets

variable {E : ε → Prop} {P : α → Prop} {Q : β → Prop} {x : Except ε α}

theorem mono {P' : α → Prop} (h : Meets E P x) (hP : ∀ a, P a → P' a) : Meets E P' x := by
  cases h with
  | error reported => exact .error reported
  | ok answered => exact .ok (hP _ answered)

theorem bind {f : α → Except ε β} (h : Meets E P x) (hf : ∀ a, P a → Meets E Q (f a)) :
    Meets E Q (x >>= f) := by
  cases h with
  | error reported => exact .error reported
  | ok answered => exact hf _ answered

theorem map {f : α → β} (h : Meets E P x) (hf : ∀ a, P a → Q (f a)) : Meets E Q (f <$> x) :=
  h.bind fun a ha => .ok (hf a ha)

theorem mapError {ε' : Type} {E' : ε' → Prop} {f : ε → ε'} (h : Meets E P x)
    (hf : ∀ e, E e → E' (f e)) : Meets E' P (x.mapError f) := by
  cases h with
  | error reported => exact .error (hf _ reported)
  | ok answered => exact .ok answered

theorem mapM {f : α → Except ε β} {xs : List α} (each : ∀ x ∈ xs, Meets E Q (f x)) :
    Meets E (fun ys => ∀ y ∈ ys, Q y) (xs.mapM f) := by
  induction xs with
  | nil => exact .ok (List.forall_mem_nil _)
  | cons x xs ih =>
    rw [List.forall_mem_cons] at each
    rw [List.mapM_cons]
    refine each.1.bind fun y hy => (ih each.2).bind fun ys hys => .ok ?_
    exact List.forall_mem_cons.2 ⟨hy, hys⟩

theorem of_error {e : ε} (h : Meets E P (.error e : Except ε α)) : E e := by
  cases h with
  | error reported => exact reported

end Meets

/-! ### Elements of lists and of options that are related element by element -/

theorem forall₂_getElem? {R : α → β → Prop} {xs : List α} {ys : List β} (h : List.Forall₂ R xs ys)
    {i : Nat} {x : α} (hi : xs[i]? = some x) : ∃ y, ys[i]? = some y ∧ R x y := by
  induction h generalizing i with
  | nil => cases hi
  | cons hxy _ ih =>
    cases i with
    | zero =>
      cases hi
      exact ⟨_, rfl, hxy⟩
    | succ i => exact ih hi

theorem forall₂_getElem?_right {R : α → β → Prop} {xs : List α} {ys : List β}
    (h : List.Forall₂ R xs ys) {i : Nat} {y : β} (hi : ys[i]? = some y) :
    ∃ x, xs[i]? = some x ∧ R x y :=
  forall₂_getElem? h.flip hi

theorem forall₂_mem_left {R : α → β → Prop} {xs : List α} {ys : List β} (h : List.Forall₂ R xs ys)
    {x : α} (hx : x ∈ xs) : ∃ y ∈ ys, R x y := by
  obtain ⟨i, hi⟩ := List.getElem?_of_mem hx
  obtain ⟨y, hy, hxy⟩ := forall₂_getElem? h hi
  exact ⟨y, List.mem_of_getElem? hy, hxy⟩

theorem forall₂_mem_right {R : α → β → Prop} {xs : List α} {ys : List β} (h : List.Forall₂ R xs ys)
    {y : β} (hy : y ∈ ys) : ∃ x ∈ xs, R x y :=
  forall₂_mem_left h.flip hy

/-- What a step for each element has made of a list, it has made of one of the elements. -/
theorem exists_of_mem_mapM {f : α → Except ε β} {xs : List α} {ys : List β}
    (h : xs.mapM f = .ok ys) {y : β} (hy : y ∈ ys) : ∃ x ∈ xs, f x = .ok y :=
  forall₂_mem_right (mapM_eq_ok.1 h) hy

theorem exists_of_mem_mapM? {f : α → Option β} {xs : List α} {ys : List β}
    (h : xs.mapM f = some ys) {y : β} (hy : y ∈ ys) : ∃ x ∈ xs, f x = some y := by
  induction xs generalizing ys with
  | nil =>
    rw [List.mapM_nil] at h
    cases h
    cases hy
  | cons x xs ih =>
    rw [List.mapM_cons] at h
    obtain ⟨first, hfirst, h⟩ := Option.bind_eq_some_iff.1 h
    obtain ⟨more, hmore, h⟩ := Option.bind_eq_some_iff.1 h
    cases h
    rcases List.mem_cons.1 hy with rfl | hy
    · exact ⟨x, List.mem_cons_self, hfirst⟩
    · obtain ⟨other, hother, hy⟩ := ih hmore hy
      exact ⟨other, List.mem_cons_of_mem x hother, hy⟩

theorem rel_some_left {R : α → β → Prop} {x : α} {y? : Option β} (h : Option.Rel R (some x) y?) :
    ∃ y, y? = some y ∧ R x y := by
  cases h with
  | some hxy => exact ⟨_, rfl, hxy⟩

theorem rel_some_right {R : α → β → Prop} {x? : Option α} {y : β} (h : Option.Rel R x? (some y)) :
    ∃ x, x? = some x ∧ R x y := by
  cases h with
  | some hxy => exact ⟨_, rfl, hxy⟩

end SqlGuard
