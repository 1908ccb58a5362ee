import SqlGuard.Reader

/-!
# Readers that agree on short lists

A reader that calls itself behind an element it has taken is given by its depth of nesting. Two such
readers for different depths agree on all lists that are short enough, and the combinators keep
agreement. Main statement: `AgreeUpTo.onNext`, behind an element that was taken the readers need
only agree on lists that are shorter by one.
-/

namespace SqlGuard.Reader

variable {τ ω α β γ : Type}

/-- Two readers read the same from lists of at most `n` elements. -/
def AgreeUpTo (n : Nat) (r s : Reader τ ω α) : Prop :=
  ∀ ts : List τ, ts.length ≤ n → r.run ts = s.run ts

namespace AgreeUpTo

theorem refl {n : Nat} (r : Reader τ ω α) : AgreeUpTo n r r := fun _ _ => rfl

theorem mono {m n : Nat} {r s : Reader τ ω α} (h : AgreeUpTo n r s) (hmn : m ≤ n) :
    AgreeUpTo m r s :=
  fun ts hts => h ts (Nat.le_trans hts hmn)

theorem trans {n : Nat} {r s u : Reader τ ω α} (h : AgreeUpTo n r s) (h' : AgreeUpTo n s u) :
    AgreeUpTo n r u :=
  fun ts hts => (h ts hts).trans (h' ts hts)

theorem bind {n : Nat} {r s : Reader τ ω α} {f g : α → Reader τ ω β} (h : AgreeUpTo n r s)
    (hfg : ∀ a, AgreeUpTo n (f a) (g a)) : AgreeUpTo n (r >>= f) (s >>= g) := by
  intro ts hts
  rw [run_bind, run_bind, ← h ts hts]
  cases hr : r.run ts with
  | error e => rfl
  | ok p => exact hfg _ _ (Nat.le_trans (r.length_le hr) hts)

theorem map {n : Nat} {r s : Reader τ ω α} (f : α → β) (h : AgreeUpTo n r s) :
    AgreeUpTo n (f <$> r) (f <$> s) :=
  h.bind fun _ => refl _

theorem look {n : Nat} {r s : List τ → Reader τ ω α} (h : ∀ ts, AgreeUpTo n (r ts) (s ts)) :
    AgreeUpTo n (look r) (look s) :=
  fun ts hts => h ts ts hts

/-- Behind an element that was taken, agreement on lists shorter by one is enough. -/
theorem onNext {n : Nat} {f g : τ → Option (Reader τ ω α)} {r s : Reader τ ω α}
    (hfg : ∀ t, Option.Rel (AgreeUpTo n) (f t) (g t)) (h : AgreeUpTo (n + 1) r s) :
    AgreeUpTo (n + 1) (onNext f r) (onNext g s) := by
  intro ts hts
  cases ts with
  | nil => exact h _ hts
  | cons t ts =>
    have hsel := hfg t
    rw [run_onNext_cons, run_onNext_cons]
    revert hsel
    cases f t <;> cases g t <;> intro hsel <;> cases hsel
    · exact h _ hts
    · rename_i hab
      exact hab ts (by simpa using hts)

theorem chain {n : Nat} (start : τ → Option β) {f g : β → Reader τ ω γ}
    (h : ∀ b, AgreeUpTo n (f b) (g b)) : AgreeUpTo n (chain start f) (chain start g) := by
  intro ts
  show ts.length ≤ n → chainRun _ f ts = chainRun _ g ts
  induction ts using chainRun.induct (fun t _ => start t) f with
  | case1 => intro _; rw [chainRun, chainRun]
  | case2 t ts hstart => intro _; rw [chainRun, chainRun]; simp only [hstart]
  | case3 t ts b hstart e hitem =>
    intro hts
    have hb := h b ts (by simp only [List.length_cons] at hts; omega)
    rw [chainRun, chainRun]
    simp only [hstart]
    split <;> split <;> simp_all
  | case4 t ts b hstart c rest hitem ih =>
    intro hts
    simp only [List.length_cons] at hts
    have hb := h b ts (by omega)
    have hrest := (f b).length_le hitem
    rw [chainRun, chainRun]
    simp only [hstart]
    split
    · simp_all
    · rename_i hf
      split
      · simp_all
      · rename_i hg
        have hsame := hf.symm.trans (hb.trans hg)
        have hself := hf.symm.trans hitem
        cases hsame
        cases hself
        rw [ih (by omega)]

theorem separatedBy [DecidableEq τ] {n : Nat} (separator : τ) {r s : Reader τ ω α}
    (h : AgreeUpTo n r s) : AgreeUpTo n (separatedBy separator r) (separatedBy separator s) :=
  h.bind fun _ => (AgreeUpTo.chain _ fun _ => h).bind fun _ => refl _

theorem after? [DecidableEq τ] {n : Nat} (t : τ) {r s : Reader τ ω α} (h : AgreeUpTo n r s) :
    AgreeUpTo (n + 1) (after? t r) (after? t s) := by
  refine AgreeUpTo.onNext (fun t' => ?_) (refl _)
  by_cases ht : t' = t
  · simpa [ht] using Option.Rel.some (h.map some)
  · simp only [ht, if_false]
    exact .none

end AgreeUpTo

/-- Readers by depth, of which each two next to each other agree on lists as short as the depth,
    agree on short lists with that for any greater depth. -/
theorem agreeUpTo_of_le {r : Nat → Reader τ ω α}
    (h : ∀ n, AgreeUpTo n (r n) (r (n + 1))) {m n : Nat} (hmn : m ≤ n) :
    AgreeUpTo m (r m) (r n) := by
  induction hmn with
  | refl => exact .refl _
  | step hle ih => exact ih.trans ((h _).mono hle)

end SqlGuard.Reader
