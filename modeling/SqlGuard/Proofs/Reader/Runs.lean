import SqlGuard.Reader

/-!
# Runs of readers that succeed

What the combinators answer where the readers they are built from succeed. Main statement:
`run_separatedBy`, a list of items is read if each single item is.
-/

namespace SqlGuard

/-- The first element of a list, if there is one, satisfies a condition. -/
def Heads {τ : Type} (P : τ → Prop) (ts : List τ) : Prop := ∀ t, ts.head? = some t → P t

theorem Heads.mono {τ : Type} {P Q : τ → Prop} {ts : List τ} (h : Heads P ts)
    (hPQ : ∀ t, P t → Q t) : Heads Q ts :=
  fun t ht => hPQ t (h t ht)

theorem heads_cons {τ : Type} {P : τ → Prop} {t : τ} {ts : List τ} : Heads P (t :: ts) ↔ P t := by
  simp [Heads]

namespace Reader

variable {τ ω α β γ : Type}

theorem id_map_run (r : Reader τ ω α) : id <$> r = r := by
  ext ts
  show (r >>= fun a => pure a).run ts = r.run ts
  rw [run_bind]
  cases r.run ts <;> rfl

theorem bind_assoc_run (r : Reader τ ω α) (f : α → Reader τ ω β) (g : β → Reader τ ω γ) :
    r >>= f >>= g = r >>= fun a => f a >>= g := by
  ext ts
  rw [run_bind, run_bind, run_bind]
  cases r.run ts with
  | error e => rfl
  | ok p => exact (run_bind (f p.1) g p.2).symm

instance : LawfulMonad (Reader τ ω) :=
  .mk' (Reader τ ω) id_map_run (fun _ _ => rfl) bind_assoc_run

theorem run_map (f : α → β) (r : Reader τ ω α) (ts : List τ) :
    (f <$> r).run ts = (r.run ts).map fun p => (f p.1, p.2) := by
  rw [map_eq_pure_bind, run_bind]
  cases r.run ts <;> rfl

/-- Readers that read alike do so in front of another reader. -/
theorem run_bind_congr {r r' : Reader τ ω α} {ts us : List τ} (h : r.run ts = r'.run us)
    (f : α → Reader τ ω β) : (r >>= f).run ts = (r' >>= f).run us := by
  rw [run_bind, run_bind, h]

theorem run_bind_ok {r : Reader τ ω α} {f : α → Reader τ ω β} {ts rest : List τ} {a : α}
    (h : r.run ts = .ok (a, rest)) : (r >>= f).run ts = (f a).run rest := by
  rw [run_bind, h]
  rfl

/-- A sequence of two readers succeeds as the second does on what the first leaves. -/
theorem run_bind_eq_ok {r : Reader τ ω α} {f : α → Reader τ ω β} {ts rest : List τ} {b : β} :
    (r >>= f).run ts = .ok (b, rest) ↔
      ∃ a middle, r.run ts = .ok (a, middle) ∧ (f a).run middle = .ok (b, rest) := by
  rw [run_bind]
  constructor
  · intro h
    cases hr : r.run ts with
    | error e =>
      rw [hr] at h
      cases h
    | ok p =>
      rw [hr] at h
      exact ⟨p.1, p.2, rfl, h⟩
  · intro given
    rcases given with ⟨a, middle, hr, h⟩
    rw [hr]
    exact h

theorem run_map_ok {r : Reader τ ω α} {f : α → β} {ts rest : List τ} {a : α}
    (h : r.run ts = .ok (a, rest)) : (f <$> r).run ts = .ok (f a, rest) :=
  run_bind_ok (f := fun a => pure (f a)) h

theorem run_onNext_some {select : τ → Option (Reader τ ω α)} {otherwise r : Reader τ ω α} {t : τ}
    {ts : List τ} (h : select t = some r) : (onNext select otherwise).run (t :: ts) = r.run ts := by
  rw [run_onNext_cons, h]

theorem run_onNext_none {select : τ → Option (Reader τ ω α)} {otherwise : Reader τ ω α}
    {ts : List τ} (h : Heads (fun t => select t = none) ts) :
    (onNext select otherwise).run ts = otherwise.run ts := by
  cases ts with
  | nil => rfl
  | cons t ts => rw [run_onNext_cons, heads_cons.1 h]

theorem run_chain_stop {start : τ → Option β} {item : β → Reader τ ω γ} {ts : List τ}
    (h : Heads (fun t => start t = none) ts) : (chain start item).run ts = .ok ([], ts) := by
  show chainRun _ item ts = _
  cases ts with
  | nil => rw [chainRun]
  | cons t ts =>
    rw [chainRun]
    simp only [heads_cons.1 h]

/-- A round that is started is read before those behind it. -/
theorem run_chain_next {start : τ → Option β} {item : β → Reader τ ω γ} {t : τ} {ts : List τ}
    {b : β} (h : start t = some b) :
    (chain start item).run (t :: ts) =
      (item b).run ts >>= fun p =>
        (fun q => (p.1 :: q.1, q.2)) <$> (chain start item).run p.2 := by
  show chainRun (fun t _ => start t) item (t :: ts) = _
  rw [chainRun]
  simp only [h]
  split
  · rename_i hrun
    rw [hrun]
    rfl
  · rename_i hrun
    rw [hrun]
    rfl

theorem run_chain_cons {start : τ → Option β} {item : β → Reader τ ω γ} {t : τ}
    {ts rest rest' : List τ} {b : β} {c : γ} {cs : List γ} (hstart : start t = some b)
    (hitem : (item b).run ts = .ok (c, rest))
    (hmore : (chain start item).run rest = .ok (cs, rest')) :
    (chain start item).run (t :: ts) = .ok (c :: cs, rest') := by
  rw [run_chain_next hstart, hitem]
  show (fun q => (c :: q.1, q.2)) <$> (chain start item).run rest = _
  rw [hmore]
  rfl

variable [DecidableEq τ]

theorem run_demand {t : τ} {wanted : ω} {ts : List τ} :
    (demand t wanted).run (t :: ts) = .ok ((), ts) := by
  simp only [demand, run_onNext_cons, if_true, run_pure]

theorem run_accept_none {t : τ} {ts : List τ} (h : Heads (· ≠ t) ts) :
    (accept t : Reader τ ω Bool).run ts = .ok (false, ts) := by
  rw [accept, run_onNext_none (h.mono fun _ hne => if_neg hne)]
  rfl

theorem run_after?_some {t : τ} {r : Reader τ ω α} {ts rest : List τ} {a : α}
    (h : r.run ts = .ok (a, rest)) : (after? t r).run (t :: ts) = .ok (some a, rest) := by
  simp only [after?, run_onNext_cons, if_true]
  exact run_map_ok h

theorem run_after?_none {t : τ} {r : Reader τ ω α} {ts : List τ} (h : Heads (· ≠ t) ts) :
    (after? t r).run ts = .ok (none, ts) := by
  rw [after?, run_onNext_none (h.mono fun _ hne => if_neg hne)]
  rfl

/-- An item in front of a separator, behind which a list of items is read. -/
theorem run_separatedBy_cons {separator : τ} {item : Reader τ ω α} {ts us rest : List τ} {a : α}
    {as : List α} (hitem : item.run ts = .ok (a, separator :: us))
    (hitems : (separatedBy separator item).run us = .ok (as, rest)) :
    (separatedBy separator item).run ts = .ok (a :: as, rest) := by
  obtain ⟨b, middle, hfirst, hitems⟩ := run_bind_eq_ok.1 hitems
  obtain ⟨bs, rest', hmore, hbs⟩ := run_bind_eq_ok.1 hitems
  cases hbs
  have hchain : (chain (fun t => if t = separator then some () else none) fun _ => item).run
      (separator :: us) = .ok (b :: bs, rest) := run_chain_cons (if_pos rfl) hfirst hmore
  rw [separatedBy, run_bind_ok hitem, run_bind_ok hchain]
  rfl

/-- Items with a separator before each of them are read if each single item is, in front of the
    separator and in front of the rest. -/
theorem run_chain_separated {separator : τ} {item : Reader τ ω α} {tokens : β → List τ}
    {value : β → α} {P : τ → Prop} {xs : List β} {rest : List τ} (between : P separator)
    (behind : Heads (fun t => P t ∧ t ≠ separator) rest)
    (each : ∀ x ∈ xs, ∀ rest, Heads P rest → item.run (tokens x ++ rest) = .ok (value x, rest)) :
    (chain (fun t => if t = separator then some () else none) fun _ => item).run
        (xs.flatMap (fun x => separator :: tokens x) ++ rest) = .ok (xs.map value, rest) := by
  induction xs with
  | nil => exact run_chain_stop (behind.mono fun _ h => if_neg h.2)
  | cons x xs ih =>
    rw [List.forall_mem_cons] at each
    have hstop : Heads P (xs.flatMap (fun x => separator :: tokens x) ++ rest) := by
      cases xs with
      | nil => exact behind.mono fun _ h => h.1
      | cons y ys => exact heads_cons.2 between
    rw [List.flatMap_cons, List.append_assoc, List.cons_append]
    exact run_chain_cons (if_pos rfl) (each.1 _ hstop) (ih each.2)

/-- A list of items is read if each single item is, in front of the separator and in front of the
    rest. -/
theorem run_separatedBy {separator : τ} {item : Reader τ ω α} {tokens : β → List τ} {value : β → α}
    {P : τ → Prop} {x : β} {xs : List β} {rest : List τ} (between : P separator)
    (behind : Heads (fun t => P t ∧ t ≠ separator) rest)
    (each : ∀ y ∈ x :: xs, ∀ rest, Heads P rest →
      item.run (tokens y ++ rest) = .ok (value y, rest)) :
    (separatedBy separator item).run
        (tokens x ++ xs.flatMap (fun x => separator :: tokens x) ++ rest) =
      .ok ((x :: xs).map value, rest) := by
  rw [List.forall_mem_cons] at each
  have hstop : Heads P (xs.flatMap (fun x => separator :: tokens x) ++ rest) := by
    cases xs with
    | nil => exact behind.mono fun _ h => h.1
    | cons y ys => exact heads_cons.2 between
  rw [separatedBy, List.append_assoc, run_bind_ok (each.1 _ hstop),
    run_bind_ok (run_chain_separated between behind each.2)]
  rfl

end Reader

end SqlGuard
