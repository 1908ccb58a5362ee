import SqlGuard.Proofs.Reader.Runs

/-!
# What readers take of a list

A reader that succeeds has taken a front part of its list, and what it answers goes with this part.
The combinators put such parts together. Main statements: `Takes.bind` and `Takes.chain`.
-/

namespace SqlGuard.Reader

variable {τ ω α β γ : Type}

/-- What the reader answers satisfies the condition together with the elements it has taken. -/
def Takes (r : Reader τ ω α) (P : α → List τ → Prop) : Prop :=
  ∀ ts a rest, r.run ts = .ok (a, rest) → ∃ ws, P a ws ∧ ts = ws ++ rest

/-- A value that may be left out, together with no elements where it is. -/
def KeptOption (P : α → List τ → Prop) : Option α → List τ → Prop
  | none, ws => ws = []
  | some a, ws => P a ws

/-- Values in order, each together with elements that stand before those of the next ones. -/
inductive KeptList (P : α → List τ → Prop) : List α → List τ → Prop
  | nil : KeptList P [] []
  | cons {a : α} {as : List α} {ws us : List τ} (first : P a ws) (more : KeptList P as us) :
      KeptList P (a :: as) (ws ++ us)

theorem KeptList.forall_mem {P : α → List τ → Prop} {p : α → Prop} {as : List α} {ws : List τ}
    (h : KeptList P as ws) (each : ∀ a us, P a us → p a) : ∀ a ∈ as, p a := by
  induction h with
  | nil => exact List.forall_mem_nil _
  | cons first _ ih => exact List.forall_mem_cons.2 ⟨each _ _ first, ih⟩

theorem takes_pure {P : α → List τ → Prop} {a : α} (h : P a []) :
    Takes (pure a : Reader τ ω α) P := by
  intro ts b rest hrun
  cases hrun
  exact ⟨[], h, rfl⟩

theorem takes_refuse {P : α → List τ → Prop} {wanted : ω} :
    Takes (refuse wanted : Reader τ ω α) P := by
  intro ts a rest hrun
  cases hrun

theorem takes_look {P : α → List τ → Prop} {r : List τ → Reader τ ω α}
    (h : ∀ ts, Takes (r ts) P) : Takes (look r) P :=
  fun ts => h ts ts

theorem Takes.mono {P Q : α → List τ → Prop} {r : Reader τ ω α} (h : Takes r P)
    (hPQ : ∀ a ws, P a ws → Q a ws) : Takes r Q := by
  intro ts a rest hrun
  obtain ⟨ws, hP, hts⟩ := h ts a rest hrun
  exact ⟨ws, hPQ a ws hP, hts⟩

/-- A sequence of two readers takes what the first does, then what the second does. -/
theorem Takes.bind {P : α → List τ → Prop} {Q : β → List τ → Prop} {r : Reader τ ω α}
    {f : α → Reader τ ω β} (h : Takes r P)
    (hf : ∀ a ws, P a ws → Takes (f a) fun b us => Q b (ws ++ us)) : Takes (r >>= f) Q := by
  intro ts b rest hrun
  obtain ⟨a, middle, hfirst, hsecond⟩ := run_bind_eq_ok.1 hrun
  obtain ⟨ws, hP, rfl⟩ := h ts a middle hfirst
  obtain ⟨us, hQ, rfl⟩ := hf a ws hP middle b rest hsecond
  exact ⟨ws ++ us, hQ, by rw [List.append_assoc]⟩

theorem Takes.map {P : α → List τ → Prop} {Q : β → List τ → Prop} {r : Reader τ ω α} {f : α → β}
    (h : Takes r P) (hf : ∀ a ws, P a ws → Q (f a) ws) : Takes (f <$> r) Q := by
  refine h.bind fun a ws hP => takes_pure ?_
  rw [List.append_nil]
  exact hf a ws hP

theorem Takes.onNext {P : α → List τ → Prop} {select : τ → Option (Reader τ ω α)}
    {otherwise : Reader τ ω α}
    (hselect : ∀ t r, select t = some r → Takes r fun a ws => P a (t :: ws))
    (h : Takes otherwise P) : Takes (onNext select otherwise) P := by
  intro ts a rest hrun
  cases ts with
  | nil => exact h [] a rest hrun
  | cons t ts =>
    rw [run_onNext_cons] at hrun
    split at hrun
    · rename_i r hr
      obtain ⟨ws, hP, rfl⟩ := hselect t r hr ts a rest hrun
      exact ⟨t :: ws, hP, rfl⟩
    · exact h _ a rest hrun

/-- Each round takes the element that starts it and what its reader takes behind that. -/
theorem Takes.chain {P : γ → List τ → Prop} {start : τ → Option β} {item : β → Reader τ ω γ}
    (h : ∀ t b, start t = some b → Takes (item b) fun c ws => P c (t :: ws)) :
    Takes (chain start item) (KeptList P) := by
  intro ts cs rest hrun
  replace hrun : chainRun (fun t _ => start t) item ts = .ok (cs, rest) := hrun
  induction ts using chainRun.induct (fun t _ => start t) item generalizing cs rest with
  | case1 =>
    rw [chainRun] at hrun
    cases hrun
    exact ⟨[], .nil, rfl⟩
  | case2 t ts hstart =>
    rw [chainRun] at hrun
    simp only [hstart] at hrun
    cases hrun
    exact ⟨[], .nil, rfl⟩
  | case3 t ts b hstart e hitem =>
    rw [chainRun] at hrun
    simp only [hstart] at hrun
    split at hrun <;> simp_all
  | case4 t ts b hstart c middle hitem ih =>
    rw [chainRun] at hrun
    simp only [hstart] at hrun
    split at hrun
    · simp_all
    · rename_i hitem'
      rw [hitem] at hitem'
      cases hitem'
      cases hmore : chainRun (fun t _ => start t) item middle with
      | error e =>
        rw [hmore] at hrun
        cases hrun
      | ok p =>
        obtain ⟨cs', rest'⟩ := p
        rw [hmore] at hrun
        cases hrun
        obtain ⟨ws, hP, rfl⟩ := h t b hstart ts c middle hitem
        obtain ⟨us, hlist, rfl⟩ := ih cs' rest' hmore
        exact ⟨t :: ws ++ us, .cons hP hlist, by rw [List.cons_append, List.cons_append,
          List.append_assoc]⟩

variable [DecidableEq τ]

theorem takes_demand {t : τ} {wanted : ω} : Takes (demand t wanted) fun _ ws => ws = [t] := by
  refine Takes.onNext ?_ takes_refuse
  intro t' r hr
  split at hr
  · rename_i ht
    cases hr
    exact takes_pure (by rw [ht])
  · cases hr

theorem takes_accept {t : τ} :
    Takes (accept t : Reader τ ω Bool) fun taken ws => ws = if taken then [t] else [] := by
  refine Takes.onNext ?_ (takes_pure rfl)
  intro t' r hr
  split at hr
  · rename_i ht
    cases hr
    exact takes_pure (by rw [ht]; rfl)
  · cases hr

theorem Takes.after? {P : α → List τ → Prop} {t : τ} {r : Reader τ ω α}
    (h : Takes r fun a ws => P a (t :: ws)) : Takes (after? t r) (KeptOption P) := by
  refine Takes.onNext ?_ (takes_pure rfl)
  intro t' r' hr
  split at hr
  · rename_i ht
    cases hr
    rw [ht]
    exact h.map fun _ _ hP => hP
  · cases hr

/-- What holds of a single item, and of an item before a separator and more items, holds of all that
    is read. -/
theorem Takes.separatedBy {P : α → List τ → Prop} {Q : List α → List τ → Prop} {separator : τ}
    {item : Reader τ ω α} (h : Takes item P) (last : ∀ a ws, P a ws → Q [a] ws)
    (more : ∀ a as ws us, P a ws → Q as us → Q (a :: as) (ws ++ separator :: us)) :
    Takes (separatedBy separator item) Q := by
  refine h.bind fun a ws hP => ?_
  have hchain : Takes
      (Reader.chain (fun t => if t = separator then some () else none) fun _ => item)
      (KeptList fun a us => ∃ vs, us = separator :: vs ∧ P a vs) := by
    refine Takes.chain fun t b hstart => h.mono fun a us hP => ⟨us, ?_, hP⟩
    split at hstart
    · rename_i ht
      rw [ht]
    · cases hstart
  refine hchain.bind fun as us hlist => takes_pure ?_
  rw [List.append_nil]
  induction hlist generalizing a ws with
  | nil =>
    rw [List.append_nil]
    exact last a ws hP
  | cons first _ ih =>
    obtain ⟨vs, rfl, hfirst⟩ := first
    exact more _ _ _ _ hP (ih _ _ hfirst)

end SqlGuard.Reader
