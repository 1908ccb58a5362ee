import SqlGuard.Proofs.Reader.Takes

/-!
# What readers keep of a list

The values that a reader answers hold elements of the list that it has read, in their order; others
are left out, and none is made up. The combinators keep such conditions. Main statements:
`Keeps.bind` and `Keeps.chain`.
-/

namespace SqlGuard.Reader

variable {τ ω α β γ : Type}

/-- What the reader answers satisfies the condition together with some of the elements that it has
    taken, in their order. -/
def Keeps (r : Reader τ ω α) (P : α → List τ → Prop) : Prop :=
  ∀ ts a rest, r.run ts = .ok (a, rest) → ∃ ws, P a ws ∧ (ws ++ rest).Sublist ts

/-- A condition for some elements of a list, in their order. -/
def Within (P : α → List τ → Prop) (a : α) (us : List τ) : Prop := ∃ ws, P a ws ∧ ws.Sublist us

/-- What is kept is some of what is taken. -/
theorem keeps_iff_takes {P : α → List τ → Prop} {r : Reader τ ω α} :
    Keeps r P ↔ Takes r (Within P) := by
  constructor
  · intro h ts a rest hrun
    obtain ⟨ws, hP, hsub⟩ := h ts a rest hrun
    obtain ⟨us, rfl⟩ := r.suffix hrun
    exact ⟨us, ⟨ws, hP, (List.append_sublist_append_right rest).1 hsub⟩, rfl⟩
  · intro h ts a rest hrun
    obtain ⟨us, ⟨ws, hP, hsub⟩, rfl⟩ := h ts a rest hrun
    exact ⟨ws, hP, hsub.append_right rest⟩

theorem KeptList.of_within {P : α → List τ → Prop} {as : List α} {us : List τ}
    (h : KeptList (Within P) as us) : Within (KeptList P) as us := by
  induction h with
  | nil => exact ⟨[], .nil, .refl _⟩
  | cons first _ ih =>
    obtain ⟨ws, hP, hfirst⟩ := first
    obtain ⟨xs, hlist, hmore⟩ := ih
    exact ⟨ws ++ xs, .cons hP hlist, hfirst.append hmore⟩

theorem keeps_pure {P : α → List τ → Prop} {a : α} (h : P a []) :
    Keeps (pure a : Reader τ ω α) P := by
  intro ts b rest hrun
  cases hrun
  exact ⟨[], h, .refl _⟩

theorem keeps_refuse {P : α → List τ → Prop} {wanted : ω} :
    Keeps (refuse wanted : Reader τ ω α) P := by
  intro ts a rest hrun
  cases hrun

/-- No elements at all can be kept of what any reader has read. -/
theorem keeps_any (r : Reader τ ω α) : Keeps r fun _ ws => ws = [] := by
  intro ts a rest hrun
  exact ⟨[], rfl, (r.suffix hrun).sublist⟩

theorem keeps_look {P : α → List τ → Prop} {r : List τ → Reader τ ω α}
    (h : ∀ ts, Keeps (r ts) P) : Keeps (look r) P :=
  fun ts => h ts ts

theorem Keeps.mono {P Q : α → List τ → Prop} {r : Reader τ ω α} (h : Keeps r P)
    (hPQ : ∀ a ws, P a ws → Q a ws) : Keeps r Q := by
  intro ts a rest hrun
  obtain ⟨ws, hP, hsub⟩ := h ts a rest hrun
  exact ⟨ws, hPQ a ws hP, hsub⟩

/-- The elements of a sequence of two readers are those of the first, then those of the second. -/
theorem Keeps.bind {P : α → List τ → Prop} {Q : β → List τ → Prop} {r : Reader τ ω α}
    {f : α → Reader τ ω β} (h : Keeps r P)
    (hf : ∀ a ws, P a ws → Keeps (f a) fun b us => Q b (ws ++ us)) : Keeps (r >>= f) Q := by
  rw [keeps_iff_takes] at h ⊢
  refine h.bind fun a us hP => ?_
  obtain ⟨ws, hP, hfirst⟩ := hP
  refine (keeps_iff_takes.1 (hf a ws hP)).mono fun b vs hQ => ?_
  obtain ⟨xs, hQ, hsecond⟩ := hQ
  exact ⟨ws ++ xs, hQ, hfirst.append hsecond⟩

theorem Keeps.map {P : α → List τ → Prop} {Q : β → List τ → Prop} {r : Reader τ ω α} {f : α → β}
    (h : Keeps r P) (hf : ∀ a ws, P a ws → Q (f a) ws) : Keeps (f <$> r) Q := by
  refine h.bind fun a ws hP => keeps_pure ?_
  rw [List.append_nil]
  exact hf a ws hP

/-- The element that is taken may be kept or left out. -/
theorem Keeps.onNext {P : α → List τ → Prop} {select : τ → Option (Reader τ ω α)}
    {otherwise : Reader τ ω α}
    (hselect : ∀ t r, select t = some r → (Keeps r fun a ws => P a (t :: ws)) ∨ Keeps r P)
    (h : Keeps otherwise P) : Keeps (onNext select otherwise) P := by
  rw [keeps_iff_takes] at h ⊢
  refine Takes.onNext (fun t r hr => ?_) h
  rcases hselect t r hr with hkept | hleft
  · refine (keeps_iff_takes.1 hkept).mono fun a us hP => ?_
    obtain ⟨ws, hP, hsub⟩ := hP
    exact ⟨t :: ws, hP, hsub.cons_cons t⟩
  · refine (keeps_iff_takes.1 hleft).mono fun a us hP => ?_
    obtain ⟨ws, hP, hsub⟩ := hP
    exact ⟨ws, hP, hsub.cons t⟩

theorem Keeps.chain {P : γ → List τ → Prop} {start : τ → Option β} {item : β → Reader τ ω γ}
    (h : ∀ t b, start t = some b → Keeps (item b) P) :
    Keeps (chain start item) (KeptList P) := by
  rw [keeps_iff_takes]
  have hchain : Takes (Reader.chain start item) (KeptList (Within P)) := by
    refine Takes.chain fun t b hstart => (keeps_iff_takes.1 (h t b hstart)).mono fun c us hP => ?_
    obtain ⟨ws, hP, hsub⟩ := hP
    exact ⟨ws, hP, hsub.cons t⟩
  exact hchain.mono fun _ _ => KeptList.of_within

variable [DecidableEq τ]

theorem keeps_demand {t : τ} {wanted : ω} :
    Keeps (demand t wanted) fun _ ws => ws = [] := by
  refine Keeps.onNext ?_ keeps_refuse
  intro t' r hr
  split at hr
  · cases hr
    exact .inr (keeps_pure rfl)
  · cases hr

theorem keeps_accept {t : τ} : Keeps (accept t : Reader τ ω Bool) fun _ ws => ws = [] := by
  refine Keeps.onNext ?_ (keeps_pure rfl)
  intro t' r hr
  split at hr
  · cases hr
    exact .inr (keeps_pure rfl)
  · cases hr

theorem Keeps.after? {P : α → List τ → Prop} {t : τ} {r : Reader τ ω α} (h : Keeps r P) :
    Keeps (after? t r) (KeptOption P) := by
  refine Keeps.onNext ?_ (keeps_pure rfl)
  intro t' r' hr
  split at hr
  · cases hr
    exact .inr (h.map fun _ _ hP => hP)
  · cases hr

/-- A list of items with separators has at least one item. -/
theorem Keeps.separatedBy {P : α → List τ → Prop} {separator : τ} {item : Reader τ ω α}
    (h : Keeps item P) :
    Keeps (separatedBy separator item) fun as ws => as ≠ [] ∧ KeptList P as ws := by
  refine h.bind fun a ws hP => ?_
  refine (Keeps.chain fun _ _ _ => h).bind fun as us hlist => keeps_pure ?_
  rw [List.append_nil]
  exact ⟨List.cons_ne_nil a as, .cons hP hlist⟩

end SqlGuard.Reader
