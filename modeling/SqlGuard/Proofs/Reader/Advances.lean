import Mathlib.Logic.Relation
import SqlGuard.Proofs.Reader.Runs

/-!
# How far readers go

A list may end in a mark that stands nowhere else in it. Readers that never take the mark stop in
front of it at the latest, both where they succeed and where they are refused, and the combinators
keep that. Main statements: `Advances.bind`, `chain_rounds`, which says that loops end, and
`Advances.chain`, from what one round of a loop takes.
-/

namespace SqlGuard.Reader

open Relation (ReflTransGen)

variable {τ ω α β γ : Type} {last : τ} {least : Nat}

/-- What remains is at a position of the list `ws`, the end mark behind it, not before `least`. -/
def Ahead (last : τ) (least : Nat) (ws rest : List τ) : Prop :=
  ∃ pos, least ≤ pos ∧ pos ≤ ws.length ∧ rest = ws.drop pos ++ [last]

/-- Where a run has stopped: not before `least` if it has succeeded, and anywhere in the list
    otherwise. -/
def StopsAhead (last : τ) (least : Nat) (ws : List τ) :
    Except (Refusal τ ω) (α × List τ) → Prop
  | .ok (_, rest) => Ahead last least ws rest
  | .error e => Ahead last 0 ws e.rest

/-- Of a list that ends in its only end mark, the reader takes at least so many elements where it
    succeeds, and where it is refused as well, it never takes the mark. -/
def Advances (last : τ) (least : Nat) (r : Reader τ ω α) : Prop :=
  ∀ ws, last ∉ ws → StopsAhead last least ws (r.run (ws ++ [last]))

/-! ### Positions -/

namespace Ahead

variable {ws rest : List τ}

theorem here (last : τ) (ws : List τ) : Ahead last 0 ws (ws ++ [last]) :=
  ⟨0, Nat.le_refl 0, Nat.zero_le _, rfl⟩

theorem mono {n : Nat} (h : Ahead last n ws rest) (hle : least ≤ n) : Ahead last least ws rest := by
  obtain ⟨pos, hleast, hpos, hrest⟩ := h
  exact ⟨pos, Nat.le_trans hle hleast, hpos, hrest⟩

/-- A position in what remains is a position in the whole. -/
theorem drop {p : Nat} (h : Ahead last least (ws.drop p) rest) (hp : p ≤ ws.length) :
    Ahead last (p + least) ws rest := by
  obtain ⟨more, hleast, hmore, hrest⟩ := h
  rw [List.length_drop] at hmore
  exact ⟨p + more, by omega, by omega, by rw [hrest, List.drop_drop]⟩

end Ahead

theorem StopsAhead.mono {n : Nat} {ws : List τ} {result : Except (Refusal τ ω) (α × List τ)}
    (h : StopsAhead last n ws result) (hle : least ≤ n) : StopsAhead last least ws result := by
  cases result with
  | error e => exact h
  | ok p => exact Ahead.mono h hle

theorem StopsAhead.map {ws : List τ} {result : Except (Refusal τ ω) (α × List τ)}
    (h : StopsAhead last least ws result) (f : α → β) :
    StopsAhead last least ws (result.map fun p => (f p.1, p.2)) := by
  cases result with
  | error e => exact h
  | ok p => exact h

theorem StopsAhead.drop {p : Nat} {ws : List τ} {result : Except (Refusal τ ω) (α × List τ)}
    (h : StopsAhead last least (ws.drop p) result) (hp : p ≤ ws.length) :
    StopsAhead last (p + least) ws result := by
  cases result with
  | error e => exact (Ahead.drop h hp).mono (Nat.zero_le _)
  | ok _ => exact Ahead.drop h hp

theorem StopsAhead.cons {t : τ} {ws : List τ} {result : Except (Refusal τ ω) (α × List τ)}
    (h : StopsAhead last least ws result) : StopsAhead last (least + 1) (t :: ws) result := by
  rw [Nat.add_comm]
  exact drop (p := 1) h (Nat.succ_le_succ (Nat.zero_le _))

/-! ### Readers in sequence -/

theorem advances_pure (a : α) : Advances last 0 (pure a : Reader τ ω α) :=
  fun ws _ => Ahead.here last ws

theorem advances_refuse {wanted : ω} : Advances last least (refuse wanted : Reader τ ω α) :=
  fun ws _ => Ahead.here last ws

theorem advances_look {r : List τ → Reader τ ω α} (h : ∀ ts, Advances last least (r ts)) :
    Advances last least (look r) :=
  fun ws noLast => h (ws ++ [last]) ws noLast

/-- A reader that takes a number of elements does not take the end mark. -/
theorem Advances.stays {r : Reader τ ω α} (h : Advances last least r) : Advances last 0 r :=
  fun ws noLast => (h ws noLast).mono (Nat.zero_le least)

/-- What two readers take in sequence is at least what both do. -/
theorem Advances.bind {m n : Nat} {r : Reader τ ω α} {f : α → Reader τ ω β}
    (h : Advances last m r) (hf : ∀ a, Advances last n (f a)) :
    Advances last (m + n) (r >>= f) := by
  intro ws noLast
  have hfirst := h ws noLast
  rw [run_bind]
  cases hrun : r.run (ws ++ [last]) with
  | error e =>
    rw [hrun] at hfirst
    exact hfirst
  | ok p =>
    rw [hrun] at hfirst
    obtain ⟨a, rest⟩ := p
    obtain ⟨pos, hleast, hpos, rfl⟩ := hfirst
    have hsecond := hf a (ws.drop pos) fun hmem => noLast (List.mem_of_mem_drop hmem)
    exact (hsecond.drop hpos).mono (Nat.add_le_add_right hleast n)

/-- A sequence takes what its first reader does, whatever comes behind. -/
theorem Advances.bind_first {r : Reader τ ω α} {f : α → Reader τ ω β} (h : Advances last least r)
    (hf : ∀ a, Advances last 0 (f a)) : Advances last least (r >>= f) :=
  h.bind hf

/-- A sequence takes what its last reader does, whatever comes before. -/
theorem Advances.bind_last {r : Reader τ ω α} {f : α → Reader τ ω β} (h : Advances last 0 r)
    (hf : ∀ a, Advances last least (f a)) : Advances last least (r >>= f) :=
  Nat.zero_add least ▸ h.bind hf

theorem Advances.map {r : Reader τ ω α} (h : Advances last least r) (f : α → β) :
    Advances last least (f <$> r) :=
  h.bind fun a => advances_pure (f a)

/-- The element that selects a reader is taken, so it must not be the end mark. -/
theorem stopsAhead_onNext {select : τ → Option (Reader τ ω α)} {otherwise : Reader τ ω α}
    {ws : List τ} (stops : select last = none)
    (hselect : ∀ t us r, ws = t :: us → select t = some r →
      StopsAhead last (least - 1) us (r.run (us ++ [last])))
    (h : StopsAhead last least ws (otherwise.run (ws ++ [last]))) :
    StopsAhead last least ws ((onNext select otherwise).run (ws ++ [last])) := by
  cases ws with
  | nil =>
    rw [List.nil_append, run_onNext_cons, stops]
    exact h
  | cons t us =>
    rw [List.cons_append, run_onNext_cons]
    cases ht : select t with
    | none => exact h
    | some r => exact (hselect t us r rfl ht).cons.mono (by omega)

theorem Advances.onNext {select : τ → Option (Reader τ ω α)} {otherwise : Reader τ ω α}
    (stops : select last = none)
    (hselect : ∀ t r, select t = some r → Advances last (least - 1) r)
    (h : Advances last least otherwise) : Advances last least (onNext select otherwise) := by
  intro ws noLast
  refine stopsAhead_onNext stops ?_ (h ws noLast)
  rintro t us r rfl hr
  exact hselect t r hr us fun hmem => noLast (List.mem_cons_of_mem t hmem)

/-! ### Loops -/

/-- One round of a loop: the element that starts it, and what its reader takes behind that. -/
def Round (start : τ → Option β) (item : β → Reader τ ω γ) (ts us : List τ) : Prop :=
  ∃ t more b c, ts = t :: more ∧ start t = some b ∧ (item b).run more = .ok (c, us)

/-- How a loop over `ts` ends behind its last whole round, which has left `us`: it succeeds where no
    element starts another round, or is refused as the round is that was started. -/
inductive LoopEnds (start : τ → Option β) (item : β → Reader τ ω γ) (ts us : List τ) : Prop
  | stopped {cs : List γ} (stop : Heads (start · = none) us)
      (run : (chain start item).run ts = .ok (cs, us))
  | refused {t : τ} {more : List τ} {b : β} {e : Refusal τ ω} (starts : us = t :: more)
      (started : start t = some b) (refused : (item b).run more = .error e)
      (run : (chain start item).run ts = .error e)

section Rounds

variable {start : τ → Option β} {item : β → Reader τ ω γ} {ts us : List τ}

/-- No round leaves as much as it has found. -/
theorem Round.shorter (h : Round start item ts us) : us.length < ts.length := by
  obtain ⟨t, more, b, c, rfl, -, hrun⟩ := h
  exact Nat.lt_succ_of_le ((item b).length_le hrun)

/-- Loops end. -/
theorem chain_rounds (start : τ → Option β) (item : β → Reader τ ω γ) (ts : List τ) :
    ∃ us, ReflTransGen (Round start item) ts us ∧ LoopEnds start item ts us := by
  cases ts with
  | nil => exact ⟨[], .refl, .stopped nofun (run_chain_stop nofun)⟩
  | cons t more =>
    cases hstart : start t with
    | none =>
      have hstop : Heads (start · = none) (t :: more) := heads_cons.2 hstart
      exact ⟨t :: more, .refl, .stopped hstop (run_chain_stop hstop)⟩
    | some b =>
      have hnext : (chain start item).run (t :: more) = _ := run_chain_next hstart
      cases hitem : (item b).run more with
      | error e =>
        rw [hitem] at hnext
        exact ⟨t :: more, .refl, .refused rfl hstart hitem hnext⟩
      | ok p =>
        obtain ⟨c, rest⟩ := p
        have hround : Round start item (t :: more) rest := ⟨t, more, b, c, rfl, hstart, hitem⟩
        have hshorter := hround.shorter
        obtain ⟨us, hrounds, hend⟩ := chain_rounds start item rest
        rw [hitem] at hnext
        change _ = (fun q => (c :: q.1, q.2)) <$> (chain start item).run rest at hnext
        refine ⟨us, .head hround hrounds, ?_⟩
        cases hend with
        | stopped stop run =>
          rw [run] at hnext
          exact .stopped stop hnext
        | refused starts started refused run =>
          rw [run] at hnext
          exact .refused starts started refused hnext
termination_by ts.length
decreasing_by exact hshorter

variable (stops : start last = none)
  (advances : ∀ t b, start t = some b → Advances last least (item b))
include stops advances

/-- Where the reader of a round stops, which may be refused: behind the element that starts it. -/
theorem stopsAhead_item {ws more : List τ} {t : τ} {b : β} (noLast : last ∉ ws)
    (hts : ws ++ [last] = t :: more) (hstart : start t = some b) :
    StopsAhead last (least + 1) ws ((item b).run more) := by
  cases ws with
  | nil =>
    cases hts
    rw [stops] at hstart
    cases hstart
  | cons w ws =>
    cases hts
    exact (advances t b hstart ws fun hmem => noLast (List.mem_cons_of_mem t hmem)).cons

theorem Round.ahead {ws : List τ} (noLast : last ∉ ws)
    (round : Round start item (ws ++ [last]) us) : Ahead last (least + 1) ws us := by
  obtain ⟨t, more, b, c, hts, hstart, hrun⟩ := round
  have hitem := stopsAhead_item stops advances noLast hts hstart
  rw [hrun] at hitem
  exact hitem

/-- All rounds together stop in front of the end mark at the latest. -/
theorem ahead_of_rounds {ws : List τ} (noLast : last ∉ ws)
    (rounds : ReflTransGen (Round start item) (ws ++ [last]) us) : Ahead last 0 ws us := by
  induction rounds with
  | refl => exact .here last ws
  | tail _ round ih =>
    obtain ⟨pos, -, hpos, rfl⟩ := ih
    have hround := round.ahead stops advances fun hmem => noLast (List.mem_of_mem_drop hmem)
    exact (hround.drop hpos).mono (Nat.zero_le _)

theorem Advances.chain : Advances last 0 (chain start item) := by
  intro ws noLast
  obtain ⟨us, hrounds, hend⟩ := chain_rounds start item (ws ++ [last])
  have hahead := ahead_of_rounds stops advances noLast hrounds
  cases hend with
  | stopped _ run =>
    rw [run]
    exact hahead
  | refused starts started refused run =>
    obtain ⟨pos, -, hpos, rfl⟩ := hahead
    have hround := stopsAhead_item stops advances
      (fun hmem => noLast (List.mem_of_mem_drop hmem)) starts started
    rw [refused] at hround
    rw [run]
    exact hround.drop hpos

end Rounds

/-! ### Single elements -/

variable [DecidableEq τ] {t : τ}

theorem advances_demand {wanted : ω} (hne : t ≠ last) : Advances last 1 (demand t wanted) := by
  refine .onNext (if_neg hne.symm) ?_ advances_refuse
  intro t' r hr
  split at hr
  · cases hr
    exact advances_pure ()
  · cases hr

theorem advances_accept (hne : t ≠ last) : Advances last 0 (accept t : Reader τ ω Bool) := by
  refine .onNext (if_neg hne.symm) ?_ (advances_pure false)
  intro t' r hr
  split at hr
  · cases hr
    exact advances_pure true
  · cases hr

/-- Where the element is taken, what comes behind may take one less. -/
theorem Advances.accept_bind {f : Bool → Reader τ ω α} (hne : t ≠ last)
    (taken : Advances last (least - 1) (f true)) (left : Advances last least (f false)) :
    Advances last least (accept t >>= f) := by
  have hbind : accept t >>= f =
      Reader.onNext (fun t' => if t' = t then some (f true) else none) (f false) := by
    ext ts
    cases ts with
    | nil => rfl
    | cons t' ts =>
      rw [run_bind, accept, run_onNext_cons, run_onNext_cons]
      by_cases ht : t' = t
      · rw [if_pos ht, if_pos ht]
        rfl
      · rw [if_neg ht, if_neg ht]
        rfl
  rw [hbind]
  refine .onNext (if_neg hne.symm) ?_ left
  intro t' r hr
  split at hr
  · cases hr
    exact taken
  · cases hr

theorem Advances.after? {r : Reader τ ω α} (hne : t ≠ last) (h : Advances last 0 r) :
    Advances last 0 (after? t r) := by
  refine .onNext (if_neg hne.symm) ?_ (advances_pure none)
  intro t' r' hr
  split at hr
  · cases hr
    exact h.map some
  · cases hr

theorem Advances.separatedBy {item : Reader τ ω α} (hne : t ≠ last)
    (h : Advances last least item) : Advances last least (separatedBy t item) := by
  have hmore : Advances last 0
      (Reader.chain (fun t' => if t' = t then some () else none) fun _ => item) :=
    .chain (if_neg hne.symm) fun _ _ _ => h
  exact h.bind_first fun a => hmore.bind_first fun as => advances_pure (a :: as)

end SqlGuard.Reader
