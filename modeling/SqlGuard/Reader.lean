/-!
# Readers

A reader takes what remains of a list, answers a value with what is behind the part it read, or says
what it wanted and where. Grammars are built from a few combinators: look at the next element and go
on (`onNext`), read in sequence (the monad), look ahead (`look`), and read on while an element
starts another round (`chain`). What a reader leaves is always a tail of what it was given, so
rounds that start with an element come to an end.
-/

namespace SqlGuard

/-- Why a reader could not go on: what it wanted, and what stood there instead. -/
structure Refusal (τ ω : Type) where
  wanted : ω
  rest : List τ
  deriving DecidableEq, Repr

/-- A reader of values of type `α` from lists over `τ`. -/
structure Reader (τ ω α : Type) where
  /-- What is read from the front of the list, and what is behind it. -/
  run : List τ → Except (Refusal τ ω) (α × List τ)
  /-- What is behind is a tail of the list. -/
  suffix : ∀ {ts a rest}, run ts = .ok (a, rest) → rest <:+ ts

namespace Reader

variable {τ ω α β γ : Type}

@[ext] theorem ext {r s : Reader τ ω α} (h : ∀ ts, r.run ts = s.run ts) : r = s := by
  cases r
  cases s
  congr
  exact funext h

theorem length_le (r : Reader τ ω α) {ts rest : List τ} {a : α} (h : r.run ts = .ok (a, rest)) :
    rest.length ≤ ts.length :=
  (r.suffix h).length_le

/-- Reads nothing. -/
protected def pure (a : α) : Reader τ ω α where
  run ts := .ok (a, ts)
  suffix h := by
    cases h
    exact List.suffix_rfl

/-- Reads with one reader, then with the one its value calls for. -/
protected def bind (r : Reader τ ω α) (f : α → Reader τ ω β) : Reader τ ω β where
  run ts :=
    match r.run ts with
    | .ok (a, rest) => (f a).run rest
    | .error e => .error e
  suffix h := by
    split at h
    · rename_i hr
      exact ((f _).suffix h).trans (r.suffix hr)
    · cases h

instance : Monad (Reader τ ω) where
  pure := Reader.pure
  bind := Reader.bind

/-- Refuses whatever stands here. -/
def refuse (wanted : ω) : Reader τ ω α where
  run ts := .error ⟨wanted, ts⟩
  suffix h := by cases h

/-- Goes on with a reader that is chosen by all that remains. -/
def look (r : List τ → Reader τ ω α) : Reader τ ω α where
  run ts := (r ts).run ts
  suffix h := (r _).suffix h

/-- Takes a number of elements, or all if there are not so many. -/
def skip (count : Nat) : Reader τ ω Unit where
  run ts := .ok ((), ts.drop count)
  suffix h := by
    cases h
    exact List.drop_suffix count _

/-- Takes the next element and goes on with the reader that it selects; if it selects none, takes
    nothing and goes on with `otherwise`. -/
def onNext (select : τ → Option (Reader τ ω α)) (otherwise : Reader τ ω α) : Reader τ ω α where
  run
    | [] => otherwise.run []
    | t :: ts =>
      match select t with
      | some r => r.run ts
      | none => otherwise.run (t :: ts)
  suffix {ts _ _} h := by
    cases ts with
    | nil => exact otherwise.suffix h
    | cons t ts =>
      simp only at h
      split at h
      · exact (Reader.suffix _ h).trans (List.suffix_cons t ts)
      · exact otherwise.suffix h

/-- The rounds that `chainLooking` reads. -/
def chainRun (start : τ → List τ → Option β) (item : β → Reader τ ω γ) :
    List τ → Except (Refusal τ ω) (List γ × List τ)
  | [] => .ok ([], [])
  | t :: ts =>
    match start t ts with
    | none => .ok ([], t :: ts)
    | some b =>
      match _h : (item b).run ts with
      | .error e => .error e
      | .ok (c, rest) => (chainRun start item rest).map fun (cs, rest) => (c :: cs, rest)
termination_by ts => ts.length
decreasing_by exact Nat.lt_succ_of_le ((item b).length_le _h)

theorem chainRun_suffix (start : τ → List τ → Option β) (item : β → Reader τ ω γ) (ts : List τ)
    {cs : List γ} {rest : List τ} (h : chainRun start item ts = .ok (cs, rest)) :
    rest <:+ ts := by
  induction ts using chainRun.induct start item generalizing cs rest with
  | case1 =>
    rw [chainRun] at h
    cases h
    exact List.suffix_rfl
  | case2 t ts hstart =>
    rw [chainRun] at h
    simp only [hstart] at h
    cases h
    exact List.suffix_rfl
  | case3 t ts b hstart e hitem =>
    rw [chainRun] at h
    simp only [hstart] at h
    split at h <;> simp_all
  | case4 t ts b hstart c rest' hitem ih =>
    rw [chainRun] at h
    simp only [hstart] at h
    split at h
    · simp_all
    · rename_i hitem'
      rw [hitem] at hitem'
      cases hitem'
      match hrec : chainRun start item rest' with
      | .error e => simp [hrec, Except.map] at h
      | .ok (cs', rest'') =>
        simp only [hrec, Except.map, Except.ok.injEq, Prod.mk.injEq] at h
        rw [← h.2]
        exact (ih hrec).trans (((item b).suffix hitem).trans (List.suffix_cons t ts))

/-- Reads on as long as the next element, with what is behind it in sight, starts another round, and
    answers what the rounds read behind these elements. -/
def chainLooking (start : τ → List τ → Option β) (item : β → Reader τ ω γ) :
    Reader τ ω (List γ) where
  run := chainRun start item
  suffix := chainRun_suffix start item _

/-- Reads on as long as the next element starts another round. -/
def chain (start : τ → Option β) (item : β → Reader τ ω γ) : Reader τ ω (List γ) :=
  chainLooking (fun t _ => start t) item

/-- Takes elements as long as they satisfy a condition. -/
def takeWhile (p : τ → Bool) : Reader τ ω (List τ) :=
  chain (fun t => if p t then some t else none) pure

variable [DecidableEq τ]

/-- Takes the next element if it is `t`, and says whether it was. -/
def accept (t : τ) : Reader τ ω Bool :=
  onNext (fun t' => if t' = t then some (pure true) else none) (pure false)

/-- Takes the element `t`, which has to stand here. -/
def demand (t : τ) (wanted : ω) : Reader τ ω Unit :=
  onNext (fun t' => if t' = t then some (pure ()) else none) (refuse wanted)

/-- Reads with `r` behind the element `t`, if that stands here. -/
def after? (t : τ) (r : Reader τ ω α) : Reader τ ω (Option α) :=
  onNext (fun t' => if t' = t then some (some <$> r) else none) (pure none)

/-- Reads one or more items with an element between them. -/
def separatedBy (separator : τ) (item : Reader τ ω α) : Reader τ ω (List α) := do
  let first ← item
  let more ← chain (fun t => if t = separator then some () else none) fun _ => item
  return first :: more

end Reader

/-! ### How the combinators run -/

namespace Reader

variable {τ ω α β : Type}

@[simp] theorem run_pure (a : α) (ts : List τ) :
    (pure a : Reader τ ω α).run ts = .ok (a, ts) := rfl

theorem run_bind (r : Reader τ ω α) (f : α → Reader τ ω β) (ts : List τ) :
    (r >>= f).run ts = (r.run ts).bind fun (a, rest) => (f a).run rest := by
  show (Reader.bind r f).run ts = _
  simp only [Reader.bind]
  cases r.run ts <;> rfl

@[simp] theorem run_refuse (wanted : ω) (ts : List τ) :
    (refuse wanted : Reader τ ω α).run ts = .error ⟨wanted, ts⟩ := rfl

theorem run_onNext_cons (select : τ → Option (Reader τ ω α)) (otherwise : Reader τ ω α) (t : τ)
    (ts : List τ) :
    (onNext select otherwise).run (t :: ts) =
      match select t with
      | some r => r.run ts
      | none => otherwise.run (t :: ts) := rfl

end Reader

end SqlGuard
