import SqlGuard.Proofs.Lowering.Joins

/-!
# Linked chains

A chain is linked if each join stands behind a reference and names the one before its own. Chains
that are linked are so when one is put behind the other, and when a join is noted at the last of
several references; what the references are, apart from their joins, does not change. Main
statements: `TableChain.isLinked_concat` and `TableChain.isLinked_joinLast`.
-/

namespace SqlGuard

/-- The reference, whatever it is joined with. -/
def TableRef.unjoined (t : TableRef) : TableRef := { t with join? := none }

namespace TableChain

/-- Each join stands behind the first reference and names the one before its own. -/
def IsLinked (chain : TableChain) : Prop :=
  ∀ (i : Nat) (t : TableRef) (join : Join), chain[i]? = some t → t.join? = some join →
    1 ≤ i ∧ join.left = i - 1

variable {chain more : TableChain}

/-! ### What a linked chain is like -/

theorem IsLinked.first (h : chain.IsLinked) {t : TableRef} (hfirst : chain[0]? = some t) :
    t.join? = none := by
  cases hjoin : t.join? with
  | none => rfl
  | some join => exact absurd (h 0 t join hfirst hjoin).1 (by decide)

/-- The reference that a joined one is joined with is there, and is the one before it. -/
theorem IsLinked.left? (h : chain.IsLinked) {i : Nat} {t : TableRef} {join : Join}
    (reference : chain[i]? = some t) (hjoin : t.join? = some join) :
    ∃ before, chain[i - 1]? = some before ∧ chain.left? i = some before := by
  obtain ⟨hi, hleft⟩ := h i t join reference hjoin
  have hlength := (List.getElem?_eq_some_iff.1 reference).1
  have hbefore := List.getElem?_eq_getElem (l := chain) (i := i - 1) (by omega)
  refine ⟨_, hbefore, ?_⟩
  rw [TableChain.left?, reference]
  show (do let join ← t.join?; chain[join.left]?) = _
  rw [hjoin, ← hbefore, ← hleft]
  rfl

/-! ### Chains that are linked -/

theorem isLinked_nil : IsLinked [] := nofun

theorem isLinked_singleton {t : TableRef} (bare : t.join? = none) : IsLinked [t] := by
  intro i u join reference hjoin
  cases List.mem_singleton.1 (List.mem_of_getElem? reference)
  rw [bare] at hjoin
  cases hjoin

/-- The joins of the second chain move along with their references. -/
theorem IsLinked.followedBy (h : chain.IsLinked) (hmore : more.IsLinked) :
    (chain.followedBy more).IsLinked := by
  intro i t join reference hjoin
  rw [TableChain.followedBy, List.getElem?_append] at reference
  split at reference
  case isTrue => exact h i t join reference hjoin
  case isFalse hi =>
    rw [List.getElem?_map, Option.map_eq_some_iff] at reference
    obtain ⟨u, reference, rfl⟩ := reference
    obtain ⟨join, hu, rfl⟩ := Option.map_eq_some_iff.1 hjoin
    obtain ⟨hfirst, hleft⟩ := hmore _ u join reference hu
    have hmoved : (join.moved chain.length).left = join.left + chain.length := rfl
    omega

theorem isLinked_concat {chains : List TableChain} (each : ∀ chain ∈ chains, chain.IsLinked) :
    (concat chains).IsLinked := by
  induction chains using List.reverseRecOn with
  | nil => exact isLinked_nil
  | append_singleton chains chain ih =>
    rw [List.forall_mem_append, List.forall_mem_singleton] at each
    rw [concat_concat]
    exact (ih each.1).followedBy each.2

/-- A chain of two references at least ends with its last one. -/
theorem joinLast_eq {before : TableChain} {last : TableRef} (op : JoinOp) (on? : Option Expr) :
    joinLast op on? (before ++ [last]) =
      before ++ [{ last with join? := some ⟨op, on?, before.length - 1⟩ }] := by
  simp [joinLast]

/-- The last reference is joined with the one before it. -/
theorem isLinked_joinLast (h : chain.IsLinked) (two : 2 ≤ chain.length) (op : JoinOp)
    (on? : Option Expr) : (chain.joinLast op on?).IsLinked := by
  obtain rfl | ⟨before, last, rfl⟩ := List.eq_nil_or_concat' chain
  · cases two
  intro i t join reference hjoin
  -- a join that the last reference carried before is gone, all others stay
  rw [joinLast_eq, List.getElem?_append] at reference
  rw [List.length_append, List.length_singleton] at two
  split at reference
  case isTrue hi =>
    refine h i t join ?_ hjoin
    rw [List.getElem?_append_left hi, reference]
  case isFalse hi =>
    have hlast : i - before.length < 1 := (List.getElem?_eq_some_iff.1 reference).1
    cases List.mem_singleton.1 (List.mem_of_getElem? reference)
    cases hjoin
    have hi : i = before.length := by omega
    subst hi
    exact ⟨by omega, rfl⟩

/-! ### References without their joins -/

theorem map_unjoined_followedBy (chain more : TableChain) :
    (chain.followedBy more).map TableRef.unjoined =
      chain.map TableRef.unjoined ++ more.map TableRef.unjoined := by
  rw [followedBy, List.map_append, List.map_map]
  rfl

theorem map_unjoined_concat (chains : List TableChain) :
    (concat chains).map TableRef.unjoined = chains.flatMap (List.map TableRef.unjoined) := by
  induction chains using List.reverseRecOn with
  | nil => rfl
  | append_singleton chains chain ih =>
    rw [concat_concat, map_unjoined_followedBy, ih, List.flatMap_append, List.flatMap_singleton]

theorem map_unjoined_joinLast (op : JoinOp) (on? : Option Expr) (chain : TableChain) :
    (chain.joinLast op on?).map TableRef.unjoined = chain.map TableRef.unjoined := by
  obtain rfl | ⟨before, last, rfl⟩ := List.eq_nil_or_concat' chain
  · rfl
  · rw [joinLast_eq, List.map_append, List.map_append]
    rfl

end TableChain

end SqlGuard
