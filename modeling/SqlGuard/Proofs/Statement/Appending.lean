import SqlGuard.Proofs.Lowering.Nodes
import SqlGuard.Proofs.Statement.Links

/-!
# Chains one behind the other

A chain that is put behind another keeps its references and what they are joined with: each stands
as many positions higher as the first chain is long, and so does the one that its join names. Chains
are a monoid this way, so the order in which several are put together makes no difference. Joins may
name any position here, also one that no reference stands at. Main statements:
`TableChain.followedBy_keeps` and `TableChain.concat_append`.
-/

namespace SqlGuard

/-- The reference, whichever position its join names. -/
def TableRef.unplaced (t : TableRef) : TableRef :=
  { t with join? := t.join?.map fun join => { join with left := 0 } }

theorem TableRef.unplaced_moved (t : TableRef) (n : Nat) : (t.moved n).unplaced = t.unplaced := by
  obtain ⟨source, alias?, join?⟩ := t
  cases join? <;> rfl

theorem TableRef.moved_moved (t : TableRef) (m n : Nat) :
    (t.moved m).moved n = t.moved (n + m) := by
  obtain ⟨source, alias?, join?⟩ := t
  cases join? with
  | none => rfl
  | some join =>
    have hleft : join.left + m + n = join.left + (n + m) := by omega
    simp only [TableRef.moved, Join.moved, Option.map_some, hleft]

namespace TableChain

/-- The position of the reference that the one at index `i` is joined with. -/
def leftPosition? (chain : TableChain) (i : Nat) : Option Nat := do
  let t ← chain[i]?
  let join ← t.join?
  if join.left < chain.length then some join.left else none

variable {chain : TableChain} {i : Nat} {t : TableRef}

theorem leftPosition?_of_join?_none (reference : chain[i]? = some t) (bare : t.join? = none) :
    chain.leftPosition? i = none := by
  rw [leftPosition?, reference]
  show (do let join ← t.join?; if join.left < chain.length then some join.left else none) = none
  rw [bare]
  rfl

theorem leftPosition?_of_join? {join : Join} (reference : chain[i]? = some t)
    (hjoin : t.join? = some join) :
    chain.leftPosition? i = if join.left < chain.length then some join.left else none := by
  rw [leftPosition?, reference]
  show (do let join ← t.join?; if join.left < chain.length then some join.left else none) = _
  rw [hjoin]
  rfl

theorem leftPosition?_of_none (h : chain[i]? = none) : chain.leftPosition? i = none := by
  rw [leftPosition?, h]
  rfl

/-- The reference that one is joined with is the one at that position. -/
theorem left?_eq_bind (chain : TableChain) (i : Nat) :
    chain.left? i = (chain.leftPosition? i).bind (chain[·]?) := by
  rw [TableChain.left?]
  cases reference : chain[i]? with
  | none => rw [leftPosition?_of_none reference]; rfl
  | some t =>
    show (do let join ← t.join?; chain[join.left]?) = _
    cases hjoin : t.join? with
    | none => rw [leftPosition?_of_join?_none reference hjoin]; rfl
    | some join =>
      rw [leftPosition?_of_join? reference hjoin]
      split
      · rfl
      · rename_i hout
        exact List.getElem?_eq_none (Nat.le_of_not_lt hout)

/-! ### What stands where in two chains -/

section Positions

variable {a b : TableChain}

@[simp] theorem length_followedBy (a b : TableChain) :
    (a.followedBy b).length = a.length + b.length := by
  simp [followedBy]

theorem getElem?_followedBy_of_lt (hi : i < a.length) : (a.followedBy b)[i]? = a[i]? :=
  List.getElem?_append_left hi

theorem getElem?_followedBy_add (a b : TableChain) (i : Nat) :
    (a.followedBy b)[a.length + i]? = b[i]?.map (TableRef.moved a.length) := by
  rw [followedBy, List.getElem?_append_right (Nat.le_add_right _ _), Nat.add_sub_cancel_left,
    List.getElem?_map]

theorem leftPosition?_followedBy_add (a b : TableChain) (i : Nat) :
    (a.followedBy b).leftPosition? (a.length + i) = (b.leftPosition? i).map (a.length + ·) := by
  have hmoved := getElem?_followedBy_add a b i
  cases reference : b[i]? with
  | none =>
    rw [reference] at hmoved
    rw [leftPosition?_of_none reference, leftPosition?_of_none hmoved]
    rfl
  | some t =>
    rw [reference] at hmoved
    cases hjoin : t.join? with
    | none =>
      have hbare : (t.moved a.length).join? = none := by rw [TableRef.moved, hjoin]; rfl
      rw [leftPosition?_of_join?_none reference hjoin, leftPosition?_of_join?_none hmoved hbare]
      rfl
    | some join =>
      have hjoined : (t.moved a.length).join? = some (join.moved a.length) := by
        rw [TableRef.moved, hjoin]; rfl
      rw [leftPosition?_of_join? reference hjoin, leftPosition?_of_join? hmoved hjoined,
        length_followedBy, Join.moved, Nat.add_comm join.left]
      -- the join names a position inside both chains or outside both
      simp only [Nat.add_lt_add_iff_left]
      split <;> rfl

theorem left?_followedBy_add (a b : TableChain) (i : Nat) :
    (a.followedBy b).left? (a.length + i) = (b.left? i).map (TableRef.moved a.length) := by
  rw [left?_eq_bind, left?_eq_bind, leftPosition?_followedBy_add]
  cases b.leftPosition? i with
  | none => rfl
  | some p => exact getElem?_followedBy_add a b p

/-- The reference names no position outside its chain. -/
def InRange (chain : TableChain) (t : TableRef) : Prop :=
  ∀ join, t.join? = some join → join.left < chain.length

theorem leftPosition?_followedBy_of_inRange (reference : a[i]? = some t) (inRange : a.InRange t)
    (b : TableChain) : (a.followedBy b).leftPosition? i = a.leftPosition? i := by
  have hstill : (a.followedBy b)[i]? = some t := by
    rw [getElem?_followedBy_of_lt (List.getElem?_eq_some_iff.1 reference).1, reference]
  cases hjoin : t.join? with
  | none => rw [leftPosition?_of_join?_none hstill hjoin, leftPosition?_of_join?_none reference hjoin]
  | some join =>
    have hleft := inRange join hjoin
    have hmore : join.left < (a.followedBy b).length := by rw [length_followedBy]; omega
    rw [leftPosition?_of_join? hstill hjoin, leftPosition?_of_join? reference hjoin, if_pos hmore,
      if_pos hleft]

theorem left?_followedBy_of_inRange (reference : a[i]? = some t) (inRange : a.InRange t)
    (b : TableChain) : (a.followedBy b).left? i = a.left? i := by
  rw [left?_eq_bind, left?_eq_bind, leftPosition?_followedBy_of_inRange reference inRange b]
  cases hjoin : t.join? with
  | none => rw [leftPosition?_of_join?_none reference hjoin]; rfl
  | some join =>
    have hleft := inRange join hjoin
    rw [leftPosition?_of_join? reference hjoin, if_pos hleft]
    exact getElem?_followedBy_of_lt hleft

end Positions

/-! ### The monoid of chains -/

theorem followedBy_nil (chain : TableChain) : chain.followedBy [] = chain := List.append_nil chain

theorem followedBy_assoc (a b c : TableChain) :
    (a.followedBy b).followedBy c = a.followedBy (b.followedBy c) := by
  have hmoved : ∀ t : TableRef, (t.moved b.length).moved a.length = t.moved (a.length + b.length) :=
    fun t => TableRef.moved_moved t b.length a.length
  simp only [followedBy, List.length_append, List.length_map, List.map_append, List.map_map,
    Function.comp_def, hmoved, List.append_assoc]

/-- Chains that are put together in two lots are as if all were put one behind the other. -/
theorem concat_append (chains more : List TableChain) :
    concat (chains ++ more) = (concat chains).followedBy (concat more) := by
  induction more using List.reverseRecOn with
  | nil => rw [List.append_nil]; exact (followedBy_nil _).symm
  | append_singleton more chain ih =>
    rw [← List.append_assoc, concat_concat, concat_concat, ih, followedBy_assoc]

/-- A chain behind another keeps its references but for the positions that their joins name, and
    these go on naming the references that they named before, as those of the first chain do. A
    position that no reference stands at stays one in the second chain only. -/
theorem followedBy_keeps (a b c : TableChain) :
    (∃ b', a.followedBy b = a ++ b' ∧ b'.map TableRef.unplaced = b.map TableRef.unplaced) ∧
    (∀ i, (a.followedBy b).leftPosition? (a.length + i) = (b.leftPosition? i).map (a.length + ·) ∧
      (a.followedBy b).left? (a.length + i) = (b.left? i).map (TableRef.moved a.length)) ∧
    (∀ i t, a[i]? = some t → a.InRange t →
      (a.followedBy b).leftPosition? i = a.leftPosition? i ∧
        (a.followedBy b).left? i = a.left? i) ∧
    (a.followedBy b).followedBy c = a.followedBy (b.followedBy c) ∧
    a.followedBy [] = a ∧ followedBy [] a = a ∧
    (a.IsLinked → b.IsLinked → (a.followedBy b).IsLinked) := by
  refine ⟨⟨b.map (TableRef.moved a.length), rfl, ?_⟩, ?_, ?_, followedBy_assoc a b c,
    followedBy_nil a, nil_followedBy a, IsLinked.followedBy⟩
  · rw [List.map_map]
    exact List.map_congr_left fun t _ => t.unplaced_moved a.length
  · exact fun i => ⟨leftPosition?_followedBy_add a b i, left?_followedBy_add a b i⟩
  · exact fun i t reference inRange =>
      ⟨leftPosition?_followedBy_of_inRange reference inRange b,
        left?_followedBy_of_inRange reference inRange b⟩

/-- Two joined references behind two others, and behind those a join that names no reference. -/
theorem followedBy_keeps_joined :
    let table (name : String) (left? : Option Nat) : TableRef :=
      { source := .table name, join? := left?.map fun left => ⟨.leftOuter, none, left⟩ }
    let a : TableChain := [table "a" none, table "b" (some 0)]
    let b : TableChain := [table "c" none, table "d" (some 0)]
    let c : TableChain := [table "e" (some 7)]
    a.leftPosition? 1 = some 0 ∧ (a.followedBy b).leftPosition? 1 = some 0 ∧
      (a.followedBy b).leftPosition? 3 = some 2 ∧ (a.followedBy b).left? 3 = some (table "c" none) ∧
      (a.followedBy c).leftPosition? 2 = none ∧ (a.followedBy b).IsLinked := by
  intro table a b c
  have inRange : a.InRange (table "b" (some 0)) := by
    rintro join ⟨⟩
    decide
  have linked : ∀ name name', IsLinked [table name none, table name' (some 0)] := by
    rintro name name' (_ | _ | i) t join reference hjoin
    · cases reference
      cases hjoin
    · cases reference
      cases hjoin
      exact ⟨Nat.le_refl 1, rfl⟩
    · cases reference
  obtain ⟨-, behind, front, -, -, -, keepsLinked⟩ := followedBy_keeps a b c
  obtain ⟨-, dangling, -⟩ := followedBy_keeps a c b
  refine ⟨rfl, (front 1 _ rfl inRange).1, (behind 1).1, (behind 1).2, (dangling 0).1,
    keepsLinked (linked "a" "b") (linked "c" "d")⟩

end TableChain

end SqlGuard
