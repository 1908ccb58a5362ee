import SqlGuard.Analysis.Query
import SqlGuard.Proofs.Analysis.Counting
import SqlGuard.Proofs.Outcome

/-!
# What a reference means

A reference to a column means a place in its scope: that of the only column with its name, or of the
only column with its name in the only table reference that its qualifier addresses. Main statement:
`resolve_eq_ok_iff`, resolution finds the column at the place that a reference means, and fails
where it means none.
-/

namespace SqlGuard

/-- A place in a scope: a column by the positions of its table reference and in its columns. -/
structure Place where
  table : Nat
  column : Nat

namespace Scope

/-- The column at a place. -/
def at? (scope : Scope) (p : Place) : Option VisibleColumn :=
  scope[p.table]?.bind fun entry => entry.columns[p.column]?

/-- Whether the column at a place has a name. -/
def NameAt (scope : Scope) (name : String) (p : Place) : Prop :=
  ∃ c, scope.at? p = some c ∧ Text.sameIgnoringCase c.name name = true

/-- Whether a qualifier addresses the table reference at a position. -/
def QualifierAt (scope : Scope) (qualifier : String) (i : Nat) : Prop :=
  ∃ entry name, scope[i]? = some entry ∧ entry.name? = some name ∧
    Text.sameIgnoringCase name qualifier = true

/-- The place that a reference means. Without a qualifier it has to be the only place with the name,
    in all table references together. With one, a single table reference may answer to the
    qualifier, and the place has to be the only one with the name in it. -/
inductive Means (scope : Scope) (f : Field) (p : Place) : Prop
  | unqualified (bare : f.qualifier = "") (named : scope.NameAt f.name p)
      (only : ∀ p', scope.NameAt f.name p' → p' = p)
  | qualified (written : f.qualifier ≠ "") (addressed : scope.QualifierAt f.qualifier p.table)
      (onlyTable : ∀ i, scope.QualifierAt f.qualifier i → i = p.table)
      (named : scope.NameAt f.name p)
      (only : ∀ j, scope.NameAt f.name ⟨p.table, j⟩ → j = p.column)

/-- A reference means one place at most. -/
theorem Means.unique {scope : Scope} {f : Field} {p q : Place} (hp : scope.Means f p)
    (hq : scope.Means f q) : p = q := by
  cases hp with
  | unqualified bare _ only =>
    cases hq with
    | unqualified _ named _ => exact (only q named).symm
    | qualified written => exact absurd bare written
  | qualified written _ onlyTable named _ =>
    cases hq with
    | unqualified bare => exact absurd bare written
    | qualified _ addressed _ named' only' =>
      obtain ⟨i, j⟩ := p
      obtain ⟨i', j'⟩ := q
      have hi : i' = i := onlyTable i' addressed
      subst hi
      rw [only' j named]

/-! ### The only one of a list -/

theorem theOnly_eq_ok {α : Type} {none several : AnalysisError} {as : List α} {a : α} :
    theOnly none several as = .ok a ↔ as = [a] := by
  match as with
  | [] => simp [theOnly]
  | [b] => simp [theOnly]
  | _ :: _ :: _ => simp [theOnly]

/-- A single element satisfies a condition, if it does so at one position alone. -/
theorem filter_eq_singleton_iff {α : Type} {p : α → Bool} {as : List α} {a : α} :
    as.filter p = [a] ↔
      ∃ i : Nat, as[i]? = some a ∧ p a = true ∧
        ∀ (j : Nat) b, as[j]? = some b → p b = true → j = i := by
  induction as with
  | nil => simp
  | cons b bs ih =>
    by_cases hb : p b = true
    · rw [List.filter_cons_of_pos hb]
      constructor
      · intro h
        obtain ⟨rfl, hnil⟩ := List.cons.inj h
        refine ⟨0, rfl, hb, ?_⟩
        intro j c hj hc
        cases j with
        | zero => rfl
        | succ j =>
          have hmem : c ∈ bs := List.mem_of_getElem? hj
          exact absurd hc (List.filter_eq_nil_iff.1 hnil c hmem)
      · intro given
        rcases given with ⟨i, hi, -, only⟩
        have hzero : 0 = i := only 0 b rfl hb
        subst hzero
        cases hi
        congr 1
        rw [List.filter_eq_nil_iff]
        intro c hc hpc
        obtain ⟨j, hj⟩ := List.getElem?_of_mem hc
        exact absurd (only (j + 1) c hj hpc) (Nat.succ_ne_zero j)
    · rw [List.filter_cons_of_neg hb, ih]
      constructor
      · intro given
        rcases given with ⟨i, hi, ha, only⟩
        refine ⟨i + 1, hi, ha, ?_⟩
        intro j c hj hc
        cases j with
        | zero => cases hj; exact absurd hc hb
        | succ j => rw [only j c hj hc]
      · intro given
        rcases given with ⟨i, hi, ha, only⟩
        cases i with
        | zero => cases hi; exact absurd ha hb
        | succ i =>
          refine ⟨i, hi, ha, ?_⟩
          intro j c hj hc
          exact Nat.succ.inj (only (j + 1) c hj hc)

/-- Lists put together hold a single element, if one of them holds it and the others are empty. -/
theorem flatMap_eq_singleton_iff {α β : Type} {f : α → List β} {as : List α} {b : β} :
    as.flatMap f = [b] ↔
      ∃ (i : Nat) (a : α), as[i]? = some a ∧ f a = [b] ∧
        ∀ (j : Nat) a', as[j]? = some a' → j ≠ i → f a' = [] := by
  induction as with
  | nil => simp
  | cons c cs ih =>
    rw [List.flatMap_cons, List.append_eq_singleton_iff, ih, List.flatMap_eq_nil_iff]
    constructor
    · intro given
      rcases given with ⟨hc, i, a, hi, ha, only⟩ | ⟨hc, hnil⟩
      · refine ⟨i + 1, a, hi, ha, ?_⟩
        intro j a' hj hne
        cases j with
        | zero => cases hj; exact hc
        | succ j => exact only j a' hj (fun h => hne (congrArg Nat.succ h))
      · refine ⟨0, c, rfl, hc, ?_⟩
        intro j a' hj hne
        cases j with
        | zero => exact absurd rfl hne
        | succ j => exact hnil a' (List.mem_of_getElem? hj)
    · intro given
      rcases given with ⟨i, a, hi, ha, only⟩
      cases i with
      | zero =>
        cases hi
        refine .inr ⟨ha, ?_⟩
        intro a' hmem
        obtain ⟨j, hj⟩ := List.getElem?_of_mem hmem
        exact only (j + 1) a' hj (Nat.succ_ne_zero j)
      | succ i =>
        refine .inl ⟨only 0 c rfl (Nat.succ_ne_zero i).symm, i, a, hi, ha, ?_⟩
        intro j a' hj hne
        exact only (j + 1) a' hj (fun h => hne (Nat.succ.inj h))

/-! ### Resolution -/

theorem at?_eq_some {scope : Scope} {i j : Nat} {c : VisibleColumn} :
    scope.at? ⟨i, j⟩ = some c ↔
      ∃ entry, scope[i]? = some entry ∧ entry.columns[j]? = some c := by
  simp [at?, Option.bind_eq_some_iff]

theorem columnsNamed_eq_singleton_iff {columns : List VisibleColumn} {name : String}
    {c : VisibleColumn} :
    columnsNamed name columns = [c] ↔
      ∃ j : Nat, columns[j]? = some c ∧ Text.sameIgnoringCase c.name name = true ∧
        ∀ (j' : Nat) c', columns[j']? = some c' →
          Text.sameIgnoringCase c'.name name = true → j' = j :=
  filter_eq_singleton_iff

/-- The only column with a name, among those of all table references. -/
theorem columnsNamed_columns_eq_singleton_iff {scope : Scope} {name : String}
    {c : VisibleColumn} :
    columnsNamed name scope.columns = [c] ↔
      ∃ p, scope.at? p = some c ∧ scope.NameAt name p ∧ ∀ p', scope.NameAt name p' → p' = p := by
  have hflat : columnsNamed name scope.columns =
      scope.flatMap fun entry => columnsNamed name entry.columns := List.filter_flatMap ..
  rw [hflat, flatMap_eq_singleton_iff]
  constructor
  · intro given
    rcases given with ⟨i, entry, hi, hentry, others⟩
    obtain ⟨j, hj, hc, only⟩ := columnsNamed_eq_singleton_iff.1 hentry
    have hat : scope.at? ⟨i, j⟩ = some c := at?_eq_some.2 ⟨entry, hi, hj⟩
    refine ⟨⟨i, j⟩, hat, ⟨c, hat, hc⟩, ?_⟩
    rintro ⟨i', j'⟩ ⟨c', hat', hc'⟩
    obtain ⟨entry', hi', hj'⟩ := at?_eq_some.1 hat'
    -- a name in another table reference would be one of the columns that are left
    by_cases hne : i' = i
    · subst hne
      rw [hi] at hi'
      cases hi'
      rw [only j' c' hj' hc']
    · have hnil := others i' entry' hi' hne
      exact absurd hc' (List.filter_eq_nil_iff.1 hnil c' (List.mem_of_getElem? hj'))
  · intro given
    rcases given with ⟨⟨i, j⟩, hat, ⟨c', hat', hc⟩, only⟩
    rw [hat] at hat'
    cases hat'
    obtain ⟨entry, hi, hj⟩ := at?_eq_some.1 hat
    refine ⟨i, entry, hi, columnsNamed_eq_singleton_iff.2 ⟨j, hj, hc, ?_⟩, ?_⟩
    · intro j' c' hj' hc'
      have hsame := only ⟨i, j'⟩ ⟨c', at?_eq_some.2 ⟨entry, hi, hj'⟩, hc'⟩
      exact congrArg Place.column hsame
    · intro i' entry' hi' hne
      apply List.filter_eq_nil_iff.2
      intro c' hmem hc'
      obtain ⟨j', hj'⟩ := List.getElem?_of_mem hmem
      have hsame := only ⟨i', j'⟩ ⟨c', at?_eq_some.2 ⟨entry', hi', hj'⟩, hc'⟩
      exact hne (congrArg Place.table hsame)

/-- The only table reference that a qualifier addresses. -/
theorem entriesNamed_eq_singleton_iff {scope : Scope} {qualifier : String} {entry : ScopeEntry} :
    scope.entriesNamed qualifier = [entry] ↔
      ∃ i : Nat, scope[i]? = some entry ∧ scope.QualifierAt qualifier i ∧
        ∀ i', scope.QualifierAt qualifier i' → i' = i := by
  rw [entriesNamed, filter_eq_singleton_iff]
  constructor
  · intro given
    rcases given with ⟨i, hi, hq, only⟩
    obtain ⟨name, hname, hsame⟩ := (Option.any_eq_true ..).1 hq
    refine ⟨i, hi, ⟨entry, name, hi, hname, hsame⟩, ?_⟩
    rintro i' ⟨entry', name', hi', hname', hsame'⟩
    exact only i' entry' hi' (by simp [hname', hsame'])
  · intro given
    rcases given with ⟨i, hi, ⟨entry', name, hi', hname, hsame⟩, only⟩
    rw [hi] at hi'
    cases hi'
    refine ⟨i, hi, by simp [hname, hsame], ?_⟩
    intro j e hj hq
    obtain ⟨name', hname', hsame'⟩ := (Option.any_eq_true ..).1 hq
    exact only j ⟨e, name', hj, hname', hsame'⟩

/-- Resolution finds the column at the place that a reference means. -/
theorem resolve_eq_ok_iff {scope : Scope} {f : Field} {c : VisibleColumn} :
    scope.resolve f.qualifier f.name = .ok c ↔ ∃ p, scope.Means f p ∧ scope.at? p = some c := by
  simp only [resolve_eq, bind_eq_ok, theOnly_eq_ok]
  by_cases hq : f.qualifier = ""
  · have hbehind : scope.columnsBehind f.qualifier = .ok scope.columns := by
      simp [columnsBehind, hq]
    simp only [hbehind, Except.ok.injEq, exists_eq_left', columnsNamed_columns_eq_singleton_iff]
    constructor
    · intro given
      rcases given with ⟨p, hat, named, only⟩
      exact ⟨p, .unqualified hq named only, hat⟩
    · intro given
      rcases given with ⟨p, hmeans, hat⟩
      cases hmeans with
      | unqualified _ named only => exact ⟨p, hat, named, only⟩
      | qualified written => exact absurd hq written
  · have hbehind : scope.columnsBehind f.qualifier = ScopeEntry.columns <$>
        theOnly (.unknownQualifier f.qualifier) (.ambiguous f.qualifier)
          (scope.entriesNamed f.qualifier) := by
      simp [columnsBehind, hq]
    simp only [hbehind, map_eq_ok, theOnly_eq_ok, entriesNamed_eq_singleton_iff]
    constructor
    · intro given
      rcases given with ⟨columns, ⟨entry, ⟨i, hi, haddr, onlyTable⟩, rfl⟩, hnamed⟩
      obtain ⟨j, hj, hc, only⟩ := columnsNamed_eq_singleton_iff.1 hnamed
      have hat : scope.at? ⟨i, j⟩ = some c := at?_eq_some.2 ⟨entry, hi, hj⟩
      refine ⟨⟨i, j⟩, .qualified hq haddr onlyTable ⟨c, hat, hc⟩ ?_, hat⟩
      rintro j' ⟨c', hat', hc'⟩
      obtain ⟨entry', hi', hj'⟩ := at?_eq_some.1 hat'
      rw [hi] at hi'
      cases hi'
      exact only j' c' hj' hc'
    · intro given
      rcases given with ⟨⟨i, j⟩, hmeans, hat⟩
      cases hmeans with
      | unqualified bare => exact absurd bare hq
      | qualified _ haddr onlyTable named only =>
        obtain ⟨c', hat', hc⟩ := named
        rw [hat] at hat'
        cases hat'
        obtain ⟨entry, hi, hj⟩ := at?_eq_some.1 hat
        refine ⟨_, ⟨entry, ⟨i, hi, haddr, onlyTable⟩, rfl⟩, ?_⟩
        refine columnsNamed_eq_singleton_iff.2 ⟨j, hj, hc, ?_⟩
        intro j' c' hj' hc'
        exact only j' ⟨c', at?_eq_some.2 ⟨entry, hi, hj'⟩, hc'⟩

end Scope

end SqlGuard
