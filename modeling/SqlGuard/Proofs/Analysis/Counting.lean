import Mathlib.Data.List.Perm.Basic
import SqlGuard.Analysis.Scope
import SqlGuard.Proofs.Outcome

/-!
# Names are resolved by counting

A reference is looked up in one table reference after another, and the search ends early where a
name is met twice. What it answers is decided by numbers alone: how many references the qualifier
addresses, and how many columns have the name. Main statements: `Scope.resolve_eq`, the search finds
the only one of all columns in sight, and `Scope.resolve_counts`, the numbers decide the answer, so
that no order does.
-/

namespace SqlGuard

namespace Scope

/-- All columns in sight. -/
def columns (scope : Scope) : List VisibleColumn := scope.flatMap ScopeEntry.columns

/-- The columns that a qualifier puts in sight: all without a qualifier, else those of the only
    reference that it addresses. -/
def columnsBehind (scope : Scope) (qualifier : String) : Analyzed (List VisibleColumn) :=
  if qualifier.isEmpty then .ok scope.columns
  else
    ScopeEntry.columns <$>
      theOnly (.unknownQualifier qualifier) (.ambiguous qualifier) (scope.entriesNamed qualifier)

/-- The search goes through all columns with the name, behind the one that was found before. -/
theorem search_eq (name : String) (found? : Option VisibleColumn) (scope : Scope) :
    search name found? scope =
      atMostOne (.ambiguous name) (found?.toList ++ columnsNamed name scope.columns) := by
  induction scope generalizing found? with
  | nil => cases found? <;> rfl
  | cons entry scope ih =>
    have hsplit : columnsNamed name (columns (entry :: scope)) =
        columnsNamed name entry.columns ++ columnsNamed name (columns scope) := by
      unfold columns columnsNamed
      rw [List.flatMap_cons, List.filter_append]
    rw [search, ScopeEntry.column?, hsplit]
    match columnsNamed name entry.columns, found? with
    | [], found? => exact ih found?
    | [column], none => exact ih (some column)
    | [_], some _ => rfl
    | _ :: _ :: _, none | _ :: _ :: _, some _ => rfl

/-- The column that a reference means is the only one with the name that the qualifier puts in
    sight. -/
theorem resolve_eq (scope : Scope) (qualifier name : String) :
    scope.resolve qualifier name = (do
      let columns ← scope.columnsBehind qualifier
      theOnly (.unknownColumn qualifier name) (.ambiguous name) (columnsNamed name columns)) := by
  unfold resolve lookUp columnsBehind
  split
  · rw [search_eq]
    show atMostOne _ (columnsNamed name scope.columns) >>= _ = theOnly _ _ _
    match columnsNamed name scope.columns with
    | [] | [_] | _ :: _ :: _ => rfl
  · cases theOnly (.unknownQualifier qualifier) (.ambiguous qualifier)
        (scope.entriesNamed qualifier) with
    | error e => rfl
    | ok entry =>
      show entry.column? name >>= _ = theOnly _ _ (columnsNamed name entry.columns)
      unfold ScopeEntry.column?
      match columnsNamed name entry.columns with
      | [] | [_] | _ :: _ :: _ => rfl

end Scope

/-! ### The answer by numbers -/

/-- Whether a column has a name. -/
def VisibleColumn.hasName (name : String) (column : VisibleColumn) : Bool :=
  Text.sameIgnoringCase column.name name

/-- Whether a qualifier addresses a table reference. -/
def ScopeEntry.isAddressed (qualifier : String) (entry : ScopeEntry) : Bool :=
  entry.name?.any (Text.sameIgnoringCase · qualifier)

/-- What is answered by the number of elements that satisfy a condition: the only one of them, or an
    error where there is none and where there are several. -/
inductive ByCount {α : Type} (p : α → Bool) (as : List α) (none several : AnalysisError) :
    Analyzed α → Prop
  | one {a : α} (count : as.countP p = 1) (among : a ∈ as) (holds : p a = true) :
      ByCount p as none several (.ok a)
  | none (count : as.countP p = 0) : ByCount p as none several (.error none)
  | several (count : 2 ≤ as.countP p) : ByCount p as none several (.error several)

/-- What a reference means by numbers. Without a qualifier the columns of all table references
    count. With one, the table references that it addresses count first, and then the columns of
    the only one of them. -/
inductive Scope.Counted (scope : Scope) (qualifier name : String) : Analyzed VisibleColumn → Prop
  | bare {answer : Analyzed VisibleColumn} (bare : qualifier = "")
      (columns : ByCount (VisibleColumn.hasName name) scope.columns (.unknownColumn qualifier name)
        (.ambiguous name) answer) :
      Counted scope qualifier name answer
  | refused {e : AnalysisError} (written : qualifier ≠ "")
      (entries : ByCount (ScopeEntry.isAddressed qualifier) scope (.unknownQualifier qualifier)
        (.ambiguous qualifier) (.error e)) :
      Counted scope qualifier name (.error e)
  | addressed {entry : ScopeEntry} {answer : Analyzed VisibleColumn} (written : qualifier ≠ "")
      (entries : ByCount (ScopeEntry.isAddressed qualifier) scope (.unknownQualifier qualifier)
        (.ambiguous qualifier) (.ok entry))
      (columns : ByCount (VisibleColumn.hasName name) entry.columns (.unknownColumn qualifier name)
        (.ambiguous name) answer) :
      Counted scope qualifier name answer

namespace ByCount

variable {α : Type} {p : α → Bool} {as bs : List α} {none several : AnalysisError}
  {answer : Analyzed α}

/-- The only element of a list that satisfies a condition is found by counting. -/
theorem theOnly_filter_eq_iff :
    Scope.theOnly none several (as.filter p) = answer ↔ ByCount p as none several answer := by
  have hcount : as.countP p = (as.filter p).length := List.countP_eq_length_filter
  constructor
  · rintro rfl
    match hfilter : as.filter p with
    | [] =>
      rw [hfilter] at hcount
      exact .none hcount
    | [a] =>
      rw [hfilter] at hcount
      have hmem : a ∈ as.filter p := hfilter ▸ List.mem_singleton_self a
      exact .one hcount (List.mem_filter.1 hmem).1 (List.mem_filter.1 hmem).2
    | _ :: _ :: _ =>
      rw [hfilter] at hcount
      exact .several (by simp [hcount])
  · intro counted
    cases counted with
    | one count among holds =>
      obtain ⟨b, hb⟩ := List.length_eq_one_iff.1 (hcount.symm.trans count)
      have hmem := List.mem_filter.2 ⟨among, holds⟩
      rw [hb, List.mem_singleton] at hmem
      rw [hb, hmem]
      rfl
    | none count =>
      rw [List.eq_nil_of_length_eq_zero (hcount.symm.trans count)]
      rfl
    | several count =>
      match hfilter : as.filter p with
      | [] | [_] =>
        rw [hcount, hfilter] at count
        simp at count
      | _ :: _ :: _ => rfl

theorem unique {answer' : Analyzed α} (counted : ByCount p as none several answer)
    (counted' : ByCount p as none several answer') : answer = answer' :=
  (theOnly_filter_eq_iff.2 counted).symm.trans (theOnly_filter_eq_iff.2 counted')

/-- Another order of the elements leaves the answer. -/
theorem perm (order : as.Perm bs) (counted : ByCount p as none several answer) :
    ByCount p bs none several answer := by
  have hcount := order.countP_eq p
  cases counted with
  | one count among holds => exact .one (hcount ▸ count) (order.mem_iff.1 among) holds
  | none count => exact .none (hcount ▸ count)
  | several count => exact .several (hcount ▸ count)

end ByCount

namespace Scope

variable {scope scope' : Scope} {qualifier name : String}

theorem counted_resolve : scope.Counted qualifier name (scope.resolve qualifier name) := by
  rw [resolve_eq, columnsBehind]
  by_cases hq : qualifier = ""
  · rw [if_pos (String.isEmpty_iff.2 hq)]
    exact .bare hq (ByCount.theOnly_filter_eq_iff.1 rfl)
  · rw [if_neg (mt String.isEmpty_iff.1 hq)]
    cases hentries : theOnly (.unknownQualifier qualifier) (.ambiguous qualifier)
        (scope.entriesNamed qualifier) with
    | error e => exact .refused hq (ByCount.theOnly_filter_eq_iff.1 hentries)
    | ok entry =>
      exact .addressed hq (ByCount.theOnly_filter_eq_iff.1 hentries)
        (ByCount.theOnly_filter_eq_iff.1 rfl)

/-- The numbers allow one answer. -/
theorem Counted.unique {answer answer' : Analyzed VisibleColumn}
    (counted : scope.Counted qualifier name answer)
    (counted' : scope.Counted qualifier name answer') : answer = answer' := by
  cases counted with
  | bare bare columns =>
    cases counted' with
    | bare _ columns' => exact columns.unique columns'
    | refused written | addressed written => exact absurd bare written
  | refused written entries =>
    cases counted' with
    | bare bare => exact absurd bare written
    | refused _ entries' => cases entries.unique entries'; rfl
    | addressed _ entries' => cases entries.unique entries'
  | addressed written entries columns =>
    cases counted' with
    | bare bare => exact absurd bare written
    | refused _ entries' => cases entries.unique entries'
    | addressed _ entries' columns' =>
      cases entries.unique entries'
      exact columns.unique columns'

/-! ### Other orders -/

/-- The same name, and the same columns in another order. -/
def SameColumns (entry entry' : ScopeEntry) : Prop :=
  entry.name? = entry'.name? ∧ entry.columns.Perm entry'.columns

/-- The same table references in another order, and in each the same columns in another order. -/
def Reordered (scope scope' : Scope) : Prop :=
  ∃ moved : Scope, scope.Perm moved ∧ List.Forall₂ SameColumns moved scope'

theorem columns_perm (same : List.Forall₂ SameColumns scope scope') :
    scope.columns.Perm scope'.columns := by
  induction same with
  | nil => exact .refl _
  | cons first _ ih => exact first.2.append ih

theorem countP_isAddressed (same : List.Forall₂ SameColumns scope scope') :
    scope.countP (ScopeEntry.isAddressed qualifier) =
      scope'.countP (ScopeEntry.isAddressed qualifier) := by
  induction same with
  | nil => rfl
  | cons first _ ih =>
    rw [List.countP_cons, List.countP_cons, ih, ScopeEntry.isAddressed, ScopeEntry.isAddressed,
      first.1]

namespace Reordered

theorem columns (order : scope.Reordered scope') : scope.columns.Perm scope'.columns := by
  obtain ⟨moved, hperm, same⟩ := order
  exact (hperm.flatMap_right ScopeEntry.columns).trans (columns_perm same)

variable {unknown ambiguous : AnalysisError}

/-- A qualifier that is refused is refused in any order. -/
theorem refused (order : scope.Reordered scope') {e : AnalysisError}
    (entries : ByCount (ScopeEntry.isAddressed qualifier) scope unknown ambiguous (.error e)) :
    ByCount (ScopeEntry.isAddressed qualifier) scope' unknown ambiguous (.error e) := by
  obtain ⟨moved, hperm, same⟩ := order
  have hcount : moved.countP (ScopeEntry.isAddressed qualifier) =
      scope'.countP (ScopeEntry.isAddressed qualifier) := countP_isAddressed same
  cases entries.perm hperm with
  | none count => exact .none (hcount ▸ count)
  | several count => exact .several (hcount ▸ count)

/-- The only table reference that a qualifier addresses has its columns in any order. -/
theorem addressed (order : scope.Reordered scope') {entry : ScopeEntry}
    (entries : ByCount (ScopeEntry.isAddressed qualifier) scope unknown ambiguous (.ok entry)) :
    ∃ entry', SameColumns entry entry' ∧
      ByCount (ScopeEntry.isAddressed qualifier) scope' unknown ambiguous (.ok entry') := by
  obtain ⟨moved, hperm, same⟩ := order
  have hcount : moved.countP (ScopeEntry.isAddressed qualifier) =
      scope'.countP (ScopeEntry.isAddressed qualifier) := countP_isAddressed same
  cases entries.perm hperm with
  | one count among holds =>
    obtain ⟨entry', hmem, hsame⟩ := forall₂_mem_left same among
    refine ⟨entry', hsame, .one (hcount ▸ count) hmem ?_⟩
    rwa [ScopeEntry.isAddressed, ← hsame.1]

/-- What the numbers answer does not depend on the order. -/
theorem counted (order : scope.Reordered scope') {answer : Analyzed VisibleColumn}
    (counted : scope.Counted qualifier name answer) : scope'.Counted qualifier name answer := by
  cases counted with
  | bare bare columns => exact .bare bare (columns.perm order.columns)
  | refused written entries => exact .refused written (order.refused entries)
  | addressed written entries columns =>
    obtain ⟨entry', same, entries'⟩ := order.addressed entries
    exact .addressed written entries' (columns.perm same.2)

end Reordered

/-- A name is resolved by counting: without a qualifier it means the only column with this name,
    with one the only column with this name in the only table reference that the qualifier
    addresses, and none and several of either are errors. So neither the order of the table
    references nor that of their columns makes a difference. -/
theorem resolve_counts (scope : Scope) (qualifier name : String) :
    (∀ answer, scope.resolve qualifier name = answer ↔ scope.Counted qualifier name answer) ∧
      ∀ scope', scope.Reordered scope' →
        scope'.resolve qualifier name = scope.resolve qualifier name := by
  refine ⟨fun answer => ⟨?_, fun counted => counted_resolve.unique counted⟩,
    fun scope' order => counted_resolve.unique (order.counted counted_resolve)⟩
  rintro rfl
  exact counted_resolve

/-- A table and a view that shows one name twice, then both exchanged and the columns of the view
    moved: the same column is found, and the same name is ambiguous. -/
theorem resolve_counts_repeated :
    let id : VisibleColumn := ⟨"id", .int, false⟩
    let key : VisibleColumn := ⟨"ID", .string, true⟩
    let total : VisibleColumn := ⟨"total", .double, false⟩
    let scope : Scope := [⟨some "t", [id]⟩, ⟨some "v", [id, total, key]⟩]
    let scope' : Scope := [⟨some "v", [key, id, total]⟩, ⟨some "t", [id]⟩]
    scope.Reordered scope' ∧ scope'.resolve "" "Total" = .ok total ∧
      scope.resolve "V" "id" = .error (.ambiguous "id") ∧
      scope'.resolve "V" "id" = .error (.ambiguous "id") := by
  intro id key total scope scope'
  have order : scope.Reordered scope' := by
    refine ⟨[⟨some "v", [id, total, key]⟩, ⟨some "t", [id]⟩], .swap _ _ [], ?_⟩
    have hcolumns : [id, total, key].Perm [key, id, total] :=
      ((List.Perm.swap key total []).cons id).trans (.swap key id [total])
    exact .cons ⟨rfl, hcolumns⟩ (.cons ⟨rfl, .refl _⟩ .nil)
  have htotal : scope.resolve "" "Total" = .ok total := by decide +kernel
  have hid : scope.resolve "V" "id" = .error (.ambiguous "id") := by decide +kernel
  exact ⟨order, ((resolve_counts scope "" "Total").2 scope' order).trans htotal, hid,
    ((resolve_counts scope "V" "id").2 scope' order).trans hid⟩

end Scope

end SqlGuard
