import Mathlib.Data.List.Induction
import SqlGuard.Catalog

/-!
# What a catalog keeps of its additions

A catalog is made by adding databases and tables, one after the other and in any order. What it
answers is then said by the additions alone: of those that belong to one name, in whatever case it
is written, the last one counts, and names keep the order in which they came up. Main statement:
`Catalog.keeps_ofAdditions`.
-/

namespace SqlGuard

/-! ### Values put under their keys -/

namespace Keyed

variable {α : Type} {key : α → String} {values : List α}

/-- The values under their keys, put one after the other. -/
def putAll (key : α → String) (values : List α) : Keyed α :=
  values.foldl (fun entries a => entries.put (key a) a) []

theorem putAll_concat (key : α → String) (values : List α) (a : α) :
    putAll key (values ++ [a]) = (putAll key values).put (key a) a := by
  rw [putAll, List.foldl_append]
  rfl

/-- The last value that belongs to a key is found under it. -/
theorem find?_putAll (key : α → String) (values : List α) (k : String) :
    (putAll key values).find? k = (values.filter fun a => key a = k).getLast? := by
  induction values using List.reverseRecOn with
  | nil => rfl
  | append_singleton values a ih =>
    rw [putAll_concat, List.filter_append]
    by_cases hk : key a = k
    · rw [← hk, isOrderedMap.find?_put_self]
      simp
    · rw [isOrderedMap.find?_put_of_ne (Ne.symm hk), ih]
      simp [hk]

theorem eraseDups_concat (ks : List String) (k : String) :
    (ks ++ [k]).eraseDups = if k ∈ ks then ks.eraseDups else ks.eraseDups ++ [k] := by
  have hnew : [k].removeAll ks = if k ∈ ks then [] else [k] := by
    by_cases hmem : k ∈ ks <;> simp [List.removeAll, hmem]
  rw [List.eraseDups_append, hnew]
  split
  · simp
  · simp [List.eraseDups_cons]

/-- The keys stand in the order in which they came up. -/
theorem keys_putAll (key : α → String) (values : List α) :
    (putAll key values).keys = (values.map key).eraseDups := by
  induction values using List.reverseRecOn with
  | nil => rfl
  | append_singleton values a ih =>
    rw [putAll_concat, isOrderedMap.keys_put, ih, List.map_append, List.map_singleton,
      eraseDups_concat]
    simp only [List.mem_eraseDups]

theorem nodup_keys_put {entries : Keyed α} (h : entries.keys.Nodup) (k : String) (a : α) :
    (entries.put k a).keys.Nodup := by
  rw [isOrderedMap.keys_put]
  split
  · exact h
  · rename_i hk
    rw [List.nodup_append]
    refine ⟨h, List.nodup_cons.2 ⟨List.not_mem_nil, List.nodup_nil⟩, ?_⟩
    rintro k' hk' _ hmem rfl
    rw [List.mem_singleton.1 hmem] at hk'
    exact hk hk'

theorem find?_of_mem {entries : Keyed α} (h : entries.keys.Nodup) {k : String} {a : α}
    (hmem : (k, a) ∈ entries) : entries.find? k = some a := by
  induction entries with
  | nil => cases hmem
  | cons entry entries ih =>
    obtain ⟨hnot, hrest⟩ := List.nodup_cons.1 h
    rcases List.mem_cons.1 hmem with rfl | hmem
    · simp [find?]
    · have hne : entry.1 ≠ k := by
        rintro rfl
        exact hnot (List.mem_map.2 ⟨_, hmem, rfl⟩)
      simp [find?, hne, ih hrest hmem]

theorem mem_put {entries : Keyed α} {k : String} {a : α} {entry : String × α}
    (h : entry ∈ entries.put k a) : entry = (k, a) ∨ entry ∈ entries := by
  induction entries with
  | nil => exact .inl (List.mem_singleton.1 h)
  | cons first rest ih =>
    rw [put] at h
    split at h
    · rename_i hk
      rw [hk] at h
      exact (List.mem_cons.1 h).imp id (List.mem_cons_of_mem _)
    · rcases List.mem_cons.1 h with rfl | h
      · exact .inr List.mem_cons_self
      · exact (ih h).imp id (List.mem_cons_of_mem _)

/-- What putting values under their keys leads to: no key twice, and each value under its own. -/
theorem putAll_entries (key : α → String) (values : List α) :
    (putAll key values).keys.Nodup ∧ ∀ entry ∈ putAll key values, entry.1 = key entry.2 := by
  induction values using List.reverseRecOn with
  | nil => exact ⟨List.nodup_nil, nofun⟩
  | append_singleton values a ih =>
    rw [putAll_concat]
    refine ⟨nodup_keys_put ih.1 _ _, fun entry hmem => ?_⟩
    rcases mem_put hmem with rfl | hmem
    · rfl
    · exact ih.2 entry hmem

theorem map_values_putAll (key : α → String) (values : List α) :
    (putAll key values).values.map key = (putAll key values).keys := by
  rw [Keyed.values, Keyed.keys, List.map_map]
  exact List.map_congr_left fun entry hmem => ((putAll_entries key values).2 entry hmem).symm

/-- Each of the values is the last one that belongs to its key. -/
theorem getLast?_of_mem_values {a : α} (h : a ∈ (putAll key values).values) :
    (values.filter fun b => key b = key a).getLast? = some a := by
  obtain ⟨nodup, own⟩ := putAll_entries key values
  obtain ⟨⟨k, b⟩, hmem, rfl⟩ := List.mem_map.1 h
  obtain rfl : k = key b := own _ hmem
  rw [← find?_putAll]
  exact find?_of_mem nodup hmem

end Keyed

/-! ### Additions -/

/-- An addition to a catalog: of a database with its parameters, or of a table. -/
inductive Catalog.Addition where
  | ofDatabase (name : String) (params : DatabaseParams)
  | ofTable (database : String) (table : Table)

namespace Catalog

namespace Addition

/-- The catalog behind the addition. -/
def apply (catalog : Catalog) : Addition → Catalog
  | ofDatabase name params => catalog.addDatabase name params
  | ofTable database table => catalog.addTable database table

/-- The name of the database that the addition is made to. -/
def target : Addition → String
  | ofDatabase name _ => name
  | ofTable database _ => database

/-- Whether the addition is made to the database with a name. -/
def isTo (name : String) (addition : Addition) : Bool :=
  Text.lower addition.target = Text.lower name

/-- The parameters that the addition gives. -/
def params? : Addition → Option DatabaseParams
  | ofDatabase _ params => some params
  | ofTable _ _ => none

/-- The table that the addition adds. -/
def table? : Addition → Option Table
  | ofDatabase _ _ => none
  | ofTable _ table => some table

/-- The database behind the addition. -/
def change (entry : Database) : Addition → Database
  | ofDatabase _ params => { entry with params }
  | ofTable _ table => { entry with tables := entry.tables.put (Text.lower table.name) table }

theorem apply_eq (catalog : Catalog) (addition : Addition) :
    addition.apply catalog =
      catalog.updateDatabase addition.target fun entry => addition.change entry := by
  cases addition <;> rfl

/-- An addition changes the database it is made to and no other. -/
theorem database?_apply (catalog : Catalog) (addition : Addition) (name : String) :
    (addition.apply catalog).database? name =
      if addition.isTo name then some (addition.change ((catalog.database? name).getD {}))
      else catalog.database? name := by
  rw [apply_eq]
  by_cases same : Text.lower addition.target = Text.lower name
  · simp only [updateDatabase, database?, isTo, same, decide_true, if_true,
      Keyed.isOrderedMap.find?_put_self]
  · simp only [updateDatabase, database?, isTo, same, decide_false, Bool.false_eq_true, if_false,
      Keyed.isOrderedMap.find?_put_of_ne (Ne.symm same)]

end Addition

/-- The catalog that additions make up, from none at all. -/
def ofAdditions (additions : List Addition) : Catalog := additions.foldl Addition.apply .empty

/-- The additions that are made to a database. -/
def additionsTo (name : String) (additions : List Addition) : List Addition :=
  additions.filter (Addition.isTo name)

/-- The parameters that a database is given, one after the other. -/
def paramsGiven (name : String) (additions : List Addition) : List DatabaseParams :=
  (additionsTo name additions).filterMap Addition.params?

/-- The tables that are added to a database, one after the other. -/
def tablesAdded (name : String) (additions : List Addition) : List Table :=
  (additionsTo name additions).filterMap Addition.table?

/-- The tables with a name among others, in any case. -/
def tablesNamed (name : String) (tables : List Table) : List Table :=
  tables.filter fun table => Text.lower table.name = Text.lower name

/-- A database is made by the additions to it, and there is none without. -/
theorem database?_ofAdditions (additions : List Addition) (name : String) :
    (ofAdditions additions).database? name =
      if additionsTo name additions = [] then none
      else some ((additionsTo name additions).foldl Addition.change {}) := by
  induction additions using List.reverseRecOn with
  | nil => rfl
  | append_singleton additions addition ih =>
    have hlast : ofAdditions (additions ++ [addition]) =
        addition.apply (ofAdditions additions) := by
      rw [ofAdditions, List.foldl_append]
      rfl
    rw [hlast, Addition.database?_apply, ih, additionsTo, additionsTo, List.filter_append]
    cases hto : addition.isTo name with
    | false => simp [hto]
    | true =>
      simp only [hto, if_true, List.filter_cons_of_pos, List.filter_nil, List.foldl_append,
        List.append_eq_nil_iff, List.cons_ne_nil, and_false, if_false]
      split
      · rename_i hnil
        simp [hnil]
      · rfl

/-- What additions to one database make of it. -/
theorem foldl_change (additions : List Addition) :
    additions.foldl Addition.change {} =
      ⟨(additions.filterMap Addition.params?).getLast?.getD {},
        Keyed.putAll (fun table => Text.lower table.name)
          (additions.filterMap Addition.table?)⟩ := by
  induction additions using List.reverseRecOn with
  | nil => rfl
  | append_singleton additions addition ih =>
    rw [List.foldl_append, List.filterMap_append, List.filterMap_append, ih]
    cases addition with
    | ofDatabase name params =>
      simp [Addition.change, Addition.params?, Addition.table?, List.filterMap_cons]
    | ofTable database table =>
      simp [Addition.change, Addition.params?, Addition.table?, Keyed.putAll_concat]

/-- The tables of a database are those that were added to it, under their names. -/
theorem tables_ofAdditions (additions : List Addition) (name : String) :
    (ofAdditions additions).tables name =
      (Keyed.putAll (fun table => Text.lower table.name) (tablesAdded name additions)).values := by
  rw [tables, database?_ofAdditions, foldl_change, tablesAdded]
  split
  · rename_i hnil
    rw [hnil]
    rfl
  · rfl

/-- What a catalog answers is what its additions say. -/
structure Keeps (catalog : Catalog) (additions : List Addition) : Prop where
  /-- A database is there if anything was added to it. Of the parameters it was given the last ones
      count; without any they are empty. -/
  params : ∀ database, catalog.params? database =
    if ∃ addition ∈ additions, Text.lower addition.target = Text.lower database then
      some ((paramsGiven database additions).getLast?.getD {})
    else none
  /-- Of the tables with one name that were added to a database, the last one counts. -/
  table : ∀ database name, catalog.table? database name =
    (tablesNamed name (tablesAdded database additions)).getLast?
  /-- Each name of a table is listed once, in the order in which the names came up. -/
  order : ∀ database, (catalog.tableNames database).map Text.lower =
    ((tablesAdded database additions).map fun table => Text.lower table.name).eraseDups
  /-- Each is spelled as the last table with that name is. -/
  spelling : ∀ database, ∀ name ∈ catalog.tableNames database,
    ∃ table, (tablesNamed name (tablesAdded database additions)).getLast? = some table ∧
      table.name = name

theorem keeps_additions (additions : List Addition) :
    (ofAdditions additions).Keeps additions where
  params database := by
    have hnil : additionsTo database additions = [] ↔
        ¬ ∃ addition ∈ additions, Text.lower addition.target = Text.lower database := by
      simp [additionsTo, Addition.isTo]
    rw [params?, database?_ofAdditions, foldl_change, paramsGiven]
    by_cases h : additionsTo database additions = []
    · rw [if_pos h, if_neg (hnil.1 h)]
      rfl
    · rw [if_neg h, if_pos (not_not.1 (mt hnil.2 h))]
      rfl
  table database name := by
    have hfind := Keyed.find?_putAll (fun table : Table => Text.lower table.name)
      (tablesAdded database additions) (Text.lower name)
    rw [tablesNamed, ← hfind, table?, database?_ofAdditions, foldl_change, tablesAdded]
    split
    · rename_i h
      rw [h]
      rfl
    · rfl
  order database := by
    rw [tableNames, tables_ofAdditions, List.map_map]
    exact (Keyed.map_values_putAll _ _).trans (Keyed.keys_putAll _ _)
  spelling database name hname := by
    rw [tableNames, tables_ofAdditions] at hname
    obtain ⟨table, hmem, rfl⟩ := List.mem_map.1 hname
    exact ⟨table, Keyed.getLast?_of_mem_values hmem, rfl⟩

/-! ### Sections -/

/-- What a section adds: its database with its parameters, then its tables. -/
def sectionAdditions (entry : String × DatabaseSection) : List Addition :=
  .ofDatabase entry.1 entry.2.params :: entry.2.tables.map (.ofTable entry.1)

/-- The sections about a database. -/
def sectionsOf (name : String) (sections : List (String × DatabaseSection)) :
    List DatabaseSection :=
  (sections.filter fun entry => Text.lower entry.1 = Text.lower name).map Prod.snd

theorem ofSections_eq (sections : List (String × DatabaseSection)) :
    ofSections sections = ofAdditions (sections.flatMap sectionAdditions) := by
  rw [ofAdditions, List.foldl_flatMap, ofSections]
  congr 1
  funext catalog entry
  rw [sectionAdditions, List.foldl_cons, List.foldl_map]
  rfl

theorem additionsTo_sections (name : String) (sections : List (String × DatabaseSection)) :
    additionsTo name (sections.flatMap sectionAdditions) =
      (sections.filter fun entry => Text.lower entry.1 = Text.lower name).flatMap
        sectionAdditions := by
  induction sections with
  | nil => rfl
  | cons entry sections ih =>
    have hentry : additionsTo name (sectionAdditions entry) =
        if Text.lower entry.1 = Text.lower name then sectionAdditions entry else [] := by
      split
      · rename_i same
        simp [additionsTo, sectionAdditions, Addition.isTo, Addition.target, same]
      · rename_i other
        simp [additionsTo, sectionAdditions, Addition.isTo, Addition.target, other]
    rw [List.flatMap_cons, additionsTo, List.filter_append, ← additionsTo, ← additionsTo, hentry,
      ih]
    by_cases same : Text.lower entry.1 = Text.lower name <;> simp [same]

theorem paramsGiven_sections (name : String) (sections : List (String × DatabaseSection)) :
    paramsGiven name (sections.flatMap sectionAdditions) =
      (sectionsOf name sections).map DatabaseSection.params := by
  rw [paramsGiven, additionsTo_sections, sectionsOf, List.filterMap_flatMap]
  induction sections.filter fun entry => Text.lower entry.1 = Text.lower name with
  | nil => rfl
  | cons entry entries ih =>
    have htables : (entry.2.tables.map (Addition.ofTable entry.1)).filterMap Addition.params? =
        [] := by
      simp [Addition.params?]
    have hentry : (sectionAdditions entry).filterMap Addition.params? = [entry.2.params] := by
      rw [sectionAdditions, List.filterMap_cons, htables]
      rfl
    rw [List.flatMap_cons, ih, hentry]
    rfl

theorem tablesAdded_sections (name : String) (sections : List (String × DatabaseSection)) :
    tablesAdded name (sections.flatMap sectionAdditions) =
      (sectionsOf name sections).flatMap DatabaseSection.tables := by
  rw [tablesAdded, additionsTo_sections, sectionsOf, List.filterMap_flatMap]
  induction sections.filter fun entry => Text.lower entry.1 = Text.lower name with
  | nil => rfl
  | cons entry entries ih =>
    have htables : (entry.2.tables.map (Addition.ofTable entry.1)).filterMap Addition.table? =
        entry.2.tables := by
      rw [List.filterMap_map]
      exact List.filterMap_some
    have hentry : (sectionAdditions entry).filterMap Addition.table? = entry.2.tables := by
      rw [sectionAdditions, List.filterMap_cons, htables]
      rfl
    rw [List.flatMap_cons, ih, hentry]
    rfl

/-- A section that is about a database adds to it, so none without. -/
theorem params?_ofSections (sections : List (String × DatabaseSection)) (database : String) :
    (ofSections sections).params? database =
      (sectionsOf database sections).getLast?.map DatabaseSection.params := by
  rw [ofSections_eq, params?, database?_ofAdditions, foldl_change, ← paramsGiven,
    paramsGiven_sections, additionsTo_sections, List.getLast?_map, sectionsOf]
  cases sections.filter fun entry => Text.lower entry.1 = Text.lower database with
  | nil => rfl
  | cons entry entries =>
    have hlast : ((entry :: entries).map Prod.snd).getLast? ≠ none := by simp
    obtain ⟨last, hlast⟩ := Option.ne_none_iff_exists'.1 hlast
    rw [hlast]
    rfl

/-- What a catalog answers is what was added to it, by names in any case: the last parameters of a
    database, the last table of each name, and the names in the order in which they came up. A
    catalog of sections is the one to which each section in turn adds its database and its tables,
    so that those about one database are united, and its parameters are those of the last. -/
theorem keeps_ofAdditions (additions : List Addition) (sections : List (String × DatabaseSection)) :
    (ofAdditions additions).Keeps additions ∧
      ofSections sections = ofAdditions (sections.flatMap sectionAdditions) ∧
      ∀ database,
        (ofSections sections).params? database =
          (sectionsOf database sections).getLast?.map DatabaseSection.params ∧
        ∀ name, (ofSections sections).table? database name =
          (tablesNamed name
            ((sectionsOf database sections).flatMap DatabaseSection.tables)).getLast? := by
  refine ⟨keeps_additions additions, ofSections_eq sections, fun database => ?_⟩
  refine ⟨params?_ofSections sections database, fun name => ?_⟩
  rw [ofSections_eq, (keeps_additions _).table, tablesAdded_sections]

end Catalog

end SqlGuard
