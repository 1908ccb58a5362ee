import SqlGuard.Config
import SqlGuard.Proofs.Catalog.History

/-!
# Types of configured columns

No text stands for the unknown type. So the types of all columns of a file are known, as a decoder
reads each of them from a text, and a catalog answers no tables but those it was given. Main
statements: `Decoder.ReadsTypes.catalog` and `Decoder.ReadsTypes.config`.
-/

namespace SqlGuard

/-- The type of each column of the table is known. -/
def Table.KnowsTypes (table : Table) : Prop := ∀ column ∈ table.columns, column.type ≠ .unknown

/-- The type of each column that statements can name is known. -/
def Schema.KnowsTypes (schema : Schema) : Prop :=
  ∀ name table, schema name = some table → table.KnowsTypes

/-! ### Names of types -/

namespace DataType

variable {type : DataType}

theorem ne_unknown_of_ofDecimalArguments? {cs : List Char}
    (h : ofDecimalArguments? cs = some type) : type ≠ .unknown := by
  unfold ofDecimalArguments? at h
  dsimp only at h
  split at h
  · cases h
    nofun
  · cases h
    nofun
  · cases h

theorem ne_unknown_of_ofName? {name : String} (h : ofName? name = some type) :
    type ≠ .unknown := by
  rw [ofName?] at h
  unfold ofLowerName? at h
  split_ifs at h
  case neg =>
    obtain ⟨arguments, -, harguments⟩ := Option.bind_eq_some_iff.1 h
    exact ne_unknown_of_ofDecimalArguments? harguments
  all_goals
    cases h
    nofun

end DataType

/-! ### Catalogs -/

/-- The type of each column of the section is one that a text stands for. -/
def DatabaseSection.NamesTypes (entry : DatabaseSection) : Prop :=
  ∀ table ∈ entry.tables, ∀ column ∈ table.columns,
    ∃ name, DataType.ofName? name = some column.type

namespace Catalog

variable {sections : List (String × DatabaseSection)}

/-- A catalog answers tables of its sections only. -/
theorem exists_section_of_table? {database name : String} {table : Table}
    (h : (ofSections sections).table? database name = some table) :
    ∃ entry ∈ sections, table ∈ entry.2.tables := by
  rw [ofSections_eq, (keeps_additions _).table, tablesAdded_sections] at h
  have added := (List.mem_filter.1 (List.mem_of_getLast? h)).1
  obtain ⟨entry, hentry, htable⟩ := List.mem_flatMap.1 added
  obtain ⟨named, hnamed, rfl⟩ := List.mem_map.1 hentry
  exact ⟨named, (List.mem_filter.1 hnamed).1, htable⟩

theorem knowsTypes_ofSections (named : ∀ entry ∈ sections, entry.2.NamesTypes)
    (database : String) : ((ofSections sections).schema database).KnowsTypes := by
  intro name table known column hcolumn
  obtain ⟨entry, hentry, htable⟩ := exists_section_of_table? known
  obtain ⟨text, htext⟩ := named entry hentry table htable column hcolumn
  exact DataType.ne_unknown_of_ofName? htext

end Catalog

/-! ### Decoders -/

/-- What is relied on of a decoder: it reads the type of each column from a text. -/
structure Decoder.ReadsTypes (decoder : Decoder) : Prop where
  sections : ∀ text sections, decoder.sections? text = some sections →
    ∀ entry ∈ sections, entry.2.NamesTypes
  settings : ∀ text settings, decoder.settings? text = some settings →
    ∀ entry ∈ settings.sections, entry.2.NamesTypes

namespace Decoder.ReadsTypes

variable {decoder : Decoder} {text : String}

/-- The columns of a catalog that a file describes have known types. -/
theorem catalog (reads : decoder.ReadsTypes) {catalog : Catalog}
    (h : decoder.catalog? text = some catalog) (database : String) :
    (catalog.schema database).KnowsTypes := by
  obtain ⟨sections, hsections, rfl⟩ := Option.map_eq_some_iff.1 h
  exact Catalog.knowsTypes_ofSections (reads.sections text sections hsections) database

/-- The same for the catalog of a configuration. -/
theorem config (reads : decoder.ReadsTypes) {config : Config}
    (h : decoder.config? text = some config) (database : String) :
    (config.catalog.schema database).KnowsTypes := by
  obtain ⟨settings, hsettings, rfl⟩ := Option.map_eq_some_iff.1 h
  exact Catalog.knowsTypes_ofSections (reads.settings text settings hsettings) database

end Decoder.ReadsTypes

end SqlGuard
