import SqlGuard.Proofs.Catalog.KnownTypes
import SqlGuard.Proofs.Outcome
import SqlGuard.Toml.Decoder

/-!
# Types in TOML files

What a file in TOML says of the type of a column is the name of the type. Main statement:
`Toml.decoder_readsTypes`.
-/

namespace SqlGuard

open Toml (Value)

variable {v : Value}

theorem Column.exists_name_of_ofValue? {column : Column} (h : ofValue? v = some column) :
    ∃ name, DataType.ofName? name = some column.type := by
  obtain ⟨fields, -, h⟩ := Option.bind_eq_some_iff.1 h
  split at h
  · obtain ⟨name, -, h⟩ := Option.bind_eq_some_iff.1 h
    obtain ⟨type, htype, h⟩ := Option.bind_eq_some_iff.1 h
    obtain ⟨isSensitive, -, h⟩ := Option.bind_eq_some_iff.1 h
    obtain ⟨key, -, h⟩ := Option.bind_eq_some_iff.1 h
    cases h
    obtain ⟨text, -, htext⟩ := Option.bind_eq_some_iff.1 htype
    exact ⟨text, htext⟩
  · cases h

theorem Table.exists_name_of_ofValue? {table : Table} (h : ofValue? v = some table) :
    ∀ column ∈ table.columns, ∃ name, DataType.ofName? name = some column.type := by
  obtain ⟨fields, -, h⟩ := Option.bind_eq_some_iff.1 h
  split at h
  · obtain ⟨name, -, h⟩ := Option.bind_eq_some_iff.1 h
    obtain ⟨elements, -, h⟩ := Option.bind_eq_some_iff.1 h
    obtain ⟨columns, hcolumns, h⟩ := Option.bind_eq_some_iff.1 h
    cases h
    intro column hcolumn
    obtain ⟨element, -, helement⟩ := exists_of_mem_mapM? hcolumns hcolumn
    exact Column.exists_name_of_ofValue? helement
  · cases h

theorem DatabaseSection.namesTypes_of_ofValue? {entry : DatabaseSection}
    (h : ofValue? v = some entry) : entry.NamesTypes := by
  obtain ⟨fields, -, h⟩ := Option.bind_eq_some_iff.1 h
  split at h
  · obtain ⟨n, -, h⟩ := Option.bind_eq_some_iff.1 h
    obtain ⟨prime1, -, h⟩ := Option.bind_eq_some_iff.1 h
    obtain ⟨prime2, -, h⟩ := Option.bind_eq_some_iff.1 h
    obtain ⟨g, -, h⟩ := Option.bind_eq_some_iff.1 h
    obtain ⟨tables, htables, h⟩ := Option.bind_eq_some_iff.1 h
    cases h
    intro table htable
    unfold optional? at htables
    split at htables
    · cases htables
      cases htable
    · obtain ⟨elements, -, helements⟩ := Option.bind_eq_some_iff.1 htables
      obtain ⟨element, -, helement⟩ := exists_of_mem_mapM? helements htable
      exact Table.exists_name_of_ofValue? helement
  · cases h

theorem namesTypes_of_sectionsOfEntry? {databases? : Option Value}
    {sections : List (String × DatabaseSection)}
    (h : sectionsOfEntry? databases? = some sections) :
    ∀ entry ∈ sections, entry.2.NamesTypes := by
  intro entry hentry
  unfold sectionsOfEntry? optional? at h
  split at h
  · cases h
    cases hentry
  · obtain ⟨entries, -, hentries⟩ := Option.bind_eq_some_iff.1 h
    obtain ⟨⟨key, inner⟩, -, hinner⟩ := exists_of_mem_mapM? hentries hentry
    obtain ⟨decoded, hdecoded, rfl⟩ := Option.map_eq_some_iff.1 hinner
    exact DatabaseSection.namesTypes_of_ofValue? hdecoded

/-- The decoder of files in TOML reads types from texts. -/
theorem Toml.decoder_readsTypes : Toml.decoder.ReadsTypes where
  sections text sections h := by
    obtain ⟨value, -, h⟩ := Option.bind_eq_some_iff.1 h
    obtain ⟨fields, -, h⟩ := Option.bind_eq_some_iff.1 h
    split at h
    · exact namesTypes_of_sectionsOfEntry? h
    · cases h
  settings text settings h := by
    obtain ⟨value, -, h⟩ := Option.bind_eq_some_iff.1 h
    obtain ⟨fields, -, h⟩ := Option.bind_eq_some_iff.1 h
    split at h
    · obtain ⟨named, -, h⟩ := Option.bind_eq_some_iff.1 h
      obtain ⟨sections, hsections, h⟩ := Option.bind_eq_some_iff.1 h
      cases h
      exact namesTypes_of_sectionsOfEntry? hsections
    · cases h

end SqlGuard
