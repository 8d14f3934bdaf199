/-
  The resolved entities of a live answer.

  Rows of one mention and one table become one entity, whose code column is
  that of the first row.

  * `CodesAttributed`: every row gives one value of one entity, and the entity
    tells where the row is from;
  * `codesAttributed_iff`: iff rows of one mention and table are of one column.
-/
import RoboMeta.DecisionPostgres

namespace RoboMeta

/-- The entity tells where the row is from; an absent text is an empty one. -/
structure Attributed (entity : ResolvedEntity) (row : MappingRow) : Prop where
  naturalValue : row.naturalValue.getD "" = entity.mention
  db : row.db.getD "" = entity.db.getD ""
  schemaName : row.schemaName.getD "" = entity.schemaName.getD ""
  tableName : row.tableName.getD "" = entity.table
  columnName : row.columnName.getD "" = entity.codeColumn.getD ""

/-- The rows fall into one group for each entity, in order, whose values are those of the entity. -/
def CodesAttributed (mappings : List MappingRow) : Prop :=
  ∃ groups : List (List MappingRow), groups.flatten.Perm mappings ∧ (∀ rows ∈ groups, rows.Sublist mappings) ∧
    List.Forall₂ (fun entity rows => entity.values = rows.map MappingRow.value ∧
      ∀ row ∈ rows, Attributed entity row) (resolvedEntities mappings) groups

theorem nonempty_getD (s : String) : (nonempty (some s)).getD "" = s := by
  by_cases h : s = "" <;> simp [nonempty, Option.filter, h]

section
variable {mappings : List MappingRow} {entity entity' : ResolvedEntity} {row row' : MappingRow}

theorem mem_resolvedEntities : entity ∈ resolvedEntities mappings ↔
    ∃ key ∈ mappings.map MappingRow.key,
      entity = mappingEntity key (mappings.filter fun row => row.key = key) := by
  simp only [resolvedEntities, List.mem_map, Prod.exists, mem_groupBy, List.map_id]
  constructor
  · rintro ⟨key, rows, ⟨hkey, rfl⟩, rfl⟩
    exact ⟨key, hkey, rfl⟩
  · rintro ⟨key, hkey, rfl⟩
    exact ⟨key, _, ⟨hkey, rfl⟩, rfl⟩

/-- The key under which an entity was grouped. -/
theorem key_of_attributed {key : MappingKey} {rows : List MappingRow}
    (h : Attributed (mappingEntity key rows) row) : row.key = key := by
  have hdb : row.db.getD "" = key.db := h.db.trans (nonempty_getD _)
  have hschema : row.schemaName.getD "" = key.schemaName := h.schemaName.trans (nonempty_getD _)
  have hvalue : row.naturalValue.getD "" = key.naturalValue := h.naturalValue
  have htable : row.tableName.getD "" = key.tableName := h.tableName
  simp only [MappingRow.key, hdb, hschema, hvalue, htable]

theorem columnName_of_attributed (hentity : entity ∈ resolvedEntities mappings)
    (hentity' : entity' ∈ resolvedEntities mappings) (h : Attributed entity row) (h' : Attributed entity' row')
    (hkey : row.key = row'.key) : row.columnName.getD "" = row'.columnName.getD "" := by
  obtain ⟨key, -, rfl⟩ := mem_resolvedEntities.1 hentity
  obtain ⟨key', -, rfl⟩ := mem_resolvedEntities.1 hentity'
  obtain rfl : key = key' := by
    rw [← key_of_attributed h, ← key_of_attributed h', hkey]
  rw [h.columnName, h'.columnName]

theorem columnName_of_codesAttributed (h : CodesAttributed mappings) (hrow : row ∈ mappings)
    (hrow' : row' ∈ mappings) (hkey : row.key = row'.key) : row.columnName.getD "" = row'.columnName.getD "" := by
  obtain ⟨groups, hperm, -, hforall⟩ := h
  have hentity : ∀ row ∈ mappings, ∃ entity ∈ resolvedEntities mappings, Attributed entity row := by
    intro row hrow
    obtain ⟨rows, hrows, hmem⟩ := List.mem_flatten.1 (hperm.mem_iff.2 hrow)
    obtain ⟨entity, hentity, -, hgroup⟩ := exists_of_mem_right hforall hrows
    exact ⟨entity, hentity, hgroup row hmem⟩
  obtain ⟨entity, hmem, hattributed⟩ := hentity row hrow
  obtain ⟨entity', hmem', hattributed'⟩ := hentity row' hrow'
  exact columnName_of_attributed hmem hmem' hattributed hattributed' hkey

theorem attributed_mappingEntity {rows : List MappingRow} (hrow : row ∈ rows)
    (hcolumn : ∀ row' ∈ rows, row'.columnName.getD "" = row.columnName.getD "") :
    Attributed (mappingEntity row.key rows) row := by
  have hhead : (rows.head?.bind MappingRow.columnName).getD "" = row.columnName.getD "" := by
    cases rows with
    | nil => simp at hrow
    | cons first rows => exact hcolumn first List.mem_cons_self
  refine ⟨rfl, (nonempty_getD _).symm, (nonempty_getD _).symm, rfl, ?_⟩
  rw [mappingEntity, nonempty_getD, hhead]

/-- **Codes are attributed to their columns** iff rows of one mention and one table are of one column. -/
theorem codesAttributed_iff (mappings : List MappingRow) :
    CodesAttributed mappings ↔ ∀ row ∈ mappings, ∀ row' ∈ mappings, row.key = row'.key →
      row.columnName.getD "" = row'.columnName.getD "" := by
  constructor
  · exact fun h row hrow row' hrow' hkey => columnName_of_codesAttributed h hrow hrow' hkey
  · intro hcolumn
    refine ⟨(groupBy MappingRow.key id mappings).map Prod.snd, flatten_groupBy_perm _ _, ?_, ?_⟩
    · intro rows hrows
      obtain ⟨⟨key, rows⟩, hgroup, rfl⟩ := List.mem_map.1 hrows
      obtain ⟨-, rfl⟩ := (mem_groupBy _ _).1 hgroup
      rw [List.map_id]
      exact List.filter_sublist
    · rw [resolvedEntities, List.forall₂_map_left_iff, List.forall₂_map_right_iff, List.forall₂_same]
      rintro ⟨key, rows⟩ hgroup
      obtain ⟨-, rfl⟩ := (mem_groupBy _ _).1 hgroup
      refine ⟨rfl, fun row hrow => ?_⟩
      simp only [List.map_id, List.mem_filter, decide_eq_true_eq] at hrow
      obtain ⟨hrow, rfl⟩ := hrow
      refine attributed_mappingEntity (by simpa using hrow) fun row' hrow' => ?_
      simp only [List.map_id, List.mem_filter, decide_eq_true_eq] at hrow'
      exact hcolumn row' hrow'.1 row hrow hrow'.2

end

/-- A mention that is a value of two columns of its table. -/
def northRows : List MappingRow := [
  { naturalValue := some "north", codeValue := some "P1", columnName := some "plant_code",
    schemaName := some "RWIS", tableName := some "plant" },
  { naturalValue := some "north", codeValue := some "R9", columnName := some "region_code",
    schemaName := some "RWIS", tableName := some "plant" }]

theorem not_forall_codesAttributed : ¬ ∀ mappings, CodesAttributed mappings := by
  intro h
  have hcolumn := columnName_of_codesAttributed (h northRows) (List.mem_of_getElem? (i := 0) rfl)
    (List.mem_of_getElem? (i := 1) rfl) (by decide)
  exact absurd hcolumn (by decide)

end RoboMeta
