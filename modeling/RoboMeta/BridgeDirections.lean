/-
  Foreign keys and conventions between the same columns.

  A foreign key leads from its constraint's first column to the second one, a
  convention from the table with the smaller id to the other.  What `decide`
  leaves out are the conventions with the two texts of a foreign key in the same
  order.

  * `FkNotRepeated`: no convention joins what a foreign key joins;
  * `guesses_iff_shared`: the conventions reverse a foreign key if it leaves the
    table with the greater id;
  * `fkNotRepeated_iff`: nothing is repeated iff such foreign keys come with one
    in the other direction.
-/
import RoboMeta.PostgresJoinGroups

namespace RoboMeta

/-! ## Bridges -/

/-- The bridges join the same two columns, in whichever direction. -/
def JoinBridge.SameEnds {K : Type*} (b b' : JoinBridge K) : Prop :=
  b.from_ = b'.from_ ∧ b.to_ = b'.to_ ∨ b.from_ = b'.to_ ∧ b.to_ = b'.from_

/-- No convention joins two columns that a foreign key joins. -/
def FkNotRepeated {K : Type*} (bridges : List (JoinBridge K)) : Prop :=
  ∀ b ∈ bridges, b.via = .convention → ∀ fk ∈ bridges, fk.via = .fk → ¬ b.SameEnds fk

/-- A row leads from one text to another. -/
def RowFromTo (rows : List BridgeRow) (from_ to_ : String) : Prop :=
  ∃ row ∈ rows, row.fromText = from_ ∧ row.toText = to_

section
variable {K : Type} {runtime : DecisionRuntime K} {fkRows conventionRows : List BridgeRow}

variable (runtime) in
theorem exists_fk_bridge_iff (conventionRows : List BridgeRow) {from_ to_ : String} :
    (∃ b ∈ bridgesOf runtime fkRows conventionRows, b.via = .fk ∧ b.from_ = from_ ∧ b.to_ = to_) ↔
      RowFromTo fkRows from_ to_ := by
  constructor
  · rintro ⟨b, hb, hvia, htexts⟩
    rcases List.mem_append.1 hb with hb | hb
    · obtain ⟨row, hrow, rfl⟩ := List.mem_map.1 hb
      exact ⟨row, hrow, htexts⟩
    · obtain ⟨row, -, rfl⟩ := List.mem_map.1 hb
      cases hvia
  · rintro ⟨row, hrow, htexts⟩
    exact ⟨_, List.mem_append_left _ (List.mem_map_of_mem hrow), rfl, htexts⟩

variable (runtime) in
/-- What the conventions add are the rows with no foreign key in the same direction. -/
theorem exists_convention_bridge_iff {from_ to_ : String} :
    (∃ b ∈ bridgesOf runtime fkRows conventionRows, b.via = .convention ∧ b.from_ = from_ ∧ b.to_ = to_) ↔
      RowFromTo conventionRows from_ to_ ∧ ¬ RowFromTo fkRows from_ to_ := by
  have hkeys : ∀ from_ to_ : String,
      (from_, to_) ∈ (fkRows.map fun row => row.bridge .fk runtime.verifiedJoinConfidence).map
        (fun b => (b.from_, b.to_)) ↔ RowFromTo fkRows from_ to_ := fun from_ to_ => by
    rw [List.map_map, List.mem_map]
    exact exists_congr fun row => and_congr_right fun _ => Prod.mk.injEq _ _ _ _ ▸ Iff.rfl
  constructor
  · rintro ⟨b, hb, hvia, hfrom, hto⟩
    rcases List.mem_append.1 hb with hb | hb
    · obtain ⟨row, -, rfl⟩ := List.mem_map.1 hb
      cases hvia
    · obtain ⟨row, hrow, rfl⟩ := List.mem_map.1 hb
      obtain ⟨hrow, hnew⟩ := List.mem_filter.1 hrow
      refine ⟨⟨row, hrow, hfrom, hto⟩, fun hfk => ?_⟩
      rw [Bool.not_eq_true', ← Bool.not_eq_true, List.contains_iff_mem] at hnew
      exact hnew ((hkeys _ _).2 (by rwa [← hfrom, ← hto] at hfk))
  · rintro ⟨⟨row, hrow, rfl, rfl⟩, hnew⟩
    refine ⟨_, List.mem_append_right _ (List.mem_map_of_mem (List.mem_filter.2 ⟨hrow, ?_⟩)), rfl, rfl, rfl⟩
    rw [Bool.not_eq_true', ← Bool.not_eq_true, List.contains_iff_mem]
    exact fun hmem => hnew ((hkeys _ _).1 hmem)

/-- Nothing is repeated iff the conventions that reverse a foreign key are foreign keys themselves. -/
theorem fkNotRepeated_bridgesOf : FkNotRepeated (bridgesOf runtime fkRows conventionRows) ↔
    ∀ from_ to_, RowFromTo conventionRows from_ to_ → RowFromTo fkRows to_ from_ → RowFromTo fkRows from_ to_ := by
  constructor
  · intro h from_ to_ hguess hreverse
    by_contra hnew
    obtain ⟨b, hb, hconvention, rfl, rfl⟩ := (exists_convention_bridge_iff runtime).2 ⟨hguess, hnew⟩
    obtain ⟨fk, hfk, hvia, hfrom, hto⟩ := (exists_fk_bridge_iff runtime conventionRows).2 hreverse
    exact h b hb hconvention fk hfk hvia (Or.inr ⟨hto.symm, hfrom.symm⟩)
  · intro h b hb hconvention fk hfk hvia hends
    obtain ⟨hguess, hnew⟩ := (exists_convention_bridge_iff runtime).1 ⟨b, hb, hconvention, rfl, rfl⟩
    have hleads := (exists_fk_bridge_iff runtime conventionRows).1 ⟨fk, hfk, hvia, rfl, rfl⟩
    rcases hends with ⟨hfrom, hto⟩ | ⟨hfrom, hto⟩
    · exact hnew (by rwa [hfrom, hto])
    · exact hnew (h _ _ hguess (by rwa [hfrom, hto]))

end

/-! ## Rows and ids -/

namespace Catalog

section
variable {c : Catalog} {C : Collation} {ids : List ℤ} {row : BridgeRow}

theorem mem_conventionBridgeRows : row ∈ c.conventionBridgeRows C ids ↔ 2 ≤ ids.length ∧
    ∃ c₁ ∈ c.columns, ∃ c₂ ∈ c.columns, SharedColumn C c₁ c₂ ∧ c.bridgeRow ids c₁ c₂ = some row := by
  unfold conventionBridgeRows
  split_ifs with hlt
  · exact iff_of_false List.not_mem_nil fun h => not_le.2 hlt h.1
  · rw [and_iff_right (not_lt.1 hlt)]
    simp only [List.mem_flatMap, List.mem_filterMap, Option.ite_none_right_eq_some]

/-- The tables of a bridge row, and its texts. -/
theorem bridgeRow_eq_some {cFrom cTo : CatalogColumn} (h : c.bridgeRow ids cFrom cTo = some row) :
    ∃ tFrom tTo, c.table? cFrom.tableId = some tFrom ∧ c.table? cTo.tableId = some tTo ∧ tFrom.id ∈ ids ∧
      tTo.id ∈ ids ∧ row.fromText = columnText tFrom.schemaName tFrom.name cFrom.name ∧
        row.toText = columnText tTo.schemaName tTo.name cTo.name := by
  obtain ⟨tFrom, hfrom, h⟩ := Option.bind_eq_some_iff.1 h
  obtain ⟨tTo, hto, h⟩ := Option.bind_eq_some_iff.1 h
  split_ifs at h with hids
  obtain rfl := Option.some.inj h
  exact ⟨tFrom, tTo, hfrom, hto, hids.1, hids.2, rfl, rfl⟩

/-- The row of two columns the other way round. -/
theorem exists_bridgeRow_swap {cFrom cTo : CatalogColumn} (h : c.bridgeRow ids cFrom cTo = some row) :
    ∃ row', c.bridgeRow ids cTo cFrom = some row' ∧ row'.fromText = row.toText ∧ row'.toText = row.fromText := by
  obtain ⟨tFrom, tTo, hfrom, hto, hfromId, htoId, hfromText, htoText⟩ := bridgeRow_eq_some h
  refine ⟨_, Option.bind_eq_some_iff.2 ⟨tTo, hto, Option.bind_eq_some_iff.2 ⟨tFrom, hfrom, if_pos ⟨htoId, hfromId⟩⟩⟩,
    ?_, ?_⟩
  · rw [htoText]
    rfl
  · rw [hfromText]
    rfl

variable (c ids) in
/-- No two columns of the tables have one text. -/
def TextsApart : Prop :=
  ∀ c₁ ∈ c.columns, ∀ c₂ ∈ c.columns, ∀ t₁ ∈ c.table? c₁.tableId, ∀ t₂ ∈ c.table? c₂.tableId,
    t₁.id ∈ ids → t₂.id ∈ ids →
      columnText t₁.schemaName t₁.name c₁.name = columnText t₂.schemaName t₂.name c₂.name → c₁ = c₂

end

section
variable {c : Catalog} {C : Collation} {ids : List ℤ} {row : BridgeRow} {cFrom cTo : CatalogColumn}
  (hfrom : cFrom ∈ c.columns) (hto : cTo ∈ c.columns) (hrow : c.bridgeRow ids cFrom cTo = some row)
  (hids : 2 ≤ ids.length)
include hfrom hto hrow hids

/-- Columns that the conventions join from the second one to the first. -/
theorem guesses_of_shared (hshared : SharedColumn C cTo cFrom) :
    RowFromTo (c.conventionBridgeRows C ids) row.toText row.fromText := by
  obtain ⟨row', hrow', hfromText, htoText⟩ := exists_bridgeRow_swap hrow
  exact ⟨row', mem_conventionBridgeRows.2 ⟨hids, cTo, hto, cFrom, hfrom, hshared, hrow'⟩, hfromText, htoText⟩

/-- **A row is repeated the other way round** iff it leaves the table with the greater id, the columns are
like-named and one of them an identifier. -/
theorem guesses_iff_shared (hapart : c.TextsApart ids) :
    RowFromTo (c.conventionBridgeRows C ids) row.toText row.fromText ↔ SharedColumn C cTo cFrom := by
  constructor
  · rintro ⟨row', hrow', hfromText, htoText⟩
    obtain ⟨-, c₁, hc₁, c₂, hc₂, hshared, hrow'⟩ := mem_conventionBridgeRows.1 hrow'
    obtain ⟨tFrom, tTo, htFrom, htTo, htFromId, htToId, hrowFrom, hrowTo⟩ := bridgeRow_eq_some hrow
    obtain ⟨t₁, t₂, ht₁, ht₂, ht₁Id, ht₂Id, hrowFrom', hrowTo'⟩ := bridgeRow_eq_some hrow'
    rw [hrowFrom', hrowTo] at hfromText
    rw [hrowTo', hrowFrom] at htoText
    rwa [hapart c₁ hc₁ cTo hto t₁ ht₁ tTo htTo ht₁Id htToId hfromText,
      hapart c₂ hc₂ cFrom hfrom t₂ ht₂ tFrom htFrom ht₂Id htFromId htoText] at hshared
  · exact fun hshared => guesses_of_shared hfrom hto hrow hids hshared

end

end Catalog

/-! ## The bridges of an answer -/

section
variable {K : Type} [LinearOrder K] [Field K] (repository : MetadataRepository K)
  (runtime : DecisionRuntime K) (query : String) (includeMatchedColumns : Bool) (columnTopM : Option ℤ)
  (autoResolveEntities : Bool) (tableLimit : Option ℤ)

/-- The bridges of all groups, of which there is one if there are bridges. -/
theorem forall_joinGroupsOf_iff {candidates : List (Candidate K)} {bridges : List (JoinBridge K)} :
    (∀ group ∈ joinGroupsOf candidates bridges, FkNotRepeated group.bridges) ↔ FkNotRepeated bridges := by
  rw [joinGroupsOf]
  split_ifs with hnil
  · rw [hnil]
    exact iff_of_true (fun group hgroup => absurd hgroup List.not_mem_nil) fun b hb => absurd hb List.not_mem_nil
  · exact List.forall_mem_singleton

/-- **No foreign key is repeated as a convention** iff each one that the conventions reverse comes with
another one in the direction of the convention. -/
theorem fkNotRepeated_iff :
    (∀ group ∈ (repository.decide runtime query includeMatchedColumns columnTopM autoResolveEntities
      tableLimit).joinGroups, FkNotRepeated group.bridges) ↔
    ∀ from_ to_,
      RowFromTo (repository.fkBridges (tableIds (answerTables repository runtime query tableLimit))) from_ to_ →
      RowFromTo (repository.conventionBridges (tableIds (answerTables repository runtime query tableLimit))) to_ from_ →
      RowFromTo (repository.fkBridges (tableIds (answerTables repository runtime query tableLimit))) to_ from_ := by
  have hbridges : (∀ group ∈ (repository.decide runtime query includeMatchedColumns columnTopM autoResolveEntities
      tableLimit).joinGroups,
      FkNotRepeated group.bridges) ↔ _ := forall_joinGroupsOf_iff.trans fkNotRepeated_bridgesOf
  rw [hbridges]
  exact ⟨fun h from_ to_ hfk hguess => h to_ from_ hguess hfk, fun h from_ to_ hguess hfk => h to_ from_ hfk hguess⟩

end

/-! ### The plant of a basin -/

/-- The plant has the greater id, and its foreign key leads to the basin. -/
def basinCatalog : Catalog where
  tables := [
    { id := 1, schemaName := some "RWIS", name := some "basin" },
    { id := 2, schemaName := some "RWIS", name := some "plant" }]
  columns := [
    { id := 10, tableId := 1, name := "basin_code", isPrimaryKey := true },
    { id := 20, tableId := 2, name := "basin_code" }]
  valueMappings := []
  fkConstraints := [{ fromColumnId := 20, toColumnId := 10 }]
  nodup_tables := by decide
  nodup_columns := by decide

def basinTables : MetadataRepository ℚ :=
  .ofCatalog basinCatalog .ascii (fun _ _ => some (1 / 2)) (fun _ _ s h => by
    cases h
    norm_num) (3 / 10)

/-- The foreign key is there once more, as a convention from the basin to the plant. -/
theorem not_fkNotRepeated_basin :
    ¬ ∀ group ∈ (basinTables.decide plantRuntime "plants" true none true none).joinGroups,
      FkNotRepeated group.bridges := by
  have hgroup : ∃ group ∈ (basinTables.decide plantRuntime "plants" true none true none).joinGroups,
      ∃ b ∈ group.bridges, b.via = .convention ∧
        ∃ fk ∈ group.bridges, fk.via = .fk ∧ b.from_ = fk.to_ ∧ b.to_ = fk.from_ := by
    decide +kernel
  obtain ⟨group, hgroup, b, hb, hconvention, fk, hfk, hvia, hends⟩ := hgroup
  exact fun h => h group hgroup b hb hconvention fk hfk hvia (Or.inr hends)

end RoboMeta
