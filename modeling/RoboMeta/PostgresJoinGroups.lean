/-
  The join group of a live answer.

  The group has all candidates as members and every bridge that the two queries
  return for their ids.  Nothing puts candidates without a bridge aside, and a
  bridge names its tables by `name` where a member goes by `original_name`.

  * `GroupConnected`: what a reader of a group relies on;
  * `RowsConnect`: the rows connect all tables, and name them as the candidates;
  * `joinGroups_connected`.
-/
import RoboMeta.Lib.Linked
import RoboMeta.MappedTables

namespace RoboMeta

/-! ## Connected groups -/

/-- The text is that of a column of the member. -/
def Spells (text : String) (m : TableKey) : Prop :=
  ∃ column, text = m.schemaName ++ "." ++ m.tableName ++ "." ++ column

theorem spells_iff {text : String} {m : TableKey} :
    Spells text m ↔ (m.schemaName ++ "." ++ m.tableName ++ ".").toList <+: text.toList := by
  constructor
  · rintro ⟨column, rfl⟩
    exact ⟨column.toList, by simp [String.toList_append]⟩
  · rintro ⟨column, h⟩
    refine ⟨String.ofList column, String.toList_inj.1 ?_⟩
    rw [String.toList_append, String.toList_ofList, h]

instance (text : String) (m : TableKey) : Decidable (Spells text m) := decidable_of_iff' _ spells_iff

section
variable {K : Type}

/-- The pairs of members that the bridges of a group join. -/
def JoinGroup.memberEdges (group : JoinGroup K) : List (TableKey × TableKey) :=
  (group.members.product group.members).filter fun e => ∃ b ∈ group.bridges, Spells b.from_ e.1 ∧ Spells b.to_ e.2

theorem JoinGroup.mem_memberEdges {group : JoinGroup K} {m m' : TableKey} :
    (m, m') ∈ group.memberEdges ↔ m ∈ group.members ∧ m' ∈ group.members ∧
      ∃ b ∈ group.bridges, Spells b.from_ m ∧ Spells b.to_ m' := by
  rw [JoinGroup.memberEdges, List.mem_filter, List.pair_mem_product, decide_eq_true_eq, and_assoc]

/-- Every bridge ends at members, and bridges link all members. -/
structure GroupConnected (group : JoinGroup K) : Prop where
  ends : ∀ b ∈ group.bridges, (∃ m ∈ group.members, Spells b.from_ m) ∧ ∃ m ∈ group.members, Spells b.to_ m
  linked : ∀ m ∈ group.members, ∀ m' ∈ group.members, Linked group.memberEdges m m'

end

/-! ## Rows and tables -/

/-- The key of a table as a candidate. -/
def CatalogTable.key (t : CatalogTable) : TableKey where
  db := some (t.db.getD "")
  schemaName := t.schemaName.getD ""
  tableName := ((nonempty t.originalName).or (nonempty t.name)).getD ""

section
variable {K : Type} (tables : List (ScoredTable K)) (rows : List BridgeRow)

/-- The pairs of ids that the rows join. -/
def idEdges : List (ℤ × ℤ) := rows.map fun row => (row.fromTableId, row.toTableId)

/-- There are no rows, or both ends of a row are named as their tables are among the candidates
and the rows link all tables. -/
def RowsConnect : Prop :=
  rows = [] ∨
    (∀ row ∈ rows, (∃ t ∈ tables, t.table.id = row.fromTableId ∧ Spells row.fromText t.table.key) ∧
      ∃ t ∈ tables, t.table.id = row.toTableId ∧ Spells row.toText t.table.key) ∧
    ∀ t ∈ tables, ∀ t' ∈ tables, Linked (idEdges rows) t.table.id t'.table.id

/-- No table goes by the name of another one. -/
structure NamesApart : Prop where
  from_ : ∀ row ∈ rows, ∀ t ∈ tables, Spells row.fromText t.table.key → t.table.id = row.fromTableId
  to_ : ∀ row ∈ rows, ∀ t ∈ tables, Spells row.toText t.table.key → t.table.id = row.toTableId
  key : ∀ t ∈ tables, ∀ t' ∈ tables, t.table.key = t'.table.key → t.table.id = t'.table.id

end

section
variable {K : Type} {runtime : DecisionRuntime K} {tables : List (ScoredTable K)}
  {mapped : Finset ℤ} {columns : Dict ℤ (List (ScoredColumn K))} {fkRows conventionRows : List BridgeRow}

theorem members_postgresCandidates : ((postgresCandidates mapped columns tables).map fun c => c.toTableKey) =
    tables.map fun t => t.table.key := by
  rw [postgresCandidates, List.map_map]
  rfl

/-- A convention that is left out leaves a foreign key with the same texts. -/
theorem texts_bridgesOf (runtime : DecisionRuntime K) {from_ to_ : String} :
    (∃ b ∈ bridgesOf runtime fkRows conventionRows, b.from_ = from_ ∧ b.to_ = to_) ↔
      ∃ row ∈ fkRows ++ conventionRows, row.fromText = from_ ∧ row.toText = to_ := by
  simp only [bridgesOf, List.mem_append, List.mem_map, List.mem_filter, Bool.not_eq_true',
    ← Bool.not_eq_true, List.contains_iff_mem]
  constructor
  · rintro ⟨b, ⟨row, hrow, rfl⟩ | ⟨row, ⟨hrow, -⟩, rfl⟩, htexts⟩
    · exact ⟨row, Or.inl hrow, htexts⟩
    · exact ⟨row, Or.inr hrow, htexts⟩
  · rintro ⟨row, hrow | hrow, rfl, rfl⟩
    · exact ⟨_, Or.inl ⟨row, hrow, rfl⟩, rfl, rfl⟩
    · by_cases hfk : ∃ b, (∃ row ∈ fkRows, row.bridge .fk runtime.verifiedJoinConfidence = b) ∧
          (b.from_, b.to_) = (row.fromText, row.toText)
      · obtain ⟨b, hb, htexts⟩ := hfk
        exact ⟨b, Or.inl hb, (Prod.mk.inj htexts).1, (Prod.mk.inj htexts).2⟩
      · exact ⟨_, Or.inr ⟨row, ⟨hrow, hfk⟩, rfl⟩, rfl, rfl⟩

theorem bridgesOf_eq_nil : bridgesOf runtime fkRows conventionRows = [] ↔ fkRows ++ conventionRows = [] := by
  rw [List.eq_nil_iff_forall_not_mem, List.eq_nil_iff_forall_not_mem]
  constructor
  · intro h row hrow
    obtain ⟨b, hb, -⟩ := (texts_bridgesOf runtime).2 ⟨row, hrow, rfl, rfl⟩
    exact h b hb
  · intro h b hb
    obtain ⟨row, hrow, -⟩ := (texts_bridgesOf runtime).1 ⟨b, hb, rfl, rfl⟩
    exact h row hrow

theorem joinGroupsOf_ne_nil [LinearOrder K] [Field K] (candidates : List (Candidate K))
    {bridges : List (JoinBridge K)} (h : bridges ≠ []) : joinGroupsOf candidates bridges ≠ [] := by
  rw [joinGroupsOf, if_neg h]
  exact List.cons_ne_nil _ _

section
variable [LinearOrder K] [Field K] {group : JoinGroup K}
  (hgroup : group ∈ joinGroupsOf (postgresCandidates mapped columns tables) (bridgesOf runtime fkRows conventionRows))
include hgroup

theorem mem_joinGroupsOf : group.members = (tables.map fun t => t.table.key) ∧
    group.bridges = bridgesOf runtime fkRows conventionRows ∧ fkRows ++ conventionRows ≠ [] := by
  rw [joinGroupsOf] at hgroup
  split_ifs at hgroup with hnil
  · simp at hgroup
  · rw [List.mem_singleton] at hgroup
    subst hgroup
    exact ⟨members_postgresCandidates, rfl, fun h => hnil (bridgesOf_eq_nil.2 h)⟩

theorem mem_members {t : ScoredTable K} (ht : t ∈ tables) : t.table.key ∈ group.members := by
  rw [(mem_joinGroupsOf hgroup).1]
  exact List.mem_map_of_mem ht

/-- Rows that connect the tables connect the group. -/
theorem groupConnected_of_rowsConnect (hids : (tableIds tables).Nodup)
    (h : RowsConnect tables (fkRows ++ conventionRows)) : GroupConnected group := by
  obtain ⟨hmembers, hbridges, hrows⟩ := mem_joinGroupsOf hgroup
  obtain ⟨hends, hlinked⟩ := h.resolve_left hrows
  constructor
  · intro b hb
    rw [hbridges] at hb
    obtain ⟨row, hrow, hfrom, hto⟩ := (texts_bridgesOf runtime).1 ⟨b, hb, rfl, rfl⟩
    obtain ⟨⟨t, ht, -, hspells⟩, ⟨t', ht', -, hspells'⟩⟩ := hends row hrow
    exact ⟨⟨_, mem_members hgroup ht, hfrom ▸ hspells⟩, ⟨_, mem_members hgroup ht', hto ▸ hspells'⟩⟩
  · intro m hm m' hm'
    rw [hmembers] at hm hm'
    obtain ⟨t, ht, rfl⟩ := List.mem_map.1 hm
    obtain ⟨t', ht', rfl⟩ := List.mem_map.1 hm'
    refine Linked.transfer (f := fun t => t.table.id) (g := fun t => t.table.key) ?_ ?_ ht ht' (hlinked t ht t' ht')
    · intro s hs s' hs' hid
      rw [List.inj_on_of_nodup_map hids hs hs' hid]
    · intro e he
      obtain ⟨row, hrow, rfl⟩ := List.mem_map.1 he
      obtain ⟨⟨s, hs, hid, hspells⟩, ⟨s', hs', hid', hspells'⟩⟩ := hends row hrow
      obtain ⟨b, hb, hfrom, hto⟩ := (texts_bridgesOf runtime).2 ⟨row, hrow, rfl, rfl⟩
      exact ⟨s, hs, s', hs', hid, hid', Linked.of_mem (JoinGroup.mem_memberEdges.2 ⟨mem_members hgroup hs,
        mem_members hgroup hs', b, hbridges ▸ hb, hfrom ▸ hspells, hto ▸ hspells'⟩)⟩

/-- Where names are apart, only rows that connect the tables connect the group. -/
theorem rowsConnect_of_groupConnected (happart : NamesApart tables (fkRows ++ conventionRows))
    (h : GroupConnected group) : RowsConnect tables (fkRows ++ conventionRows) := by
  obtain ⟨hmembers, hbridges, hrows⟩ := mem_joinGroupsOf hgroup
  refine Or.inr ⟨fun row hrow => ?_, fun t ht t' ht' => ?_⟩
  · obtain ⟨b, hb, hfrom, hto⟩ := (texts_bridgesOf runtime).2 ⟨row, hrow, rfl, rfl⟩
    obtain ⟨⟨m, hm, hspells⟩, ⟨m', hm', hspells'⟩⟩ := h.ends b (hbridges ▸ hb)
    rw [hmembers] at hm hm'
    obtain ⟨t, ht, rfl⟩ := List.mem_map.1 hm
    obtain ⟨t', ht', rfl⟩ := List.mem_map.1 hm'
    rw [hfrom] at hspells
    rw [hto] at hspells'
    exact ⟨⟨t, ht, happart.from_ row hrow t ht hspells, hspells⟩,
      ⟨t', ht', happart.to_ row hrow t' ht' hspells', hspells'⟩⟩
  · refine Linked.transfer (f := fun t => t.table.key) (g := fun t => t.table.id) happart.key ?_ ht ht'
      (h.linked _ (mem_members hgroup ht) _ (mem_members hgroup ht'))
    rintro ⟨m, m'⟩ he
    obtain ⟨hm, hm', b, hb, hspells, hspells'⟩ := JoinGroup.mem_memberEdges.1 he
    rw [hmembers] at hm hm'
    obtain ⟨u, hu, rfl⟩ := List.mem_map.1 hm
    obtain ⟨u', hu', rfl⟩ := List.mem_map.1 hm'
    obtain ⟨row, hrow, hfrom, hto⟩ := (texts_bridgesOf runtime).1 ⟨b, hbridges ▸ hb, rfl, rfl⟩
    refine ⟨u, hu, u', hu', rfl, rfl, ?_⟩
    rw [happart.from_ row hrow u hu (hfrom ▸ hspells), happart.to_ row hrow u' hu' (hto ▸ hspells')]
    exact Linked.of_mem (List.mem_map.2 ⟨row, hrow, rfl⟩)

end

end

/-! ## The group of an answer -/

section
variable {K : Type} [LinearOrder K] [Field K] (repository : MetadataRepository K)
  (runtime : DecisionRuntime K) (query : String) (includeMatchedColumns : Bool) (columnTopM : Option ℤ)
  (autoResolveEntities : Bool) (tableLimit : Option ℤ)

/-- The tables of the answer. -/
def answerTables : List (ScoredTable K) := rankedTables repository query (effectiveTopK runtime tableLimit)

/-- What the two queries return for the tables of the answer. -/
def answerRows : List BridgeRow :=
  repository.fkBridges (tableIds (answerTables repository runtime query tableLimit)) ++
    repository.conventionBridges (tableIds (answerTables repository runtime query tableLimit))

/-- **The group of an answer is connected** if the rows connect its tables, and only then
unless a table goes by the name of another one. -/
theorem joinGroups_connected :
    (RowsConnect (answerTables repository runtime query tableLimit)
        (answerRows repository runtime query tableLimit) →
      ∀ group ∈ (repository.decide runtime query includeMatchedColumns columnTopM autoResolveEntities
        tableLimit).joinGroups, GroupConnected group) ∧
    (NamesApart (answerTables repository runtime query tableLimit)
        (answerRows repository runtime query tableLimit) →
      (∀ group ∈ (repository.decide runtime query includeMatchedColumns columnTopM autoResolveEntities
        tableLimit).joinGroups, GroupConnected group) →
      RowsConnect (answerTables repository runtime query tableLimit)
        (answerRows repository runtime query tableLimit)) := by
  constructor
  · intro h group hgroup
    exact groupConnected_of_rowsConnect hgroup (nodup_rankedTables repository query _) h
  · intro happart h
    by_cases hrows : answerRows repository runtime query tableLimit = []
    · exact Or.inl hrows
    · have hbridges : bridgesOf runtime
          (repository.fkBridges (tableIds (answerTables repository runtime query tableLimit)))
          (repository.conventionBridges (tableIds (answerTables repository runtime query tableLimit))) ≠ [] :=
        fun hnil => hrows (bridgesOf_eq_nil.1 hnil)
      have hgroup : ∃ group, group ∈ (repository.decide runtime query includeMatchedColumns columnTopM
          autoResolveEntities tableLimit).joinGroups :=
        List.exists_mem_of_ne_nil _ (joinGroupsOf_ne_nil _ hbridges)
      obtain ⟨group, hgroup⟩ := hgroup
      exact rowsConnect_of_groupConnected hgroup happart (h group hgroup)

end

/-! ### The plant and its basin -/

def plantRuntime : DecisionRuntime ℚ where
  tableTopK := 3
  columnTopM := 10
  verifiedJoinConfidence := 1
  conventionJoinConfidence := 7 / 10

/-- The plants of `plantCatalog` where the search finds the plant only. -/
def basinRepository : MetadataRepository ℚ :=
  .ofCatalog plantCatalog .ascii (fun _ t => if t.id = 2 then some (1 / 2) else none) (fun _ t s h => by
    split_ifs at h
    cases h
    norm_num) (3 / 10)

theorem joinGroups_connected_basin :
    NamesApart (answerTables basinRepository plantRuntime "the north plant" none)
        (answerRows basinRepository plantRuntime "the north plant" none) ∧
      (basinRepository.decide plantRuntime "the north plant" true none true none).joinGroups ≠ [] ∧
      ∀ group ∈ (basinRepository.decide plantRuntime "the north plant" true none true none).joinGroups,
        GroupConnected group := by
  refine ⟨⟨by decide +kernel, by decide +kernel, by decide +kernel⟩, by decide +kernel,
    (joinGroups_connected _ _ _ _ _ _ _).1 (Or.inr ⟨by decide +kernel, ?_⟩)⟩
  have htables : tableIds (answerTables basinRepository plantRuntime "the north plant" none) = [3, 2] := by
    decide +kernel
  have hedges : idEdges (answerRows basinRepository plantRuntime "the north plant" none) = [(2, 3), (2, 3)] := by
    decide +kernel
  have hlinked : ∀ x ∈ [(3 : ℤ), 2], ∀ y ∈ [(3 : ℤ), 2], Linked [((2 : ℤ), (3 : ℤ)), (2, 3)] x y := by
    have hedge : Linked [((2 : ℤ), (3 : ℤ)), (2, 3)] 2 3 := Linked.of_mem (by simp)
    intro x hx y hy
    rcases (by simpa using hx : x = 3 ∨ x = 2) with rfl | rfl <;>
      rcases (by simpa using hy : y = 3 ∨ y = 2) with rfl | rfl
    exacts [Linked.refl _ _, hedge.symm, hedge, Linked.refl _ _]
  intro t ht t' ht'
  rw [hedges]
  exact hlinked _ (htables ▸ List.mem_map_of_mem ht) _ (htables ▸ List.mem_map_of_mem ht')

/-- The key of the dam, which no row joins. -/
def damKey : TableKey where
  db := some ""
  schemaName := "RWIS"
  tableName := "dam"

theorem not_forall_joinGroups_connected :
    ¬ ∀ (repository : MetadataRepository ℚ) (runtime : DecisionRuntime ℚ) (query : String)
      (includeMatchedColumns : Bool) (columnTopM : Option ℤ) (autoResolveEntities : Bool)
      (tableLimit : Option ℤ),
      ∀ group ∈ (repository.decide runtime query includeMatchedColumns columnTopM autoResolveEntities
        tableLimit).joinGroups, GroupConnected group := by
  intro h
  have hdam : ∃ group ∈ (plantRepository.decide plantRuntime "the north plant" true none true none).joinGroups,
      damKey ∈ group.members ∧ (∃ m ∈ group.members, m ≠ damKey) ∧
        ∀ e ∈ group.memberEdges, (e.1 = damKey ↔ e.2 = damKey) := by
    decide +kernel
  obtain ⟨group, hgroup, hmember, ⟨m, hm, hne⟩, hisolated⟩ := hdam
  have hlinked := (h _ _ _ _ _ _ _ group hgroup).linked damKey hmember m hm
  exact hne (hlinked.eq_of_isolated hisolated)

end RoboMeta
