/-
  Where the tables of a value mapping end up in an answer.

  A mapped table that the search did not find is inserted with score 1 and comes
  first.  One that it found keeps the score of the search, although it is mapped:
  other hits, the inserted tables and the neighbours of mapped tables may stand
  before it, or push it out.

  * `gatheredTables_eq`: the list that is ranked, by its sources;
  * `outranks_*`: which of its tables stand before a mapped hit;
  * `mappedFirst_iff_unchallenged`.
-/
import Mathlib.Algebra.Order.Field.Basic
import Mathlib.Tactic.NormNum
import RoboMeta.DecisionPostgres

namespace RoboMeta

/-! ## Insertions and duplicates -/

section
variable {K : Type}

/-- Tables under one score. -/
def scoredAt (score : K) (tables : List CatalogTable) : List (ScoredTable K) :=
  tables.map (ScoredTable.mk · score)

@[simp] theorem tableIds_scoredAt (score : K) (tables : List CatalogTable) :
    tableIds (scoredAt score tables) = tables.map CatalogTable.id := by
  simp [tableIds, scoredAt]

theorem mem_scoredAt {score : K} {tables : List CatalogTable} {x : ScoredTable K} :
    x ∈ scoredAt score tables ↔ x.table ∈ tables ∧ x.score = score := by
  obtain ⟨t, s⟩ := x
  simp [scoredAt, eq_comm]

theorem nodup_of_tableIds {tables : List (ScoredTable K)} (h : (tableIds tables).Nodup) :
    tables.Nodup :=
  List.Nodup.of_map _ h

theorem insertTables_eq {i : ℕ} (score : K) (fetched : List CatalogTable) {tables : List (ScoredTable K)}
    (h : i ≤ tables.length) :
    insertTables i score fetched tables =
      tables.take i ++ ((scoredAt score fetched).reverse ++ tables.drop i) := by
  unfold insertTables scoredAt
  induction fetched generalizing tables with
  | nil => simp
  | cons t fetched ih =>
    have hlength : (tables.take i).length = i := List.length_take_of_le h
    rw [List.foldl_cons, ih (by simp [insertAt]; omega), insertAt,
      List.take_append_of_le_length hlength.ge, List.take_take, min_self,
      List.drop_append_of_le_length hlength.ge, List.drop_eq_nil_of_le hlength.le]
    simp

/-- Tables with ids of their own are kept as they are. -/
theorem deduplicated_eq [LinearOrder K] {tables : List (ScoredTable K)} (h : (tableIds tables).Nodup) :
    deduplicated tables = tables.map fun t => (t.table.id, t) := by
  unfold deduplicated
  induction tables using List.reverseRecOn with
  | nil => rfl
  | append_singleton tables t ih =>
    rw [tableIds, List.map_append, List.nodup_append] at h
    have hnot : t.table.id ∉ (tables.map fun t => (t.table.id, t)).map Prod.fst := by
      intro hmem
      rw [List.map_map] at hmem
      exact h.2.2 _ hmem _ (by simp) rfl
    have hnone : Dict.get? (tables.map fun t => (t.table.id, t)) t.table.id = none := by
      rw [← Option.not_isSome_iff_eq_none, Dict.get?_isSome]
      exact hnot
    rw [List.foldl_append, List.foldl_cons, List.foldl_nil, ih h.1, keepBest, hnone, List.map_append]
    exact Dict.set_of_notMem hnot t

end

/-! ## What the queries find -/

section
variable {K : Type} [LinearOrder K] [Field K] {repository : MetadataRepository K} {query : String} {k : ℕ}

omit [LinearOrder K] [Field K] in
theorem tableIds_filterMap_sublist (f : CatalogTable → Option K) (tables : List CatalogTable) :
    (tableIds (tables.filterMap fun t => (f t).map (ScoredTable.mk t))).Sublist
      (tables.map CatalogTable.id) := by
  induction tables with
  | nil => exact List.Sublist.slnil
  | cons t tables ih =>
    cases hf : f t with
    | none => simpa [hf] using ih.cons t.id
    | some s => simpa [hf, tableIds] using ih

theorem nodup_searchTables : (tableIds (repository.searchTables query k)).Nodup := by
  have hrows : (tableIds (repository.searchRows query)).Nodup :=
    ((repository.searchRows_perm query).map _).nodup_iff.2
      (repository.catalog.nodup_tables.sublist (tableIds_filterMap_sublist _ _))
  exact hrows.sublist ((List.take_sublist k _).map _)

theorem sorted_searchTables : (repository.searchTables query k).Pairwise fun a b => b.score ≤ a.score :=
  (repository.searchRows_sorted query).sublist (List.take_sublist k _)

theorem mem_searchTables {h : ScoredTable K} (hh : h ∈ repository.searchTables query k) :
    h.table ∈ repository.catalog.tables ∧ h.score ≤ 1 := by
  have hrow := (repository.searchRows_perm query).mem_iff.1 (List.mem_of_mem_take hh)
  obtain ⟨t, ht, hrow⟩ := List.mem_filterMap.1 hrow
  obtain ⟨s, hs, rfl⟩ := Option.map_eq_some_iff.1 hrow
  exact ⟨ht, repository.similarity_le_one query t s (Option.filter_eq_some_iff.1 hs).1⟩

theorem exists_of_mem_mappedIds {id : ℤ} (h : id ∈ mappedIds repository query) :
    ∃ t ∈ repository.catalog.tables, t.id = id := by
  simp only [mappedIds, mappedTableIds, List.mem_toFinset, List.mem_filterMap] at h
  obtain ⟨row, hrow, hid⟩ := h
  have hrow := (repository.findValueMappings_perm query).mem_iff.1 hrow
  obtain ⟨vm, -, rfl⟩ := List.mem_map.1 hrow
  obtain ⟨t, ht, rfl⟩ := Option.map_eq_some_iff.1 hid
  obtain ⟨col, -, ht⟩ := Option.bind_eq_some_iff.1 ht
  exact ⟨t, (Catalog.table?_eq_some.1 ht).1, rfl⟩

end

/-! ## The gathered tables -/

section
variable {K : Type} [LinearOrder K] [Field K] (repository : MetadataRepository K) (query : String) (k : ℕ)

/-- The mapped tables that the search misses. -/
def missedTables : List CatalogTable :=
  repository.catalog.tables.filter fun t =>
    t.id ∈ mappedIds repository query ∧ t.id ∉ tableIds (repository.searchTables query k)

/-- The neighbours of mapped tables that are neither mapped nor found. -/
def plainNeighbors : List CatalogTable :=
  repository.catalog.tables.filter fun t =>
    t.id ∈ repository.fkNeighborTableIds (mappedIds repository query) ∧
      t.id ∉ mappedIds repository query ∧ t.id ∉ tableIds (repository.searchTables query k)

theorem mappedTables_perm : (mappedTables repository query k).Perm (missedTables repository query k) := by
  refine (repository.fetchTablesByIds_perm _).trans (List.Perm.of_eq (List.filter_congr fun t _ => ?_))
  simp

theorem mappedTables_eq_nil_iff : mappedTables repository query k = [] ↔ missedTables repository query k = [] := by
  rw [← List.length_eq_zero_iff, ← List.length_eq_zero_iff, (mappedTables_perm repository query k).length_eq]

theorem tablesWithMapped_eq : tablesWithMapped repository query k =
    (scoredAt 1 (mappedTables repository query k)).reverse ++ repository.searchTables query k :=
  insertTables_eq 1 _ (Nat.zero_le _)

theorem mem_tableIds_tablesWithMapped {t : CatalogTable} (ht : t ∈ repository.catalog.tables) :
    t.id ∈ tableIds (tablesWithMapped repository query k) ↔
      t.id ∈ mappedIds repository query ∨ t.id ∈ tableIds (repository.searchTables query k) := by
  have hmem : t.id ∈ (mappedTables repository query k).map CatalogTable.id ↔
      t ∈ missedTables repository query k := by
    rw [← (mappedTables_perm repository query k).mem_iff, List.mem_map]
    constructor
    · rintro ⟨t', ht', hid⟩
      have hcatalog : t' ∈ repository.catalog.tables :=
        List.mem_of_mem_filter ((mappedTables_perm repository query k).mem_iff.1 ht')
      rwa [← Catalog.eq_of_id hcatalog ht hid]
    · exact fun ht' => ⟨t, ht', rfl⟩
  rw [tablesWithMapped_eq, tableIds, List.map_append, List.map_reverse, List.mem_append, List.mem_reverse,
    ← tableIds, ← tableIds, tableIds_scoredAt, hmem]
  simp only [missedTables, List.mem_filter, ht, true_and, decide_eq_true_eq]
  tauto

theorem neighborTables_perm : (neighborTables repository query k).Perm (plainNeighbors repository query k) := by
  refine (repository.fetchTablesByIds_perm _).trans (List.Perm.of_eq (List.filter_congr fun t ht => ?_))
  simp [mem_tableIds_tablesWithMapped repository query k ht]

/-- No table, no mapped table, no neighbour. -/
theorem neighborTables_eq_nil (h : tablesWithMapped repository query k = []) :
    neighborTables repository query k = [] := by
  have hmapped : mappedIds repository query = ∅ := by
    refine Finset.eq_empty_of_forall_notMem fun id hid => ?_
    obtain ⟨t, ht, rfl⟩ := exists_of_mem_mappedIds hid
    have hmem := (mem_tableIds_tablesWithMapped repository query k ht).2 (Or.inl hid)
    simp [h, tableIds] at hmem
  have hnone : repository.fkNeighborTableIds ∅ = ∅ := by
    simp [MetadataRepository.fkNeighborTableIds, Catalog.fkNeighborTableIds]
  refine List.Perm.eq_nil ((neighborTables_perm repository query k).trans (List.Perm.of_eq ?_))
  simp [plainNeighbors, hmapped, hnone]

theorem gatheredTables_eq : gatheredTables repository query k =
    (tablesWithMapped repository query k).take 1 ++
      ((scoredAt (99 / 100) (neighborTables repository query k)).reverse ++
        (tablesWithMapped repository query k).drop 1) := by
  by_cases h : tablesWithMapped repository query k = []
  · rw [gatheredTables, neighborTables_eq_nil repository query k h, h]
    rfl
  · exact insertTables_eq (99 / 100) _ (List.length_pos_iff.2 h)

theorem tablesWithMapped_sublist :
    (tablesWithMapped repository query k).Sublist (gatheredTables repository query k) := by
  rw [gatheredTables_eq]
  conv_lhs => rw [← List.take_append_drop 1 (tablesWithMapped repository query k)]
  exact (List.Sublist.refl _).append (List.sublist_append_right _ _)

theorem searchTables_sublist :
    (repository.searchTables query k).Sublist (gatheredTables repository query k) := by
  refine List.Sublist.trans ?_ (tablesWithMapped_sublist repository query k)
  rw [tablesWithMapped_eq]
  exact List.sublist_append_right _ _

theorem gatheredTables_perm : (gatheredTables repository query k).Perm
    (scoredAt (99 / 100) (neighborTables repository query k) ++
      (scoredAt 1 (mappedTables repository query k) ++ repository.searchTables query k)) := by
  have hwith : (tablesWithMapped repository query k).Perm
      (scoredAt 1 (mappedTables repository query k) ++ repository.searchTables query k) := by
    rw [tablesWithMapped_eq]
    exact (List.reverse_perm _).append_right _
  rw [gatheredTables_eq]
  refine (List.perm_append_comm_assoc _ _ _).trans ((List.reverse_perm _).append ?_)
  rw [List.take_append_drop]
  exact hwith

theorem nodup_gatheredTables : (tableIds (gatheredTables repository query k)).Nodup := by
  have hcatalog := repository.catalog.nodup_tables
  have hneighbor : ((neighborTables repository query k).map CatalogTable.id).Nodup :=
    ((neighborTables_perm repository query k).map _).nodup_iff.2
      (hcatalog.sublist (List.filter_sublist.map _))
  have hmapped : ((mappedTables repository query k).map CatalogTable.id).Nodup :=
    ((mappedTables_perm repository query k).map _).nodup_iff.2
      (hcatalog.sublist (List.filter_sublist.map _))
  refine ((gatheredTables_perm repository query k).map _).nodup_iff.2 ?_
  rw [List.map_append, List.map_append, ← tableIds, ← tableIds, ← tableIds, tableIds_scoredAt,
    tableIds_scoredAt]
  refine List.Nodup.append hneighbor (List.Nodup.append hmapped nodup_searchTables ?_) ?_
  · intro id hid hhit
    obtain ⟨t, ht, rfl⟩ := List.mem_map.1 hid
    have hmissed := (mappedTables_perm repository query k).mem_iff.1 ht
    simp only [missedTables, List.mem_filter, decide_eq_true_eq] at hmissed
    exact hmissed.2.2 hhit
  · intro id hid hother
    obtain ⟨t, ht, rfl⟩ := List.mem_map.1 hid
    have hplain := (neighborTables_perm repository query k).mem_iff.1 ht
    simp only [plainNeighbors, List.mem_filter, decide_eq_true_eq] at hplain
    rcases List.mem_append.1 hother with hmem | hmem
    · obtain ⟨t', ht', hid⟩ := List.mem_map.1 hmem
      have hmissed := (mappedTables_perm repository query k).mem_iff.1 ht'
      simp only [missedTables, List.mem_filter, decide_eq_true_eq] at hmissed
      exact hplain.2.2.1 (hid ▸ hmissed.2.1)
    · exact hplain.2.2.2 hmem

theorem nodup_gathered : (gatheredTables repository query k).Nodup :=
  nodup_of_tableIds (nodup_gatheredTables repository query k)

theorem rankedTables_eq :
    rankedTables repository query k = (ranked ScoredTable.score (gatheredTables repository query k)).take k := by
  have hvalues : (deduplicated (gatheredTables repository query k)).map Prod.snd =
      gatheredTables repository query k := by
    rw [deduplicated_eq (nodup_gatheredTables repository query k), List.map_map]
    exact List.map_id _
  rw [rankedTables, hvalues]

theorem nodup_rankedTables : (tableIds (rankedTables repository query k)).Nodup := by
  rw [rankedTables_eq]
  exact (((perm_ranked _ _).map _).nodup_iff.2 (nodup_gatheredTables repository query k)).sublist
    ((List.take_sublist k _).map _)

end

/-! ## What stands before a mapped hit -/

section
variable {K : Type} [LinearOrder K] [Field K] {repository : MetadataRepository K} {query : String} {k : ℕ}
  {a m : ScoredTable K}

theorem mem_gatheredTables : a ∈ gatheredTables repository query k ↔
    a ∈ scoredAt (99 / 100) (neighborTables repository query k) ∨
      a ∈ scoredAt 1 (mappedTables repository query k) ∨ a ∈ repository.searchTables query k := by
  rw [(gatheredTables_perm repository query k).mem_iff, List.mem_append, List.mem_append]

theorem eq_of_tableId (ha : a ∈ gatheredTables repository query k) (hm : m ∈ gatheredTables repository query k)
    (hid : a.table.id = m.table.id) : a = m :=
  List.inj_on_of_nodup_map (nodup_gatheredTables repository query k) ha hm hid

theorem hit_before_iff (ha : a ∈ repository.searchTables query k) (hm : m ∈ repository.searchTables query k) :
    [a, m].Sublist (gatheredTables repository query k) ↔ [a, m].Sublist (repository.searchTables query k) := by
  have hsub := searchTables_sublist repository query k
  refine ⟨fun hbefore => ?_, fun hbefore => hbefore.trans hsub⟩
  have hne : a ≠ m := by
    rintro rfl
    exact not_before_self (nodup_gathered _ _ _) hbefore
  rcases before_or ha hm hne with h | h
  · exact h
  · exact absurd (h.trans hsub) (before_asymm (nodup_gathered _ _ _) hbefore)

theorem mapped_before (ha : a ∈ scoredAt 1 (mappedTables repository query k))
    (hm : m ∈ repository.searchTables query k) : [a, m].Sublist (gatheredTables repository query k) := by
  refine List.Sublist.trans ?_ (tablesWithMapped_sublist repository query k)
  rw [tablesWithMapped_eq]
  exact (List.singleton_sublist.2 (List.mem_reverse.2 ha)).append (List.singleton_sublist.2 hm)

/-- A hit is not the first of all tables unless it is the first hit and no table was inserted. -/
theorem mem_drop_tablesWithMapped (hm : m ∈ repository.searchTables query k) :
    m ∈ (tablesWithMapped repository query k).drop 1 ↔
      ¬ (mappedTables repository query k = [] ∧ (repository.searchTables query k).head? = some m) := by
  rw [tablesWithMapped_eq]
  cases hmapped : (scoredAt (1 : K) (mappedTables repository query k)).reverse with
  | nil =>
    have hnil : mappedTables repository query k = [] := by simpa [scoredAt] using hmapped
    have hnodup : (repository.searchTables query k).Nodup := nodup_of_tableIds nodup_searchTables
    cases hhits : repository.searchTables query k with
    | nil => simp [hhits] at hm
    | cons h hits =>
      rw [hhits, List.nodup_cons] at hnodup
      rw [hhits, List.mem_cons] at hm
      simp only [List.nil_append, List.drop_one, List.tail_cons, hnil, List.head?_cons, Option.some.injEq, true_and]
      constructor
      · rintro hmem rfl
        exact hnodup.1 hmem
      · exact fun hne => hm.resolve_left (Ne.symm hne)
  | cons t rest =>
    have hne : mappedTables repository query k ≠ [] := by
      intro hnil
      simp [hnil, scoredAt] at hmapped
    simp [hne, hm]

/-- Neighbours are inserted after the first table. -/
theorem neighbor_before_iff (ha : a ∈ scoredAt (99 / 100) (neighborTables repository query k))
    (hm : m ∈ repository.searchTables query k) : [a, m].Sublist (gatheredTables repository query k) ↔
      ¬ (mappedTables repository query k = [] ∧ (repository.searchTables query k).head? = some m) := by
  rw [← mem_drop_tablesWithMapped hm, gatheredTables_eq]
  have hnodup := nodup_gathered repository query k
  rw [gatheredTables_eq] at hnodup
  have ha' := List.mem_reverse.2 ha
  constructor
  · intro hbefore
    by_contra hdrop
    have hwith : m ∈ tablesWithMapped repository query k := by
      rw [tablesWithMapped_eq]
      exact List.mem_append_right _ hm
    rw [← List.take_append_drop 1 (tablesWithMapped repository query k), List.mem_append] at hwith
    refine before_asymm hnodup hbefore ?_
    exact (List.singleton_sublist.2 (hwith.resolve_right hdrop)).append
      (List.singleton_sublist.2 (List.mem_append_left _ ha'))
  · intro hdrop
    refine List.Sublist.trans ?_ (List.sublist_append_right _ _)
    exact (List.singleton_sublist.2 ha').append (List.singleton_sublist.2 hdrop)

theorem outranks_hit_iff (ha : a ∈ repository.searchTables query k) (hm : m ∈ repository.searchTables query k) :
    Outranks ScoredTable.score (gatheredTables repository query k) a m ↔
      [a, m].Sublist (repository.searchTables query k) := by
  have hnodup : (repository.searchTables query k).Nodup := nodup_of_tableIds nodup_searchTables
  constructor
  · rintro (hlt | ⟨-, hbefore⟩)
    · have hne : a ≠ m := by
        rintro rfl
        exact lt_irrefl _ hlt
      rcases before_or ha hm hne with h | h
      · exact h
      · have hle := List.rel_of_pairwise_cons (sorted_searchTables.sublist h) List.mem_cons_self
        exact absurd hlt (not_lt.2 hle)
    · exact (hit_before_iff ha hm).1 hbefore
  · intro hbefore
    have hle := List.rel_of_pairwise_cons (sorted_searchTables.sublist hbefore) List.mem_cons_self
    rcases hle.lt_or_eq with hlt | heq
    · exact Or.inl hlt
    · exact Or.inr ⟨heq.symm, (hit_before_iff ha hm).2 hbefore⟩

theorem outranks_mapped (ha : a ∈ scoredAt 1 (mappedTables repository query k))
    (hm : m ∈ repository.searchTables query k) :
    Outranks ScoredTable.score (gatheredTables repository query k) a m := by
  have hle : m.score ≤ a.score := by
    rw [(mem_scoredAt.1 ha).2]
    exact (mem_searchTables hm).2
  rcases hle.lt_or_eq with hlt | heq
  · exact Or.inl hlt
  · exact Or.inr ⟨heq.symm, mapped_before ha hm⟩

theorem outranks_neighbor_iff (ha : a ∈ scoredAt (99 / 100) (neighborTables repository query k))
    (hm : m ∈ repository.searchTables query k) :
    Outranks ScoredTable.score (gatheredTables repository query k) a m ↔
      m.score < 99 / 100 ∨ m.score = 99 / 100 ∧
        ¬ (mappedTables repository query k = [] ∧ (repository.searchTables query k).head? = some m) := by
  rw [Outranks, neighbor_before_iff ha hm, (mem_scoredAt.1 ha).2, eq_comm]

/-- Only inserted mapped tables stand before an inserted mapped table. -/
theorem outranks_inserted [IsStrictOrderedRing K] (ha : a ∈ gatheredTables repository query k)
    (hm : m ∈ scoredAt 1 (mappedTables repository query k))
    (h : Outranks ScoredTable.score (gatheredTables repository query k) a m) :
    a ∈ scoredAt 1 (mappedTables repository query k) := by
  have hm1 : m.score = 1 := (mem_scoredAt.1 hm).2
  rcases mem_gatheredTables.1 ha with ha | ha | ha
  · have hlt : a.score < m.score := by
      rw [hm1, (mem_scoredAt.1 ha).2]
      norm_num
    rcases h with h | ⟨h, -⟩
    · exact absurd h (not_lt.2 hlt.le)
    · exact absurd h hlt.ne
  · exact ha
  · rcases h with h | ⟨-, hbefore⟩
    · rw [hm1] at h
      exact absurd h (not_lt.2 (mem_searchTables ha).2)
    · exact absurd hbefore (before_asymm (nodup_gathered _ _ _) (mapped_before hm ha))

end

/-! ## Mapped tables first -/

section
variable {K : Type} [LinearOrder K] [Field K] (repository : MetadataRepository K) (query : String) (k : ℕ)

/-- Every mapped table is in the answer, and behind no table that is neither mapped nor of score 1. -/
structure MappedFirst : Prop where
  kept : ∀ t ∈ repository.catalog.tables, t.id ∈ mappedIds repository query →
    t.id ∈ tableIds (rankedTables repository query k)
  first : ∀ a b, [a, b].Sublist (rankedTables repository query k) →
    b.table.id ∈ mappedIds repository query → a.table.id ∉ mappedIds repository query → 1 ≤ a.score

/-- What keeps a mapped hit `m` in its place, `before` being the hits before it. -/
structure Unchallenged (before : List (ScoredTable K)) (m : ScoredTable K) : Prop where
  hits : ∀ a ∈ before, a.table.id ∈ mappedIds repository query ∨ 1 ≤ a.score
  room : (missedTables repository query k).length + before.length < k
  neighbors : plainNeighbors repository query k = [] ∨ 99 / 100 < m.score ∨
    m.score = 99 / 100 ∧ missedTables repository query k = [] ∧ before = []

variable {repository query k} {a m : ScoredTable K} {before after : List (ScoredTable K)}

theorem mapped_of_mem_scoredAt (ha : a ∈ scoredAt 1 (mappedTables repository query k)) :
    a.table.id ∈ mappedIds repository query := by
  have hmissed := (mappedTables_perm repository query k).mem_iff.1 (mem_scoredAt.1 ha).1
  simp only [missedTables, List.mem_filter, decide_eq_true_eq] at hmissed
  exact hmissed.2.1

theorem not_mapped_of_mem_scoredAt (ha : a ∈ scoredAt (99 / 100) (neighborTables repository query k)) :
    a.table.id ∉ mappedIds repository query := by
  have hplain := (neighborTables_perm repository query k).mem_iff.1 (mem_scoredAt.1 ha).1
  simp only [plainNeighbors, List.mem_filter, decide_eq_true_eq] at hplain
  exact hplain.2.2.1

theorem outranks_irrefl (a : ScoredTable K) :
    ¬ Outranks ScoredTable.score (gatheredTables repository query k) a a := by
  rintro (hlt | ⟨-, hbefore⟩)
  · exact lt_irrefl _ hlt
  · exact not_before_self (nodup_gathered _ _ _) hbefore

open Classical in
theorem mem_rankedTables_iff (hm : m ∈ gatheredTables repository query k) :
    m ∈ rankedTables repository query k ↔ ((gatheredTables repository query k).filter fun a =>
      Outranks ScoredTable.score (gatheredTables repository query k) a m).length < k := by
  rw [rankedTables_eq, mem_take_ranked_iff (nodup_gathered _ _ _) hm]

theorem mem_gathered_of_ranked (hm : m ∈ rankedTables repository query k) :
    m ∈ gatheredTables repository query k := by
  rw [rankedTables_eq] at hm
  exact (perm_ranked _ _).mem_iff.1 (List.mem_of_mem_take hm)

theorem before_rankedTables_iff (ha : a ∈ gatheredTables repository query k)
    (hm : m ∈ gatheredTables repository query k) : [a, m].Sublist (rankedTables repository query k) ↔
      Outranks ScoredTable.score (gatheredTables repository query k) a m ∧
        m ∈ rankedTables repository query k := by
  rw [rankedTables_eq, before_take_iff ((perm_ranked _ _).nodup_iff.2 (nodup_gathered _ _ _)),
    before_ranked_iff (nodup_gathered _ _ _) ha hm]

/-- An inserted mapped table is never cut. -/
theorem inserted_kept [IsStrictOrderedRing K]
    (hk : (repository.catalog.tables.filter fun t => t.id ∈ mappedIds repository query).length ≤ k)
    (hm : m ∈ scoredAt 1 (mappedTables repository query k)) : m ∈ rankedTables repository query k := by
  classical
  rw [mem_rankedTables_iff (mem_gatheredTables.2 (Or.inr (Or.inl hm)))]
  have hmissed : (missedTables repository query k).length ≤ k := by
    refine (List.Sublist.length_le ?_).trans hk
    exact List.monotone_filter_right _ fun t ht => by simpa using (of_decide_eq_true ht).1
  rw [← (mappedTables_perm repository query k).length_eq, ← List.length_map (ScoredTable.mk · (1 : K))] at hmissed
  refine Nat.lt_of_lt_of_le ?_ hmissed
  have hnodup := (nodup_gathered repository query k).filter
    fun a => Outranks ScoredTable.score (gatheredTables repository query k) a m
  have hnot : m ∉ (gatheredTables repository query k).filter fun a =>
      Outranks ScoredTable.score (gatheredTables repository query k) a m := by
    simp [outranks_irrefl]
  refine List.Subperm.length_le (List.subperm_of_subset (List.nodup_cons.2 ⟨hnot, hnodup⟩) ?_)
  refine List.cons_subset.2 ⟨hm, fun a ha => ?_⟩
  rw [List.mem_filter, decide_eq_true_eq] at ha
  exact outranks_inserted ha.1 hm ha.2

section
variable (hsplit : repository.searchTables query k = before ++ m :: after)
include hsplit

theorem mem_hits_of_split : m ∈ repository.searchTables query k := by
  rw [hsplit]
  exact List.mem_append_right _ List.mem_cons_self

theorem head_hits_iff : (repository.searchTables query k).head? = some m ↔ before = [] := by
  have hnodup : (before ++ m :: after).Nodup := by
    rw [← hsplit]
    exact nodup_of_tableIds nodup_searchTables
  rw [hsplit]
  cases before with
  | nil => simp
  | cons b before =>
    have hne : b ≠ m := by
      rintro rfl
      simp at hnodup
    simp [hne]

theorem hit_before_iff_mem : [a, m].Sublist (repository.searchTables query k) ↔ a ∈ before := by
  have hnodup : (repository.searchTables query k).Nodup := nodup_of_tableIds nodup_searchTables
  rw [hsplit] at hnodup ⊢
  exact pair_sublist_iff hnodup

open Classical in
/-- Where no neighbour outranks a hit, the inserted tables and the hits before it do. -/
theorem outranking_perm
    (hneighbors : ∀ a ∈ scoredAt (99 / 100) (neighborTables repository query k),
      ¬ Outranks ScoredTable.score (gatheredTables repository query k) a m) :
    ((gatheredTables repository query k).filter fun a =>
      Outranks ScoredTable.score (gatheredTables repository query k) a m).Perm
        (scoredAt 1 (mappedTables repository query k) ++ before) := by
  have hnodup : (scoredAt 1 (mappedTables repository query k) ++ before).Nodup := by
    have hall := (gatheredTables_perm repository query k).nodup_iff.1 (nodup_gathered _ _ _)
    rw [hsplit] at hall
    exact (List.nodup_append.1 hall).2.1.sublist ((List.Sublist.refl _).append (List.sublist_append_left _ _))
  refine (List.perm_ext_iff_of_nodup ((nodup_gathered _ _ _).filter _) hnodup).2 fun a => ?_
  have hm := mem_hits_of_split hsplit
  rw [List.mem_filter, decide_eq_true_eq, List.mem_append]
  constructor
  · rintro ⟨ha, houtranks⟩
    rcases mem_gatheredTables.1 ha with ha | ha | ha
    · exact absurd houtranks (hneighbors a ha)
    · exact Or.inl ha
    · exact Or.inr ((hit_before_iff_mem hsplit).1 ((outranks_hit_iff ha hm).1 houtranks))
  · rintro (ha | ha)
    · exact ⟨mem_gatheredTables.2 (Or.inr (Or.inl ha)), outranks_mapped ha hm⟩
    · have hhit : a ∈ repository.searchTables query k := by
        rw [hsplit]
        exact List.mem_append_left _ ha
      exact ⟨mem_gatheredTables.2 (Or.inr (Or.inr hhit)),
        (outranks_hit_iff hhit hm).2 ((hit_before_iff_mem hsplit).2 ha)⟩

/-- No neighbour outranks a hit iff there is none, the hit scores more, or it is the first of all tables
and scores the same. -/
theorem no_neighbor_outranks_iff :
    (∀ a ∈ scoredAt (99 / 100) (neighborTables repository query k),
      ¬ Outranks ScoredTable.score (gatheredTables repository query k) a m) ↔
    plainNeighbors repository query k = [] ∨ 99 / 100 < m.score ∨
      m.score = 99 / 100 ∧ missedTables repository query k = [] ∧ before = [] := by
  have houtranks : ∀ a ∈ scoredAt (99 / 100) (neighborTables repository query k),
      (Outranks ScoredTable.score (gatheredTables repository query k) a m ↔
        m.score < 99 / 100 ∨ m.score = 99 / 100 ∧ ¬ (missedTables repository query k = [] ∧ before = [])) :=
    fun a ha => by
      rw [outranks_neighbor_iff ha (mem_hits_of_split hsplit), mappedTables_eq_nil_iff, head_hits_iff hsplit]
  constructor
  · intro hnone
    cases hplain : plainNeighbors repository query k with
    | nil => exact Or.inl rfl
    | cons t plain =>
      have ht : t ∈ neighborTables repository query k :=
        (neighborTables_perm repository query k).mem_iff.2 (by simp [hplain])
      have hmem : (⟨t, 99 / 100⟩ : ScoredTable K) ∈ scoredAt (99 / 100) (neighborTables repository query k) :=
        mem_scoredAt.2 ⟨ht, rfl⟩
      have hnot := hnone _ hmem
      rw [houtranks _ hmem, not_or, not_and, not_not, not_lt] at hnot
      rcases hnot.1.lt_or_eq with hlt | heq
      · exact Or.inr (Or.inl hlt)
      · exact Or.inr (Or.inr ⟨heq.symm, hnot.2 heq.symm⟩)
  · intro h a ha
    rw [houtranks a ha]
    rcases h with hnil | hlt | ⟨heq, hfirst⟩
    · have hplain := (neighborTables_perm repository query k).mem_iff.1 (mem_scoredAt.1 ha).1
      simp [hnil] at hplain
    · simp [hlt.ne', hlt.le]
    · simp [heq, hfirst]

/-- A mapped hit is kept behind mapped tables and tables of score 1 iff nothing challenges it. -/
theorem hit_kept_iff [IsStrictOrderedRing K] :
    (m ∈ rankedTables repository query k ∧ ∀ a ∈ gatheredTables repository query k,
      Outranks ScoredTable.score (gatheredTables repository query k) a m →
        a.table.id ∉ mappedIds repository query → 1 ≤ a.score) ↔
      Unchallenged repository query k before m := by
  classical
  have hm := mem_hits_of_split hsplit
  have hlength : ∀ hneighbors, m ∈ rankedTables repository query k ↔
      (missedTables repository query k).length + before.length < k := fun hneighbors => by
    rw [mem_rankedTables_iff (mem_gatheredTables.2 (Or.inr (Or.inr hm))),
      (outranking_perm hsplit hneighbors).length_eq, List.length_append, scoredAt, List.length_map,
      (mappedTables_perm repository query k).length_eq]
  constructor
  · rintro ⟨hkept, hfirst⟩
    have hneighbors : ∀ a ∈ scoredAt (99 / 100) (neighborTables repository query k),
        ¬ Outranks ScoredTable.score (gatheredTables repository query k) a m := by
      intro a ha h
      have hle := hfirst a (mem_gatheredTables.2 (Or.inl ha)) h (not_mapped_of_mem_scoredAt ha)
      rw [(mem_scoredAt.1 ha).2] at hle
      norm_num at hle
    refine ⟨fun a ha => ?_, (hlength hneighbors).1 hkept, (no_neighbor_outranks_iff hsplit).1 hneighbors⟩
    by_cases hmapped : a.table.id ∈ mappedIds repository query
    · exact Or.inl hmapped
    · have hhit : a ∈ repository.searchTables query k := by
        rw [hsplit]
        exact List.mem_append_left _ ha
      exact Or.inr (hfirst a (mem_gatheredTables.2 (Or.inr (Or.inr hhit)))
        ((outranks_hit_iff hhit hm).2 ((hit_before_iff_mem hsplit).2 ha)) hmapped)
  · intro h
    have hneighbors := (no_neighbor_outranks_iff hsplit).2 h.neighbors
    refine ⟨(hlength hneighbors).2 h.room, fun a ha houtranks hmapped => ?_⟩
    have hmem := (outranking_perm hsplit hneighbors).mem_iff.1
      (List.mem_filter.2 ⟨ha, by simpa using houtranks⟩)
    rcases List.mem_append.1 hmem with ha | ha
    · exact absurd (mapped_of_mem_scoredAt ha) hmapped
    · exact (h.hits a ha).resolve_left hmapped

end

/-- **Mapped tables come first** iff nothing challenges the mapped ones among the hits. -/
theorem mappedFirst_iff_unchallenged [IsStrictOrderedRing K]
    (hk : (repository.catalog.tables.filter fun t => t.id ∈ mappedIds repository query).length ≤ k) :
    MappedFirst repository query k ↔ ∀ before m after,
      repository.searchTables query k = before ++ m :: after → m.table.id ∈ mappedIds repository query →
        Unchallenged repository query k before m := by
  constructor
  · intro h before m after hsplit hmapped
    have hm := mem_hits_of_split hsplit
    have hgathered : m ∈ gatheredTables repository query k := mem_gatheredTables.2 (Or.inr (Or.inr hm))
    have hkept : m ∈ rankedTables repository query k := by
      obtain ⟨x, hx, hid⟩ := List.mem_map.1 (h.kept m.table (mem_searchTables hm).1 hmapped)
      rwa [← eq_of_tableId (mem_gathered_of_ranked hx) hgathered hid]
    exact (hit_kept_iff hsplit).1 ⟨hkept, fun a ha houtranks =>
      h.first a m ((before_rankedTables_iff ha hgathered).2 ⟨houtranks, hkept⟩) hmapped⟩
  · intro h
    have hhit : ∀ m ∈ repository.searchTables query k, m.table.id ∈ mappedIds repository query →
        m ∈ rankedTables repository query k ∧ ∀ a ∈ gatheredTables repository query k,
          Outranks ScoredTable.score (gatheredTables repository query k) a m →
            a.table.id ∉ mappedIds repository query → 1 ≤ a.score := by
      intro m hm hmapped
      obtain ⟨before, after, hsplit⟩ := List.append_of_mem hm
      exact (hit_kept_iff hsplit).2 (h before m after hsplit hmapped)
    constructor
    · intro t ht hmapped
      by_cases hfound : t.id ∈ tableIds (repository.searchTables query k)
      · obtain ⟨m, hm, hid⟩ := List.mem_map.1 hfound
        exact List.mem_map.2 ⟨m, (hhit m hm (hid ▸ hmapped)).1, hid⟩
      · have hmissed : t ∈ missedTables repository query k := by
          simp [missedTables, ht, hmapped, hfound]
        have hinserted := (mappedTables_perm repository query k).mem_iff.2 hmissed
        exact List.mem_map.2 ⟨⟨t, 1⟩, inserted_kept hk (mem_scoredAt.2 ⟨hinserted, rfl⟩), rfl⟩
    · intro a b hbefore hmapped hnot
      have ha := mem_gathered_of_ranked (hbefore.subset (by simp : a ∈ [a, b]))
      have hb := mem_gathered_of_ranked (hbefore.subset (by simp : b ∈ [a, b]))
      have houtranks := ((before_rankedTables_iff ha hb).1 hbefore).1
      rcases mem_gatheredTables.1 hb with hb | hb | hb
      · exact absurd hmapped (not_mapped_of_mem_scoredAt hb)
      · exact absurd (mapped_of_mem_scoredAt (outranks_inserted ha hb houtranks)) hnot
      · exact (hhit b hb hmapped).2 a ha houtranks hnot

end

/-- A plant whose name the question spells, its basin, and a dam that is more similar to the question. -/
def plantCatalog : Catalog where
  tables := [
    { id := 1, schemaName := some "RWIS", name := some "dam" },
    { id := 2, schemaName := some "RWIS", name := some "plant" },
    { id := 3, schemaName := some "RWIS", name := some "basin" }]
  columns := [
    { id := 10, tableId := 2, name := "plant_name" },
    { id := 20, tableId := 2, name := "basin_code" },
    { id := 30, tableId := 3, name := "basin_code", isPrimaryKey := true }]
  valueMappings := [
    { naturalValue := some "North plant", codeValue := some "P1", verified := true, columnId := some 10 }]
  fkConstraints := [{ fromColumnId := 20, toColumnId := 30 }]
  nodup_tables := by decide
  nodup_columns := by decide

def plantSimilarity (_ : String) (t : CatalogTable) : Option ℚ :=
  if t.id = 1 then some (9 / 10) else if t.id = 2 then some (1 / 2) else none

def plantRepository : MetadataRepository ℚ :=
  .ofCatalog plantCatalog .ascii plantSimilarity (fun _ t s h => by
    unfold plantSimilarity at h
    split_ifs at h <;> cases h <;> norm_num) (3 / 10)

theorem mappedFirst_iff_unchallenged_plant :
    MappedFirst plantRepository "turbidity at the north plant" 3 ↔ ∀ before m after,
      plantRepository.searchTables "turbidity at the north plant" 3 = before ++ m :: after →
        m.table.id ∈ mappedIds plantRepository "turbidity at the north plant" →
          Unchallenged plantRepository "turbidity at the north plant" 3 before m :=
  mappedFirst_iff_unchallenged (by decide +kernel)

theorem not_forall_mappedFirst :
    ¬ ∀ (repository : MetadataRepository ℚ) (query : String) (k : ℕ),
      (repository.catalog.tables.filter fun t => t.id ∈ mappedIds repository query).length ≤ k →
        MappedFirst repository query k := by
  intro h
  have hkept := (h plantRepository "turbidity at the north plant" 2 (by decide +kernel)).kept
  have hplant : { id := 2, schemaName := some "RWIS", name := some "plant" } ∈ plantRepository.catalog.tables := by
    decide +kernel
  exact absurd (hkept _ hplant (by decide +kernel)) (by decide +kernel)

end RoboMeta
