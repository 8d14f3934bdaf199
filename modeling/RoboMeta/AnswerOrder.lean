/-
  The order of the tables in a live answer, and the order of rows.

  `decide` inserts the rows of `fetch_tables_by_ids` one by one at fixed places,
  so that tables of one score stand in the reverse order of the rows; the query
  has no `ORDER BY`.

  * `rankedTables_eq_sources`: the tables of an answer, source by source;
  * `SameUpToOrder`: the same catalog and hits, rows in other orders;
  * `candidates_eq_iff`: all orders of rows give the same candidates iff tied
    tables have one name and columns that read alike, or do not fit in.
-/
import RoboMeta.PostgresJoinGroups

namespace RoboMeta

/-! ## The tables source by source -/

section
variable {K : Type} [LinearOrder K] [Field K] (repository : MetadataRepository K) (query : String) (k : ℕ)

/-- A hit that stands before the neighbours: one of a greater score, or the first of all tables. -/
def AheadOfNeighbors (m : ScoredTable K) : Prop :=
  neighborScore < m.score ∨ m.score = neighborScore ∧ missedTables repository query k = [] ∧
    (repository.searchTables query k).head? = some m

instance (m : ScoredTable K) : Decidable (AheadOfNeighbors repository query k m) :=
  inferInstanceAs (Decidable (_ ∨ _))

def hitsAhead : List (ScoredTable K) :=
  (repository.searchTables query k).filter fun m => AheadOfNeighbors repository query k m

def hitsBehind : List (ScoredTable K) :=
  (repository.searchTables query k).filter fun m => ¬ AheadOfNeighbors repository query k m

/-- The gathered tables by score. -/
def tablesBySource : List (ScoredTable K) :=
  (scoredAt 1 (mappedTables repository query k)).reverse ++ (hitsAhead repository query k ++
    ((scoredAt neighborScore (neighborTables repository query k)).reverse ++ hitsBehind repository query k))

variable {repository query k} {a m : ScoredTable K}

theorem aheadOfNeighbors_iff (ha : a ∈ scoredAt (99 / 100) (neighborTables repository query k))
    (hm : m ∈ repository.searchTables query k) :
    AheadOfNeighbors repository query k m ↔
      ¬ Outranks ScoredTable.score (gatheredTables repository query k) a m := by
  rw [outranks_neighbor_iff ha hm, mappedTables_eq_nil_iff, AheadOfNeighbors]
  rcases lt_trichotomy m.score (99 / 100) with hlt | heq | hlt
  · exact iff_of_false (fun h => h.elim hlt.asymm fun h => hlt.ne h.1) fun h => h (Or.inl hlt)
  · simp [heq]
  · simp [hlt, hlt.asymm, hlt.ne']

/-- A hit before one that is ahead is ahead itself. -/
theorem ahead_of_before (hbefore : [a, m].Sublist (repository.searchTables query k))
    (h : AheadOfNeighbors repository query k m) : AheadOfNeighbors repository query k a := by
  have hle : m.score ≤ a.score :=
    List.rel_of_pairwise_cons (sorted_searchTables.sublist hbefore) List.mem_cons_self
  rcases h with hlt | ⟨-, -, hhead⟩
  · exact Or.inl (hlt.trans_le hle)
  · -- nothing stands before the first hit
    have hnodup : (repository.searchTables query k).Nodup := nodup_of_tableIds nodup_searchTables
    obtain ⟨hits, hhits⟩ := List.head?_eq_some_iff.1 hhead
    rw [hhits, ← List.nil_append (m :: hits)] at hbefore hnodup
    exact absurd ((pair_sublist_iff hnodup).1 hbefore) List.not_mem_nil

theorem tablesBySource_perm : (tablesBySource repository query k).Perm (gatheredTables repository query k) := by
  have hsplit : (hitsAhead repository query k ++ hitsBehind repository query k).Perm
      (repository.searchTables query k) := by
    refine (List.Perm.of_eq ?_).trans (List.filter_append_perm
      (fun m => decide (AheadOfNeighbors repository query k m)) (repository.searchTables query k))
    rw [hitsAhead, hitsBehind]
    simp only [decide_not]
  refine List.Perm.trans ?_ (gatheredTables_perm repository query k).symm
  refine ((List.reverse_perm _).append ((List.perm_append_comm_assoc _ _ _).trans
    ((List.reverse_perm _).append hsplit))).trans ?_
  exact List.perm_append_comm_assoc _ _ _

theorem mapped_reverse_sublist :
    (scoredAt 1 (mappedTables repository query k)).reverse.Sublist (gatheredTables repository query k) := by
  refine List.Sublist.trans ?_ (tablesWithMapped_sublist repository query k)
  rw [tablesWithMapped_eq]
  exact List.sublist_append_left _ _

theorem neighbor_reverse_sublist :
    (scoredAt (99 / 100) (neighborTables repository query k)).reverse.Sublist (gatheredTables repository query k) := by
  rw [gatheredTables_eq]
  exact (List.sublist_append_left _ _).trans (List.sublist_append_right _ _)

/-- Tables of one score outrank each other as they stand. -/
theorem pairwise_outranks_of_sublist {score : K} {tables : List CatalogTable}
    (h : (scoredAt score tables).reverse.Sublist (gatheredTables repository query k)) :
    (scoredAt score tables).reverse.Pairwise (Outranks ScoredTable.score (gatheredTables repository query k)) := by
  refine List.pairwise_iff_forall_sublist.2 fun {a b} hab => Or.inr ⟨?_, hab.trans h⟩
  have hscore : ∀ x ∈ [a, b], x.score = score := fun x hx =>
    (mem_scoredAt.1 (List.mem_reverse.1 (hab.subset hx))).2
  rw [hscore a (by simp), hscore b (by simp)]

theorem pairwise_hits {p : ScoredTable K → Bool} : ((repository.searchTables query k).filter p).Pairwise
    (Outranks ScoredTable.score (gatheredTables repository query k)) := by
  refine List.pairwise_iff_forall_sublist.2 fun {a b} hab => ?_
  have hhits := hab.trans List.filter_sublist
  exact (outranks_hit_iff (hhits.subset (by simp)) (hhits.subset (by simp))).2 hhits

theorem outranks_of_ahead (ha : a ∈ hitsAhead repository query k) (hm : m ∈ hitsBehind repository query k) :
    Outranks ScoredTable.score (gatheredTables repository query k) a m := by
  obtain ⟨ha, hahead⟩ := List.mem_filter.1 ha
  obtain ⟨hm, hbehind⟩ := List.mem_filter.1 hm
  rw [decide_eq_true_eq] at hahead hbehind
  have hne : a ≠ m := by
    rintro rfl
    exact hbehind hahead
  refine (outranks_hit_iff ha hm).2 ((before_or ha hm hne).resolve_right fun hbefore => ?_)
  exact hbehind (ahead_of_before hbefore hahead)

theorem ahead_outranks (hm : m ∈ hitsAhead repository query k)
    (ha : a ∈ scoredAt (99 / 100) (neighborTables repository query k)) :
    Outranks ScoredTable.score (gatheredTables repository query k) m a := by
  obtain ⟨hm, hahead⟩ := List.mem_filter.1 hm
  rw [decide_eq_true_eq] at hahead
  have hnodup := (gatheredTables_perm repository query k).nodup_iff.1 (nodup_gathered _ _ _)
  have hne : m ≠ a := by
    rintro rfl
    exact List.disjoint_of_nodup_append hnodup ha (List.mem_append_right _ hm)
  exact (outranks_or (mem_gatheredTables.2 (Or.inr (Or.inr hm))) (mem_gatheredTables.2 (Or.inl ha)) hne).resolve_right
    ((aheadOfNeighbors_iff ha hm).1 hahead)

theorem pairwise_tablesBySource [IsStrictOrderedRing K] : (tablesBySource repository query k).Pairwise
    (Outranks ScoredTable.score (gatheredTables repository query k)) := by
  refine List.pairwise_append.2 ⟨pairwise_outranks_of_sublist mapped_reverse_sublist, List.pairwise_append.2
    ⟨pairwise_hits, List.pairwise_append.2 ⟨pairwise_outranks_of_sublist neighbor_reverse_sublist, pairwise_hits,
      fun a ha m hm => ?_⟩, fun m hm a ha => ?_⟩, fun a ha m hm => ?_⟩
  · -- neighbours before the hits behind them
    obtain ⟨hm, hbehind⟩ := List.mem_filter.1 hm
    rw [decide_eq_true_eq] at hbehind
    exact not_not.1 fun h => hbehind ((aheadOfNeighbors_iff (List.mem_reverse.1 ha) hm).2 h)
  · rcases List.mem_append.1 ha with ha | ha
    · exact ahead_outranks hm (List.mem_reverse.1 ha)
    · exact outranks_of_ahead hm ha
  · -- mapped tables before all others
    have ha := List.mem_reverse.1 ha
    rcases List.mem_append.1 hm with hm | hm
    · exact outranks_mapped ha (List.mem_of_mem_filter hm)
    rcases List.mem_append.1 hm with hm | hm
    · refine Or.inl ?_
      rw [(mem_scoredAt.1 ha).2, (mem_scoredAt.1 (List.mem_reverse.1 hm)).2]
      norm_num
    · exact outranks_mapped ha (List.mem_of_mem_filter hm)

variable (repository query k) in
/-- **The tables of an answer**: the mapped ones that the search missed, the hits ahead of the neighbours,
the neighbours and the other hits, cut. -/
theorem rankedTables_eq_sources [IsStrictOrderedRing K] :
    rankedTables repository query k = (tablesBySource repository query k).take k := by
  rw [rankedTables_eq, ranked_eq_of_outranks (nodup_gathered _ _ _) tablesBySource_perm pairwise_tablesBySource]

end

/-! ## Other orders -/

section
variable {K : Type} [LinearOrder K] [Field K]

/-- The two repositories differ at most in the orders of the rows that `find_value_mappings` and
`fetch_tables_by_ids` return. -/
structure SameUpToOrder (repository repository' : MetadataRepository K) : Prop where
  catalog : repository'.catalog = repository.catalog
  collation : repository'.collation = repository.collation
  similarity : repository'.similarity = repository.similarity
  minimumSimilarity : repository'.minimumSimilarity = repository.minimumSimilarity
  searchRows : repository'.searchRows = repository.searchRows
  columnSimilarity : repository'.columnSimilarity = repository.columnSimilarity
  columnRows : repository'.columnRows = repository.columnRows
  fkBridges : repository'.fkBridges = repository.fkBridges
  conventionBridges : repository'.conventionBridges = repository.conventionBridges

section
variable (mapped : Finset ℤ) (columns : ℤ → List (ScoredColumn K))

/-- The tables go by one name and have columns that read alike. -/
def Alike (tables : List CatalogTable) : Prop := ∀ t ∈ tables, ∀ t' ∈ tables,
  t.key = t'.key ∧ (columns t.id).map ScoredColumn.matched = (columns t'.id).map ScoredColumn.matched

omit [LinearOrder K] [Field K] in
theorem Alike.of_perm {columns : ℤ → List (ScoredColumn K)} {tables tables' : List CatalogTable}
    (h : Alike columns tables) (hperm : tables'.Perm tables) : Alike columns tables' :=
  fun t ht t' ht' => h t (hperm.mem_iff.1 ht) t' (hperm.mem_iff.1 ht')

/-- The candidate of a table. -/
def candidateOf (t : ScoredTable K) : Candidate K :=
  postgresCandidate t (columns t.table.id) (if t.table.id ∈ mapped then "name_rule" else "vector")

end

/-- The columns of a table that a candidate shows. -/
def shownColumns (repository : MetadataRepository K) (query : String) (includeMatchedColumns : Bool) (columnTopM : ℤ) :
    ℤ → List (ScoredColumn K) :=
  if includeMatchedColumns then repository.columnsOf query columnTopM else fun _ => []

theorem candidates_decide (repository : MetadataRepository K) (runtime : DecisionRuntime K) (query : String)
    (includeMatchedColumns : Bool) (columnTopM : Option ℤ) (autoResolveEntities : Bool) (tableLimit : Option ℤ) :
    (repository.decide runtime query includeMatchedColumns columnTopM autoResolveEntities tableLimit).candidates =
      (rankedTables repository query (effectiveTopK runtime tableLimit)).map
        (candidateOf (mappedIds repository query)
          (shownColumns repository query includeMatchedColumns (effectiveTopM runtime columnTopM))) := by
  refine List.map_congr_left fun t ht => ?_
  rw [candidateOf, shownColumns]
  cases includeMatchedColumns with
  | false => rfl
  | true =>
    rw [if_pos rfl, if_pos rfl, MetadataRepository.get?_searchColumns]
    · rfl
    · exact List.mem_map_of_mem ht

omit [LinearOrder K] [Field K] in
theorem candidateOf_eq_iff {mapped : Finset ℤ} {columns : ℤ → List (ScoredColumn K)} {t t' : CatalogTable} {score : K}
    (h : t.id ∈ mapped ↔ t'.id ∈ mapped) :
    candidateOf mapped columns ⟨t, score⟩ = candidateOf mapped columns ⟨t', score⟩ ↔
      t.key = t'.key ∧ (columns t.id).map ScoredColumn.matched = (columns t'.id).map ScoredColumn.matched := by
  have hkey : ∀ t : CatalogTable, (candidateOf mapped columns ⟨t, score⟩).toTableKey = t.key := fun t => rfl
  have hcolumns : ∀ t : CatalogTable, (candidateOf mapped columns ⟨t, score⟩).matchedColumns =
      (columns t.id).map ScoredColumn.matched := fun t => rfl
  constructor
  · intro heq
    rw [← hkey, ← hkey, ← hcolumns, ← hcolumns, heq]
    exact ⟨rfl, rfl⟩
  · rintro ⟨heq, hmatched⟩
    have hsource : (if t.id ∈ mapped then "name_rule" else "vector") =
        if t'.id ∈ mapped then "name_rule" else "vector" := if_congr h rfl rfl
    obtain ⟨hdb, hschema, hname⟩ := TableKey.mk.inj heq
    rw [candidateOf, candidateOf, postgresCandidate, postgresCandidate]
    simp only [hdb, hschema, hname, hsource, hmatched]

/-- Permuted lists of one element. -/
theorem map_eq_of_perm {α β : Type*} {f : α → β} {xs ys : List α} (h : ys.Perm xs)
    (hf : ∀ a ∈ xs, ∀ b ∈ xs, f a = f b) : ys.map f = xs.map f := by
  have hall : ∀ zs : List β, zs.Pairwise fun _ _ => True := fun zs => List.pairwise_of_forall fun _ _ => trivial
  refine List.Perm.eq_of_pairwise (fun a b ha hb _ _ => ?_) (hall _) (hall _) (h.map f)
  obtain ⟨x, hx, rfl⟩ := List.mem_map.1 ha
  obtain ⟨y, hy, rfl⟩ := List.mem_map.1 hb
  exact hf x (h.mem_iff.1 hx) y hy

variable {repository repository' : MetadataRepository K} {query : String} {columns : ℤ → List (ScoredColumn K)} {k : ℕ}

section
variable (h : SameUpToOrder repository repository')
include h

theorem SameUpToOrder.searchTables : repository'.searchTables query k = repository.searchTables query k := by
  rw [MetadataRepository.searchTables, MetadataRepository.searchTables, h.searchRows]

theorem SameUpToOrder.mappedIds : mappedIds repository' query = RoboMeta.mappedIds repository query := by
  have hperm : (repository'.findValueMappings query).Perm (repository.findValueMappings query) := by
    refine (repository'.findValueMappings_perm query).trans ?_
    rw [h.catalog, h.collation]
    exact (repository.findValueMappings_perm query).symm
  exact List.toFinset_eq_of_perm _ _ (hperm.filterMap _)

theorem SameUpToOrder.missedTables : missedTables repository' query k = RoboMeta.missedTables repository query k := by
  rw [RoboMeta.missedTables, RoboMeta.missedTables, h.catalog, h.mappedIds, h.searchTables]

theorem SameUpToOrder.plainNeighbors :
    plainNeighbors repository' query k = RoboMeta.plainNeighbors repository query k := by
  rw [RoboMeta.plainNeighbors, RoboMeta.plainNeighbors, h.catalog]
  refine List.filter_congr fun t _ => decide_eq_decide.2 ?_
  rw [MetadataRepository.fkNeighborTableIds, MetadataRepository.fkNeighborTableIds, h.catalog, h.mappedIds,
    h.searchTables]

theorem SameUpToOrder.ahead_iff {m : ScoredTable K} :
    AheadOfNeighbors repository' query k m ↔ AheadOfNeighbors repository query k m := by
  rw [AheadOfNeighbors, AheadOfNeighbors, h.missedTables, h.searchTables]

theorem SameUpToOrder.hitsAhead : hitsAhead repository' query k = RoboMeta.hitsAhead repository query k := by
  rw [RoboMeta.hitsAhead, RoboMeta.hitsAhead, h.searchTables]
  exact List.filter_congr fun m _ => decide_eq_decide.2 h.ahead_iff

theorem SameUpToOrder.hitsBehind : hitsBehind repository' query k = RoboMeta.hitsBehind repository query k := by
  rw [RoboMeta.hitsBehind, RoboMeta.hitsBehind, h.searchTables]
  exact List.filter_congr fun m _ => decide_eq_decide.2 (not_congr h.ahead_iff)

theorem SameUpToOrder.shownColumns {includeMatchedColumns : Bool} {columnTopM : ℤ} :
    shownColumns repository' query includeMatchedColumns columnTopM =
      RoboMeta.shownColumns repository query includeMatchedColumns columnTopM := by
  have hcolumns : repository'.columnsOf query columnTopM = repository.columnsOf query columnTopM := by
    funext tableId
    rw [MetadataRepository.columnsOf, MetadataRepository.columnsOf, h.columnRows]
  rw [RoboMeta.shownColumns, RoboMeta.shownColumns, hcolumns]

end

variable (repository query columns k) in
/-- The candidates, from the rows fetched of mapped tables and of neighbours. -/
def candidatesFrom (mapped neighbors : List CatalogTable) : List (Candidate K) :=
  ((mapped.map fun t => candidateOf (mappedIds repository query) columns ⟨t, 1⟩).reverse ++
    ((hitsAhead repository query k).map (candidateOf (mappedIds repository query) columns) ++
      ((neighbors.map fun t => candidateOf (mappedIds repository query) columns ⟨t, neighborScore⟩).reverse ++
        (hitsBehind repository query k).map (candidateOf (mappedIds repository query) columns)))).take k

variable (query) in
theorem candidates_eq_candidatesFrom [IsStrictOrderedRing K] (h : SameUpToOrder repository repository')
    (runtime : DecisionRuntime K) (includeMatchedColumns : Bool) (columnTopM : Option ℤ) (autoResolveEntities : Bool)
    (tableLimit : Option ℤ) :
    (repository'.decide runtime query includeMatchedColumns columnTopM autoResolveEntities tableLimit).candidates =
      candidatesFrom repository query
        (shownColumns repository query includeMatchedColumns (effectiveTopM runtime columnTopM))
        (effectiveTopK runtime tableLimit)
        (mappedTables repository' query (effectiveTopK runtime tableLimit))
        (neighborTables repository' query (effectiveTopK runtime tableLimit)) := by
  rw [candidates_decide, rankedTables_eq_sources, List.map_take, h.mappedIds, tablesBySource, h.hitsAhead, h.hitsBehind,
    h.shownColumns, candidatesFrom]
  simp only [List.map_append, List.map_reverse, scoredAt, List.map_map]
  rfl

/-- The last row fetched of the mapped tables comes first. -/
theorem candidatesFrom_head {rest neighbors : List CatalogTable} {t : CatalogTable} (hk : k ≠ 0) :
    (candidatesFrom repository query columns k (rest ++ [t]) neighbors)[0]? =
      some (candidateOf (mappedIds repository query) columns ⟨t, 1⟩) := by
  obtain ⟨k, rfl⟩ := Nat.exists_eq_succ_of_ne_zero hk
  simp [candidatesFrom]

/-- The last row fetched of the neighbours comes after the mapped tables and the hits ahead. -/
theorem candidatesFrom_neighbor {mapped rest : List CatalogTable} {t : CatalogTable}
    (hk : mapped.length + (hitsAhead repository query k).length < k) :
    (candidatesFrom repository query columns k mapped (rest ++ [t]))[mapped.length +
        (hitsAhead repository query k).length]? =
      some (candidateOf (mappedIds repository query) columns ⟨t, 99 / 100⟩) := by
  rw [candidatesFrom, List.getElem?_take_of_lt hk, List.getElem?_append_right (by simp),
    List.getElem?_append_right (by simp)]
  simp

section
variable {mapped mapped' neighbors neighbors' : List CatalogTable}

omit [LinearOrder K] [Field K] in
/-- Tables that are the same candidate may change places. -/
theorem map_candidateOf_eq {score : K} (h : mapped'.Perm mapped) {ids : Finset ℤ} (halike : Alike columns mapped)
    (hids : ∀ t ∈ mapped, ∀ t' ∈ mapped, (t.id ∈ ids ↔ t'.id ∈ ids)) :
    mapped'.map (fun t => candidateOf ids columns ⟨t, score⟩) =
      mapped.map fun t => candidateOf ids columns ⟨t, score⟩ :=
  map_eq_of_perm h fun t ht t' ht' =>
    (candidateOf_eq_iff (hids t ht t' ht')).2 (halike t ht t' ht')

theorem candidatesFrom_mapped (h : mapped'.Perm mapped) (halike : Alike columns mapped)
    (hmapped : ∀ t ∈ mapped, t.id ∈ mappedIds repository query) :
    candidatesFrom repository query columns k mapped' neighbors =
      candidatesFrom repository query columns k mapped neighbors := by
  rw [candidatesFrom, map_candidateOf_eq h halike fun t ht t' ht' => iff_of_true (hmapped t ht) (hmapped t' ht'),
    ← candidatesFrom]

theorem candidatesFrom_neighbors (h : neighbors'.Perm neighbors) (halike : Alike columns neighbors)
    (hplain : ∀ t ∈ neighbors, t.id ∉ mappedIds repository query) :
    candidatesFrom repository query columns k mapped neighbors' =
      candidatesFrom repository query columns k mapped neighbors := by
  rw [candidatesFrom, map_candidateOf_eq h halike fun t ht t' ht' => iff_of_false (hplain t ht) (hplain t' ht'),
    ← candidatesFrom]

end

/-- What is cut does not count. -/
theorem candidatesFrom_full {mapped neighbors neighbors' : List CatalogTable}
    (hk : k ≤ mapped.length + (hitsAhead repository query k).length) :
    candidatesFrom repository query columns k mapped neighbors =
      candidatesFrom repository query columns k mapped neighbors' := by
  have hlength : ∀ neighbors, candidatesFrom repository query columns k mapped neighbors =
      ((mapped.map fun t => candidateOf (mappedIds repository query) columns ⟨t, 1⟩).reverse ++
        (hitsAhead repository query k).map (candidateOf (mappedIds repository query) columns)).take k := by
    intro neighbors
    rw [candidatesFrom, ← List.append_assoc, List.take_append_of_le_length (by simpa using hk)]
  rw [hlength, hlength]

/-! ## Every order of the fetched rows -/

/-- The list with one of its elements at the end. -/
def toEnd {α : Type*} [DecidableEq α] (x : α) (xs : List α) : List α := if x ∈ xs then xs.erase x ++ [x] else xs

theorem toEnd_perm {α : Type*} [DecidableEq α] (x : α) (xs : List α) : (toEnd x xs).Perm xs := by
  unfold toEnd
  split_ifs with hx
  · exact (List.perm_append_singleton x _).trans (List.perm_cons_erase hx).symm
  · exact List.Perm.refl xs

/-- The repository that returns the row of one table last. -/
def MetadataRepository.fetchingLast (repository : MetadataRepository K) (t : CatalogTable) : MetadataRepository K :=
  { repository with
    fetchTablesByIds := fun ids => toEnd t (repository.fetchTablesByIds ids)
    fetchTablesByIds_perm := fun ids => (toEnd_perm t _).trans (repository.fetchTablesByIds_perm ids) }

theorem sameUpToOrder_fetchingLast (repository : MetadataRepository K) (t : CatalogTable) :
    SameUpToOrder repository (repository.fetchingLast t) :=
  ⟨rfl, rfl, rfl, rfl, rfl, rfl, rfl, rfl, rfl⟩

theorem exists_fetchingLast {t : CatalogTable} {ids : Finset ℤ}
    (h : t ∈ (repository.fetchingLast t).fetchTablesByIds ids) :
    ∃ rest, (repository.fetchingLast t).fetchTablesByIds ids = rest ++ [t] :=
  ⟨_, if_pos ((toEnd_perm t _).mem_iff.1 h)⟩

theorem mapped_of_missed {t : CatalogTable} (h : t ∈ missedTables repository query k) :
    t.id ∈ mappedIds repository query :=
  (of_decide_eq_true (List.mem_filter.1 h).2).1

theorem not_mapped_of_plain {t : CatalogTable} (h : t ∈ plainNeighbors repository query k) :
    t.id ∉ mappedIds repository query :=
  (of_decide_eq_true (List.mem_filter.1 h).2).2.1

variable (repository query columns k) in
/-- The mapped tables that the search missed are alike, and so are the neighbours unless those tables and the hits
ahead leave no room. -/
def TiesAlike : Prop :=
  k = 0 ∨ Alike columns (missedTables repository query k) ∧
    ((missedTables repository query k).length + (hitsAhead repository query k).length < k →
      Alike columns (plainNeighbors repository query k))

omit [LinearOrder K] [Field K] in
/-- Tables that take one place with one score, and are all mapped or all not, are alike. -/
theorem alike_of_getElem? {tables : List CatalogTable} (candidates : List (Candidate K)) (i : ℕ) (score : K)
    {ids : Finset ℤ} (hids : ∀ t ∈ tables, ∀ t' ∈ tables, (t.id ∈ ids ↔ t'.id ∈ ids))
    (h : ∀ t ∈ tables, candidates[i]? = some (candidateOf ids columns ⟨t, score⟩)) : Alike columns tables := by
  intro t ht t' ht'
  have heq := Option.some.inj ((h t ht).symm.trans (h t' ht'))
  exact (candidateOf_eq_iff (hids t ht t' ht')).1 heq

section
variable {candidates : List (Candidate K)}
  (h : ∀ repository', SameUpToOrder repository repository' →
    candidatesFrom repository query columns k (mappedTables repository' query k) (neighborTables repository' query k) =
      candidates)
include h

/-- Any of the missed mapped tables comes first in some order. -/
theorem alike_missedTables (hk : k ≠ 0) : Alike columns (missedTables repository query k) := by
  refine alike_of_getElem? candidates 0 1
    (fun t ht t' ht' => iff_of_true (mapped_of_missed ht) (mapped_of_missed ht')) fun t ht => ?_
  have horder := sameUpToOrder_fetchingLast repository t
  rw [← horder.missedTables, ← (mappedTables_perm _ _ _).mem_iff] at ht
  obtain ⟨rest, hrest⟩ := exists_fetchingLast ht
  rw [← h _ horder, mappedTables, hrest, candidatesFrom_head hk]

/-- Any of the neighbours comes behind the hits ahead in some order. -/
theorem alike_plainNeighbors
    (hroom : (missedTables repository query k).length + (hitsAhead repository query k).length < k) :
    Alike columns (plainNeighbors repository query k) := by
  refine alike_of_getElem? candidates
    ((missedTables repository query k).length + (hitsAhead repository query k).length) (99 / 100)
    (fun t ht t' ht' => iff_of_false (not_mapped_of_plain ht) (not_mapped_of_plain ht')) fun t ht => ?_
  have horder := sameUpToOrder_fetchingLast repository t
  rw [← horder.plainNeighbors, ← (neighborTables_perm _ _ _).mem_iff] at ht
  obtain ⟨rest, hrest⟩ := exists_fetchingLast ht
  have hlength := (mappedTables_perm (repository.fetchingLast t) query k).length_eq
  rw [horder.missedTables] at hlength
  rw [← hlength] at hroom
  rw [← h _ horder, neighborTables, hrest, ← hlength, candidatesFrom_neighbor hroom]

end

/-- Tables that are alike may come in any order. -/
theorem candidatesFrom_eq_of_tiesAlike (halike : TiesAlike repository query columns k)
    (h : SameUpToOrder repository repository') :
    candidatesFrom repository query columns k (mappedTables repository' query k) (neighborTables repository' query k) =
      candidatesFrom repository query columns k (mappedTables repository query k)
        (neighborTables repository query k) := by
  rcases halike with hk | ⟨hmissed, hplain⟩
  · rw [candidatesFrom, candidatesFrom, hk, List.take_zero, List.take_zero]
  have hperm := mappedTables_perm repository query k
  have hperm' := mappedTables_perm repository' query k
  rw [h.missedTables] at hperm'
  rw [candidatesFrom_mapped (hperm'.trans hperm.symm) (hmissed.of_perm hperm) fun t ht => ?_]
  · rcases lt_or_ge ((missedTables repository query k).length + (hitsAhead repository query k).length) k with
      hroom | hfull
    · have hperm := neighborTables_perm repository query k
      have hperm' := neighborTables_perm repository' query k
      rw [h.plainNeighbors] at hperm'
      exact candidatesFrom_neighbors (hperm'.trans hperm.symm) ((hplain hroom).of_perm hperm) fun t ht =>
        not_mapped_of_plain (hperm.mem_iff.1 ht)
    · exact candidatesFrom_full (by rwa [hperm.length_eq])
  · exact mapped_of_missed (hperm.mem_iff.1 ht)

variable (repository query) in
/-- **All orders of the rows give the same candidates** iff tied tables are alike. -/
theorem candidates_eq_iff [IsStrictOrderedRing K] (runtime : DecisionRuntime K) (includeMatchedColumns : Bool)
    (columnTopM : Option ℤ) (autoResolveEntities : Bool) (tableLimit : Option ℤ) :
    (∀ repository', SameUpToOrder repository repository' →
      (repository'.decide runtime query includeMatchedColumns columnTopM autoResolveEntities tableLimit).candidates =
        (repository.decide runtime query includeMatchedColumns columnTopM autoResolveEntities tableLimit).candidates) ↔
      TiesAlike repository query
        (shownColumns repository query includeMatchedColumns (effectiveTopM runtime columnTopM))
        (effectiveTopK runtime tableLimit) := by
  have hrefl : SameUpToOrder repository repository := ⟨rfl, rfl, rfl, rfl, rfl, rfl, rfl, rfl, rfl⟩
  have hfrom := fun repository' (h : SameUpToOrder repository repository') =>
    candidates_eq_candidatesFrom query h runtime includeMatchedColumns columnTopM autoResolveEntities tableLimit
  rw [hfrom repository hrefl]
  constructor
  · intro h
    have hsame := fun repository' (horder : SameUpToOrder repository repository') =>
      (hfrom repository' horder).symm.trans (h repository' horder)
    by_cases hk : effectiveTopK runtime tableLimit = 0
    · exact Or.inl hk
    · exact Or.inr ⟨alike_missedTables hsame hk, fun hroom => alike_plainNeighbors hsame hroom⟩
  · intro halike repository' horder
    exact (hfrom repository' horder).trans (candidatesFrom_eq_of_tiesAlike halike horder)

end

/-! ### Two mapped tables -/

/-- A name that is mapped to columns of two tables. -/
def twoPlants : Catalog where
  tables := [
    { id := 1, schemaName := some "RWIS", name := some "plant" },
    { id := 2, schemaName := some "RWIS", name := some "plant_log" }]
  columns := [
    { id := 10, tableId := 1, name := "plant_name" },
    { id := 20, tableId := 2, name := "plant_name" }]
  valueMappings := [
    { naturalValue := some "North plant", codeValue := some "P1", verified := true, columnId := some 10 },
    { naturalValue := some "North plant", codeValue := some "P1", verified := true, columnId := some 20 }]
  fkConstraints := []
  nodup_tables := by decide
  nodup_columns := by decide

/-- The search finds nothing. -/
def twoPlantsRepository : MetadataRepository ℚ :=
  .ofCatalog twoPlants .ascii (fun _ _ => none) (fun _ _ _ h => by cases h) (3 / 10)

theorem candidates_eq_iff_plant :
    (∀ repository', SameUpToOrder plantRepository repository' →
      (repository'.decide plantRuntime "the north plant" true none true none).candidates =
        (plantRepository.decide plantRuntime "the north plant" true none true none).candidates) ↔
      TiesAlike plantRepository "the north plant"
        (shownColumns plantRepository "the north plant" true (effectiveTopM plantRuntime none))
        (effectiveTopK plantRuntime none) :=
  candidates_eq_iff plantRepository "the north plant" plantRuntime true none true none

/-- With the rows of `fetch_tables_by_ids` in another order, another table comes first. -/
theorem not_candidates_eq_twoPlants : ¬ ∀ repository', SameUpToOrder twoPlantsRepository repository' →
    (repository'.decide plantRuntime "the north plant" true none true none).candidates =
      (twoPlantsRepository.decide plantRuntime "the north plant" true none true none).candidates := by
  intro h
  have horder := h _ (sameUpToOrder_fetchingLast twoPlantsRepository
    { id := 1, schemaName := some "RWIS", name := some "plant" })
  exact absurd horder (by decide +kernel)

/-! ### Two tables of one name -/

def twinPlants : Catalog where
  tables := [
    { id := 1, schemaName := some "RWIS", name := some "plant" },
    { id := 2, schemaName := some "RWIS", name := some "plant" }]
  columns := [
    { id := 10, tableId := 1, name := "plant_name" },
    { id := 20, tableId := 2, name := "plant_code" }]
  valueMappings := []
  fkConstraints := []
  nodup_tables := by decide
  nodup_columns := by decide

def twinPlantsRepository : MetadataRepository ℚ :=
  .ofCatalog twinPlants .ascii (fun _ _ => none) (fun _ _ _ h => by cases h) (3 / 10) fun _ _ => some (1 / 2)

example : ¬ Alike (shownColumns twinPlantsRepository "plants" true 10) twinPlants.tables := by
  unfold Alike
  decide +kernel

example : Alike (shownColumns twinPlantsRepository "plants" false 10) twinPlants.tables := by
  unfold Alike
  decide +kernel

end RoboMeta
