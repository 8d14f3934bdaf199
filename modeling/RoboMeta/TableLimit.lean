/-
  Live answers under two limits.

  The limit cuts the hits of the search and, once more, the ranked tables.  With
  a larger one the search finds more tables; these keep the score of the search
  and may fall behind the neighbours, where under the smaller limit they were
  inserted with score 1 or 0.99.

  * `place_hit`, `place_mapped`, `place_neighbor`: the place of a table, from its
    source;
  * `Fits`: what keeps a table in the answer;
  * `insertedFit_iff_lateFit`: with rows in one order, only a table that the search
    finds late may not;
  * `keepsCandidates_iff`: a larger limit loses no table iff the inserted ones fit
    in under it.
-/
import RoboMeta.AnswerOrder

namespace RoboMeta

/-! ## Places -/

theorem idxOf_map_of_injective {α β : Type*} [DecidableEq α] [DecidableEq β] {f : α → β}
    (hf : Function.Injective f) (xs : List α) (x : α) : (xs.map f).idxOf (f x) = xs.idxOf x := by
  induction xs with
  | nil => rfl
  | cons y xs ih =>
    rw [List.map_cons, List.idxOf_cons, List.idxOf_cons, ih, beq_eq_decide, beq_eq_decide]
    simp only [hf.eq_iff]

theorem filter_append_filter_not_of_pairwise {α : Type*} {p : α → Bool} {xs : List α}
    (h : xs.Pairwise fun a b => p b = true → p a = true) : xs.filter p ++ xs.filter (fun x => !p x) = xs := by
  induction xs with
  | nil => rfl
  | cons x xs ih =>
    obtain ⟨hx, hxs⟩ := List.pairwise_cons.1 h
    cases hp : p x with
    | true =>
      rw [List.filter_cons_of_pos hp, List.filter_cons_of_neg (by simp [hp]), List.cons_append, ih hxs]
    | false =>
      have hnone : ∀ y ∈ xs, p y = false := fun y hy => by
        rw [← Bool.not_eq_true]
        intro hy'
        rw [hx y hy hy'] at hp
        cases hp
      rw [List.filter_cons_of_neg (by simp [hp]), List.filter_eq_nil_iff.2 fun y hy => by simp [hnone y hy],
        List.nil_append, List.filter_eq_self.2 fun y hy => ?_]
      rcases List.mem_cons.1 hy with rfl | hy
      · simp [hp]
      · simp [hnone y hy]

section
variable {K : Type} [LinearOrder K] [Field K] {repository : MetadataRepository K} {query : String} {k : ℕ}
  {x : ScoredTable K} {t : CatalogTable}

/-- The hits ahead are the first ones. -/
theorem hitsAhead_append_hitsBehind : hitsAhead repository query k ++ hitsBehind repository query k =
    repository.searchTables query k := by
  have hpairwise : (repository.searchTables query k).Pairwise fun a m =>
      decide (AheadOfNeighbors repository query k m) = true →
        decide (AheadOfNeighbors repository query k a) = true := by
    refine List.pairwise_iff_forall_sublist.2 fun {a m} hbefore h => ?_
    exact decide_eq_true (ahead_of_before hbefore (of_decide_eq_true h))
  have hsplit := filter_append_filter_not_of_pairwise hpairwise
  rw [hitsAhead, hitsBehind]
  simpa only [decide_not] using hsplit

theorem nodup_tablesBySource : (tablesBySource repository query k).Nodup :=
  tablesBySource_perm.nodup_iff.2 (nodup_gathered _ _ _)

variable (repository query k) in
/-- The place of a table among the ranked ones. -/
def place (x : ScoredTable K) : ℕ := (tablesBySource repository query k).idxOf x

theorem mem_rankedTables_iff_place [IsStrictOrderedRing K] (hx : x ∈ gatheredTables repository query k) :
    x ∈ rankedTables repository query k ↔ place repository query k x < k := by
  rw [rankedTables_eq_sources]
  exact List.mem_take_iff_idxOf_lt (tablesBySource_perm.mem_iff.2 hx)

theorem length_mapped : (scoredAt (1 : K) (mappedTables repository query k)).reverse.length =
    (missedTables repository query k).length := by
  rw [List.length_reverse, scoredAt, List.length_map, (mappedTables_perm repository query k).length_eq]

theorem length_neighbors : (scoredAt (99 / 100 : K) (neighborTables repository query k)).reverse.length =
    (plainNeighbors repository query k).length := by
  rw [List.length_reverse, scoredAt, List.length_map, (neighborTables_perm repository query k).length_eq]

omit [Field K] in
theorem idxOf_scoredAt (score : K) (tables : List CatalogTable) (t : CatalogTable) :
    (scoredAt score tables).reverse.idxOf ⟨t, score⟩ = tables.reverse.idxOf t := by
  have hinj : Function.Injective fun t : CatalogTable => (⟨t, score⟩ : ScoredTable K) := fun t t' h =>
    congrArg ScoredTable.table h
  rw [scoredAt, ← List.map_reverse]
  exact idxOf_map_of_injective hinj tables.reverse t

theorem place_mapped (ht : t ∈ mappedTables repository query k) :
    place repository query k ⟨t, 1⟩ = (mappedTables repository query k).reverse.idxOf t := by
  have hmem : (⟨t, 1⟩ : ScoredTable K) ∈ (scoredAt 1 (mappedTables repository query k)).reverse :=
    List.mem_reverse.2 (mem_scoredAt.2 ⟨ht, rfl⟩)
  rw [place, tablesBySource, List.idxOf_append_of_mem hmem, idxOf_scoredAt]

theorem place_neighbor (ht : t ∈ neighborTables repository query k) :
    place repository query k ⟨t, 99 / 100⟩ = (missedTables repository query k).length +
      (hitsAhead repository query k).length + (neighborTables repository query k).reverse.idxOf t := by
  have hmem : (⟨t, 99 / 100⟩ : ScoredTable K) ∈ (scoredAt (99 / 100) (neighborTables repository query k)).reverse :=
    List.mem_reverse.2 (mem_scoredAt.2 ⟨ht, rfl⟩)
  have hnodup : (tablesBySource repository query k).Nodup := nodup_tablesBySource
  rw [tablesBySource] at hnodup
  have hmapped := List.disjoint_of_nodup_append hnodup
  have hahead := List.disjoint_of_nodup_append (List.nodup_append.1 hnodup).2.1
  rw [place, tablesBySource,
    List.idxOf_append_of_notMem fun h => hmapped h (List.mem_append_right _ (List.mem_append_left _ hmem)),
    List.idxOf_append_of_notMem fun h => hahead h (List.mem_append_left _ hmem), List.idxOf_append_of_mem hmem,
    idxOf_scoredAt, length_mapped, Nat.add_assoc]

/-- A hit comes after the mapped tables, the hits before it and, unless it is ahead, the neighbours. -/
theorem place_hit (hx : x ∈ repository.searchTables query k) :
    place repository query k x = (missedTables repository query k).length +
      (if AheadOfNeighbors repository query k x then 0 else (plainNeighbors repository query k).length) +
        (repository.searchTables query k).idxOf x := by
  have hnodup : (tablesBySource repository query k).Nodup := nodup_tablesBySource
  rw [tablesBySource] at hnodup
  have hmapped := List.disjoint_of_nodup_append hnodup
  have hother := (List.nodup_append.1 hnodup).2.1
  have hahead := List.disjoint_of_nodup_append hother
  have hneighbors := List.disjoint_of_nodup_append (List.nodup_append.1 hother).2.1
  rw [place, tablesBySource, ← hitsAhead_append_hitsBehind]
  rw [← hitsAhead_append_hitsBehind, List.mem_append] at hx
  rcases hx with hx | hx
  · rw [if_pos (of_decide_eq_true (List.mem_filter.1 hx).2),
      List.idxOf_append_of_notMem fun h => hmapped h (List.mem_append_left _ hx), List.idxOf_append_of_mem hx,
      List.idxOf_append_of_mem hx, length_mapped, Nat.add_zero]
  · have hrest : x ∈ (scoredAt (99 / 100) (neighborTables repository query k)).reverse ++
        hitsBehind repository query k := List.mem_append_right _ hx
    rw [if_neg (of_decide_eq_true (List.mem_filter.1 hx).2),
      List.idxOf_append_of_notMem fun h => hmapped h (List.mem_append_right _ hrest),
      List.idxOf_append_of_notMem fun h => hahead h hrest, List.idxOf_append_of_notMem fun h => hneighbors h hx,
      List.idxOf_append_of_notMem fun h => hahead h hrest, length_mapped, length_neighbors]
    omega

end

/-! ## Tables that fit in -/

section
variable {K : Type} [LinearOrder K] [Field K] (repository : MetadataRepository K) (query : String) (k : ℕ)

/-- The table, wherever it comes from, has a place among the first `k`. -/
structure Fits (t : CatalogTable) : Prop where
  hit : ∀ x ∈ repository.searchTables query k, x.table = t →
    (missedTables repository query k).length +
      (if AheadOfNeighbors repository query k x then 0 else (plainNeighbors repository query k).length) +
        (repository.searchTables query k).idxOf x < k
  mapped : t ∈ mappedTables repository query k → (mappedTables repository query k).reverse.idxOf t < k
  neighbor : t ∈ neighborTables repository query k → (missedTables repository query k).length +
    (hitsAhead repository query k).length + (neighborTables repository query k).reverse.idxOf t < k

variable {repository query k} {x : ScoredTable K} {t : CatalogTable}

theorem fits_iff_place (hx : x ∈ gatheredTables repository query k) :
    Fits repository query k x.table ↔ place repository query k x < k := by
  constructor
  · intro h
    rcases mem_gatheredTables.1 hx with hx | hx | hx
    · obtain ⟨t, score⟩ := x
      obtain ⟨ht, rfl⟩ := mem_scoredAt.1 hx
      rw [place_neighbor ht]
      exact h.neighbor ht
    · obtain ⟨t, score⟩ := x
      obtain ⟨ht, rfl⟩ := mem_scoredAt.1 hx
      rw [place_mapped ht]
      exact h.mapped ht
    · rw [place_hit hx]
      exact h.hit x hx rfl
  · intro h
    -- a table is gathered once
    have hone : ∀ y ∈ gatheredTables repository query k, y.table = x.table → place repository query k y < k :=
      fun y hy htable => by rwa [eq_of_tableId hy hx (congrArg CatalogTable.id htable)]
    constructor
    · intro y hy htable
      have hplace := hone y (mem_gatheredTables.2 (Or.inr (Or.inr hy))) htable
      rwa [place_hit hy] at hplace
    · intro ht
      have hplace := hone ⟨x.table, 1⟩ (mem_gatheredTables.2 (Or.inr (Or.inl (mem_scoredAt.2 ⟨ht, rfl⟩)))) rfl
      rwa [place_mapped ht] at hplace
    · intro ht
      have hplace := hone ⟨x.table, 99 / 100⟩ (mem_gatheredTables.2 (Or.inl (mem_scoredAt.2 ⟨ht, rfl⟩))) rfl
      rwa [place_neighbor ht] at hplace

theorem id_mem_rankedTables_iff [IsStrictOrderedRing K] (hx : x ∈ gatheredTables repository query k) :
    x.table.id ∈ tableIds (rankedTables repository query k) ↔ Fits repository query k x.table := by
  rw [fits_iff_place hx, ← mem_rankedTables_iff_place hx]
  constructor
  · intro hid
    obtain ⟨y, hy, hid⟩ := List.mem_map.1 hid
    rwa [← eq_of_tableId (mem_gathered_of_ranked hy) hx hid]
  · exact fun hx => List.mem_map.2 ⟨x, hx, rfl⟩

theorem mem_catalog_of_gathered (hx : x ∈ gatheredTables repository query k) : x.table ∈ repository.catalog.tables := by
  rcases mem_gatheredTables.1 hx with hx | hx | hx
  · exact List.mem_of_mem_filter ((neighborTables_perm _ _ _).mem_iff.1 (mem_scoredAt.1 hx).1)
  · exact List.mem_of_mem_filter ((mappedTables_perm _ _ _).mem_iff.1 (mem_scoredAt.1 hx).1)
  · exact (mem_searchTables hx).1

theorem gathered_of_mapped (ht : t ∈ repository.catalog.tables) (hmapped : t.id ∈ mappedIds repository query) :
    ∃ x ∈ gatheredTables repository query k, x.table = t := by
  by_cases hfound : t.id ∈ tableIds (repository.searchTables query k)
  · obtain ⟨x, hx, hid⟩ := List.mem_map.1 hfound
    exact ⟨x, mem_gatheredTables.2 (Or.inr (Or.inr hx)), Catalog.eq_of_id (mem_searchTables hx).1 ht hid⟩
  · have hmissed : t ∈ missedTables repository query k :=
      List.mem_filter.2 ⟨ht, decide_eq_true ⟨hmapped, hfound⟩⟩
    exact ⟨⟨t, 1⟩, mem_gatheredTables.2 (Or.inr (Or.inl
      (mem_scoredAt.2 ⟨(mappedTables_perm _ _ _).mem_iff.2 hmissed, rfl⟩))), rfl⟩

theorem gathered_of_neighbor (ht : t ∈ repository.catalog.tables)
    (hneighbor : t.id ∈ repository.fkNeighborTableIds (mappedIds repository query)) :
    ∃ x ∈ gatheredTables repository query k, x.table = t := by
  by_cases hmapped : t.id ∈ mappedIds repository query
  · exact gathered_of_mapped ht hmapped
  by_cases hfound : t.id ∈ tableIds (repository.searchTables query k)
  · obtain ⟨x, hx, hid⟩ := List.mem_map.1 hfound
    exact ⟨x, mem_gatheredTables.2 (Or.inr (Or.inr hx)), Catalog.eq_of_id (mem_searchTables hx).1 ht hid⟩
  · have hplain : t ∈ plainNeighbors repository query k :=
      List.mem_filter.2 ⟨ht, decide_eq_true ⟨hneighbor, hmapped, hfound⟩⟩
    exact ⟨⟨t, 99 / 100⟩, mem_gatheredTables.2 (Or.inl
      (mem_scoredAt.2 ⟨(neighborTables_perm _ _ _).mem_iff.2 hplain, rfl⟩)), rfl⟩

end

/-! ## A larger limit -/

section
variable {K : Type} [LinearOrder K] [Field K] (repository : MetadataRepository K) (query : String) {k k' : ℕ}
  {x : ScoredTable K} (hk : k ≤ k')
include hk

theorem searchTables_initial : repository.searchTables query k <+: repository.searchTables query k' :=
  List.take_prefix_take_left hk

theorem found_mono {id : ℤ} (h : id ∈ tableIds (repository.searchTables query k)) :
    id ∈ tableIds (repository.searchTables query k') :=
  List.map_subset _ (searchTables_initial repository query hk).subset h

/-- The first hit stays the first. -/
theorem head?_searchTables (hx : x ∈ repository.searchTables query k) :
    (repository.searchTables query k').head? = (repository.searchTables query k).head? := by
  obtain ⟨rest, hrest⟩ := searchTables_initial repository query hk
  rw [← hrest, List.head?_append_of_ne_nil _ (List.ne_nil_of_mem hx)]

theorem missedTables_sublist :
    (missedTables repository query k').Sublist (missedTables repository query k) := by
  refine List.monotone_filter_right _ fun t ht => ?_
  obtain ⟨hmapped, hfound⟩ := of_decide_eq_true ht
  exact decide_eq_true ⟨hmapped, fun h => hfound (found_mono repository query hk h)⟩

theorem plainNeighbors_sublist :
    (plainNeighbors repository query k').Sublist (plainNeighbors repository query k) := by
  refine List.monotone_filter_right _ fun t ht => ?_
  obtain ⟨hneighbor, hmapped, hfound⟩ := of_decide_eq_true ht
  exact decide_eq_true ⟨hneighbor, hmapped, fun h => hfound (found_mono repository query hk h)⟩

theorem ahead_mono (h : AheadOfNeighbors repository query k x) : AheadOfNeighbors repository query k' x := by
  rcases h with hlt | ⟨heq, hmissed, hhead⟩
  · exact Or.inl hlt
  · have hsub := missedTables_sublist repository query hk
    rw [hmissed] at hsub
    refine Or.inr ⟨heq, List.sublist_nil.1 hsub, ?_⟩
    rw [head?_searchTables repository query hk (List.mem_of_mem_head? hhead), hhead]

/-- A hit of the smaller limit does not move back. -/
theorem place_hit_mono (hx : x ∈ repository.searchTables query k) :
    place repository query k' x ≤ place repository query k x := by
  have hinitial := searchTables_initial repository query hk
  have hmissed := (missedTables_sublist repository query hk).length_le
  have hplain := (plainNeighbors_sublist repository query hk).length_le
  rw [place_hit hx, place_hit (hinitial.subset hx), hinitial.idxOf_eq_of_mem hx]
  split_ifs with h' h h
  · omega
  · omega
  · exact absurd (ahead_mono repository query hk h) h'
  · omega

variable (k k') in
omit hk in
/-- The tables inserted under the limit `k` that are kept fit in under `k'`. -/
structure InsertedFit : Prop where
  mapped : ∀ t ∈ mappedTables repository query k, (mappedTables repository query k).reverse.idxOf t < k →
    Fits repository query k' t
  neighbors : ∀ t ∈ neighborTables repository query k, (missedTables repository query k).length +
    (hitsAhead repository query k).length + (neighborTables repository query k).reverse.idxOf t < k →
      Fits repository query k' t

omit hk in
/-- If no table is lost, those that are kept fit in. -/
theorem fits_of_subset [IsStrictOrderedRing K]
    (h : ∀ id ∈ tableIds (rankedTables repository query k), id ∈ tableIds (rankedTables repository query k'))
    (hx : x ∈ gatheredTables repository query k) (hplace : place repository query k x < k) :
    Fits repository query k' x.table := by
  obtain ⟨y, hy, hid⟩ := List.mem_map.1 (h _ ((id_mem_rankedTables_iff hx).2 ((fits_iff_place hx).2 hplace)))
  have hgathered := mem_gathered_of_ranked hy
  rw [← Catalog.eq_of_id (mem_catalog_of_gathered hgathered) (mem_catalog_of_gathered hx) hid]
  exact (id_mem_rankedTables_iff hgathered).1 (List.mem_map_of_mem hy)

/-- Hits and inserted tables that fit in are kept. -/
theorem id_mem_rankedTables_of_insertedFit [IsStrictOrderedRing K] (h : InsertedFit repository query k k')
    (hx : x ∈ rankedTables repository query k) : x.table.id ∈ tableIds (rankedTables repository query k') := by
  have hgathered := mem_gathered_of_ranked hx
  have hplace := (mem_rankedTables_iff_place hgathered).1 hx
  have hcatalog := mem_catalog_of_gathered hgathered
  obtain ⟨t, score⟩ := x
  rcases mem_gatheredTables.1 hgathered with hsource | hsource | hsource
  · obtain ⟨ht, rfl⟩ := mem_scoredAt.1 hsource
    rw [place_neighbor ht] at hplace
    have hneighbor := (of_decide_eq_true (List.mem_filter.1 ((neighborTables_perm _ _ _).mem_iff.1 ht)).2).1
    obtain ⟨y, hy, rfl⟩ := gathered_of_neighbor (k := k') hcatalog hneighbor
    exact (id_mem_rankedTables_iff hy).2 (h.neighbors _ ht hplace)
  · obtain ⟨ht, rfl⟩ := mem_scoredAt.1 hsource
    rw [place_mapped ht] at hplace
    have hmapped := mapped_of_missed ((mappedTables_perm _ _ _).mem_iff.1 ht)
    obtain ⟨y, hy, rfl⟩ := gathered_of_mapped (k := k') hcatalog hmapped
    exact (id_mem_rankedTables_iff hy).2 (h.mapped _ ht hplace)
  · have hhit := (searchTables_initial repository query hk).subset hsource
    have hgathered' : (⟨t, score⟩ : ScoredTable K) ∈ gatheredTables repository query k' :=
      mem_gatheredTables.2 (Or.inr (Or.inr hhit))
    refine (id_mem_rankedTables_iff hgathered').2 ((fits_iff_place hgathered').2 ?_)
    exact ((place_hit_mono repository query hk hsource).trans_lt hplace).trans_le hk

/-- Of the tables under the smaller limit none is lost iff the inserted ones fit in. -/
theorem rankedTables_subset_iff [IsStrictOrderedRing K] :
    (∀ id ∈ tableIds (rankedTables repository query k), id ∈ tableIds (rankedTables repository query k')) ↔
      InsertedFit repository query k k' := by
  constructor
  · intro h
    constructor
    · intro t ht hplace
      have hx : (⟨t, 1⟩ : ScoredTable K) ∈ gatheredTables repository query k :=
        mem_gatheredTables.2 (Or.inr (Or.inl (mem_scoredAt.2 ⟨ht, rfl⟩)))
      exact fits_of_subset repository query h hx (by rwa [place_mapped ht])
    · intro t ht hplace
      have hx : (⟨t, 99 / 100⟩ : ScoredTable K) ∈ gatheredTables repository query k :=
        mem_gatheredTables.2 (Or.inl (mem_scoredAt.2 ⟨ht, rfl⟩))
      exact fits_of_subset repository query h hx (by rwa [place_neighbor ht])
  · intro h id hid
    obtain ⟨x, hx, rfl⟩ := List.mem_map.1 hid
    exact id_mem_rankedTables_of_insertedFit repository query hk h hx

end

/-! ## Rows in one order -/

theorem idxOf_le_of_sublist {α : Type*} [DecidableEq α] {xs ys : List α} {x : α} (h : ys.Sublist xs) (hxs : xs.Nodup)
    (hx : x ∈ ys) : ys.idxOf x ≤ xs.idxOf x := by
  induction h with
  | slnil => exact le_rfl
  | cons a hsub ih =>
    obtain ⟨ha, hxs⟩ := List.nodup_cons.1 hxs
    have hne : a ≠ x := by
      rintro rfl
      exact ha (hsub.subset hx)
    rw [List.idxOf_cons_ne _ hne]
    exact (ih hxs hx).trans (Nat.le_succ _)
  | cons_cons a hsub ih =>
    obtain ⟨ha, hxs⟩ := List.nodup_cons.1 hxs
    by_cases hne : a = x
    · rw [List.idxOf_cons_eq _ hne]
      exact Nat.zero_le _
    · rw [List.idxOf_cons_ne _ hne, List.idxOf_cons_ne _ hne]
      exact Nat.succ_le_succ (ih hxs ((List.mem_cons.1 hx).resolve_left (Ne.symm hne)))

section
variable {K : Type} [LinearOrder K] [Field K] (repository : MetadataRepository K) (query : String) {k k' : ℕ}
  {x : ScoredTable K} (hk : k ≤ k')
include hk

/-- Where the hits ahead leave room, those found later are not ahead. -/
theorem found_of_ahead (hroom : (hitsAhead repository query k).length < k)
    (hx : x ∈ hitsAhead repository query k') : x ∈ repository.searchTables query k := by
  obtain ⟨hfound, hahead⟩ := List.mem_filter.1 hx
  by_contra hlate
  obtain ⟨rest, hrest⟩ := searchTables_initial repository query hk
  have hlength : (repository.searchTables query k).length = k := by
    refine le_antisymm (List.length_take_le _ _) (not_lt.1 fun hlt => hlate ?_)
    -- the search has no more rows
    have hall : repository.searchTables query k = repository.searchRows query := by
      refine List.take_of_length_le (not_lt.1 fun h => ?_)
      rw [MetadataRepository.searchTables, List.length_take_of_le h.le] at hlt
      exact lt_irrefl _ hlt
    exact hall ▸ List.mem_of_mem_take hfound
  -- so some hit of the smaller limit is not ahead
  obtain ⟨b, hb⟩ : ∃ b, b ∈ hitsBehind repository query k := by
    have happend : (hitsAhead repository query k ++ hitsBehind repository query k).length = k := by
      rw [hitsAhead_append_hitsBehind, hlength]
    rw [List.length_append] at happend
    exact List.exists_mem_of_length_pos (by omega)
  obtain ⟨hb, hbehind⟩ := List.mem_filter.1 hb
  rw [← hrest, List.mem_append] at hfound
  rcases of_decide_eq_true hahead with hlt | ⟨-, -, hhead⟩
  · have hbefore : [b, x].Sublist (repository.searchTables query k') := by
      rw [← hrest]
      exact (List.singleton_sublist.2 hb).append (List.singleton_sublist.2 (hfound.resolve_left hlate))
    have hle := List.rel_of_pairwise_cons (sorted_searchTables.sublist hbefore) List.mem_cons_self
    exact of_decide_eq_true hbehind (Or.inl (hlt.trans_le hle))
  · rw [head?_searchTables repository query hk hb] at hhead
    exact hlate (List.mem_of_mem_head? hhead)

/-- Under a larger limit, no more tables come before the neighbours. -/
theorem length_before_neighbors_le (hroom : (hitsAhead repository query k).length < k) :
    (missedTables repository query k').length + (hitsAhead repository query k').length ≤
      (missedTables repository query k).length + (hitsAhead repository query k).length := by
  have hmissed := missedTables_sublist repository query hk
  have hnodup : (hitsAhead repository query k').Nodup := (nodup_of_tableIds nodup_searchTables).filter _
  have hcases : ∀ x ∈ hitsAhead repository query k', x ∈ hitsAhead repository query k ∨
      missedTables repository query k' = [] ∧ missedTables repository query k ≠ [] ∧
        (repository.searchTables query k').head? = some x := by
    intro x hx
    have hfound := found_of_ahead repository query hk hroom hx
    rcases of_decide_eq_true (List.mem_filter.1 hx).2 with hlt | ⟨heq, hnil, hhead⟩
    · exact Or.inl (List.mem_filter.2 ⟨hfound, decide_eq_true (Or.inl hlt)⟩)
    · by_cases hnil' : missedTables repository query k = []
      · rw [head?_searchTables repository query hk hfound] at hhead
        exact Or.inl (List.mem_filter.2 ⟨hfound, decide_eq_true (Or.inr ⟨heq, hnil', hhead⟩)⟩)
      · exact Or.inr ⟨hnil, hnil', hhead⟩
  by_cases hlast : missedTables repository query k' = [] ∧ missedTables repository query k ≠ []
  · -- the first hit may come ahead, but a mapped table is no longer inserted
    have hsubset : hitsAhead repository query k' ⊆
        (repository.searchTables query k').head?.toList ++ hitsAhead repository query k := fun x hx => by
      rcases hcases x hx with h | ⟨-, -, h⟩
      · exact List.mem_append_right _ h
      · exact List.mem_append_left _ (Option.mem_toList.2 h)
    have hle := (List.subperm_of_subset hnodup hsubset).length_le
    have hpos := List.length_pos_iff.2 hlast.2
    have hone : (repository.searchTables query k').head?.toList.length ≤ 1 := by
      cases (repository.searchTables query k').head? with
      | none => exact Nat.zero_le _
      | some x => exact le_rfl
    rw [List.length_append] at hle
    rw [hlast.1, List.length_nil]
    omega
  · have hsubset : hitsAhead repository query k' ⊆ hitsAhead repository query k := fun x hx =>
      (hcases x hx).resolve_right fun h => hlast ⟨h.1, h.2.1⟩
    exact Nat.add_le_add hmissed.length_le (List.subperm_of_subset hnodup hsubset).length_le

end

section
variable {K : Type} [LinearOrder K] [Field K] (repository : MetadataRepository K) (query : String)

/-- `fetch_tables_by_ids` returns its rows in one order. -/
def OneOrder : Prop :=
  ∃ order : List CatalogTable, ∀ ids, repository.fetchTablesByIds ids = order.filter fun t => t.id ∈ ids

/-- The tables inserted under the limit `k` that the search finds under `k'` fit in. -/
structure LateFit (k k' : ℕ) : Prop where
  mapped : ∀ x ∈ repository.searchTables query k', x.table ∈ mappedTables repository query k →
    (mappedTables repository query k).reverse.idxOf x.table < k → place repository query k' x < k'
  neighbors : ∀ x ∈ repository.searchTables query k', x.table ∈ neighborTables repository query k →
    (missedTables repository query k).length + (hitsAhead repository query k).length +
      (neighborTables repository query k).reverse.idxOf x.table < k → place repository query k' x < k'

variable {repository} {k k' : ℕ}

theorem not_mapped_and_neighbor {t : CatalogTable} (hmapped : t ∈ mappedTables repository query k) :
    t ∉ neighborTables repository query k' := fun hneighbor =>
  not_mapped_of_plain ((neighborTables_perm _ _ _).mem_iff.1 hneighbor)
    (mapped_of_missed ((mappedTables_perm _ _ _).mem_iff.1 hmapped))

theorem nodup_fetched (ids : Finset ℤ) : (repository.fetchTablesByIds ids).Nodup :=
  (repository.fetchTablesByIds_perm ids).nodup_iff.2 ((List.Nodup.of_map _ repository.catalog.nodup_tables).filter _)

theorem fetched_sublist (h : OneOrder repository) {ids ids' : Finset ℤ}
    (hids : ∀ t ∈ repository.catalog.tables, t.id ∈ ids' → t.id ∈ ids) :
    (repository.fetchTablesByIds ids').Sublist (repository.fetchTablesByIds ids) := by
  obtain ⟨order, horder⟩ := h
  have hcatalog : ∀ t ∈ order, t ∈ repository.catalog.tables := fun t ht => by
    have hfetched : t ∈ repository.fetchTablesByIds {t.id} := by
      rw [horder]
      exact List.mem_filter.2 ⟨ht, decide_eq_true (Finset.mem_singleton_self _)⟩
    exact List.mem_of_mem_filter ((repository.fetchTablesByIds_perm _).mem_iff.1 hfetched)
  have hfilter : order.filter (fun t => t.id ∈ ids') =
      (order.filter fun t => t.id ∈ ids).filter fun t => t.id ∈ ids' := by
    rw [List.filter_filter]
    refine List.filter_congr fun t ht => ?_
    by_cases hid : t.id ∈ ids'
    · simp [hid, hids t (hcatalog t ht) hid]
    · simp [hid]
  rw [horder, horder, hfilter]
  exact List.filter_sublist

theorem mappedTables_sublist (h : OneOrder repository) (hk : k ≤ k') :
    (mappedTables repository query k').Sublist (mappedTables repository query k) := by
  refine fetched_sublist h fun t _ hid => ?_
  rw [Finset.mem_sdiff, List.mem_toFinset] at hid ⊢
  exact ⟨hid.1, fun hfound => hid.2 (found_mono repository query hk hfound)⟩

theorem neighborTables_sublist (h : OneOrder repository) (hk : k ≤ k') :
    (neighborTables repository query k').Sublist (neighborTables repository query k) := by
  refine fetched_sublist h fun t ht hid => ?_
  rw [Finset.mem_sdiff, List.mem_toFinset, mem_tableIds_tablesWithMapped _ _ _ ht] at hid ⊢
  exact ⟨hid.1, fun hfound => hid.2 (hfound.imp_right (found_mono repository query hk))⟩

/-- With rows in one order, the only tables that may be lost are those that the search finds late. -/
theorem insertedFit_iff_lateFit (h : OneOrder repository) (hk : k ≤ k') :
    InsertedFit repository query k k' ↔ LateFit repository query k k' := by
  constructor
  · intro hfit
    constructor
    · intro x hx ht hplace
      rw [place_hit hx]
      exact (hfit.mapped x.table ht hplace).hit x hx rfl
    · intro x hx ht hplace
      rw [place_hit hx]
      exact (hfit.neighbors x.table ht hplace).hit x hx rfl
  · intro hlate
    constructor
    · refine fun t ht hplace => ⟨fun x hx htable => ?_, fun ht' => ?_, fun ht' => ?_⟩
      · subst htable
        rw [← place_hit hx]
        exact hlate.mapped x hx ht hplace
      · have hle := idxOf_le_of_sublist (mappedTables_sublist query h hk).reverse
          (List.nodup_reverse.2 (nodup_fetched _)) (List.mem_reverse.2 ht')
        exact (hle.trans_lt hplace).trans_le hk
      · exact absurd ht' (not_mapped_and_neighbor query ht)
    · refine fun t ht hplace => ⟨fun x hx htable => ?_, fun ht' => ?_, fun ht' => ?_⟩
      · subst htable
        rw [← place_hit hx]
        exact hlate.neighbors x hx ht hplace
      · exact absurd ht (not_mapped_and_neighbor query ht')
      · have hle := idxOf_le_of_sublist (neighborTables_sublist query h hk).reverse
          (List.nodup_reverse.2 (nodup_fetched _)) (List.mem_reverse.2 ht')
        have hbefore := length_before_neighbors_le repository query hk (by omega)
        omega

end

/-! ## Requests -/

section
variable {K : Type} [LinearOrder K] [Field K]

omit [LinearOrder K] [Field K] in
theorem effectiveTopK_eq (runtime : DecisionRuntime K) {k : ℕ} (h₁ : 1 ≤ k) (h₅₀ : k ≤ 50) :
    effectiveTopK runtime (some (k : ℤ)) = k := by
  rw [effectiveTopK]
  omega

/-- **A larger limit loses no table** iff the tables inserted under the smaller one fit in under it. -/
theorem keepsCandidates_iff [IsStrictOrderedRing K] (repository : MetadataRepository K) (runtime : DecisionRuntime K)
    (query : String) {k k' : ℕ} (h₁ : 1 ≤ k) (hk : k ≤ k') (h₅₀ : k' ≤ 50) :
    (∀ id ∈ tableIds (answerTables repository runtime query (some (k : ℤ))),
      id ∈ tableIds (answerTables repository runtime query (some (k' : ℤ)))) ↔
        InsertedFit repository query k k' := by
  rw [answerTables, answerTables, effectiveTopK_eq runtime h₁ (hk.trans h₅₀),
    effectiveTopK_eq runtime (h₁.trans hk) h₅₀]
  exact rankedTables_subset_iff repository query hk

end

theorem keepsCandidates_iff_plant :
    (∀ id ∈ tableIds (answerTables plantRepository plantRuntime "the north plant" (some ((1 : ℕ) : ℤ))),
      id ∈ tableIds (answerTables plantRepository plantRuntime "the north plant" (some ((2 : ℕ) : ℤ)))) ↔
        InsertedFit plantRepository "the north plant" 1 2 :=
  keepsCandidates_iff plantRepository plantRuntime "the north plant" (by decide) (by decide) (by decide)

/-- The plant is the whole answer under the limit 1.  Under 2 the search finds it, and its basin and the dam
fill the answer. -/
theorem not_keepsCandidates_plant :
    ¬ ∀ id ∈ tableIds (answerTables plantRepository plantRuntime "the north plant" (some 1)),
      id ∈ tableIds (answerTables plantRepository plantRuntime "the north plant" (some 2)) := by
  decide +kernel

end RoboMeta
