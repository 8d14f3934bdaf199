/-
  What join expansion loses, and what the order of the set decides.

  The rebuilt list has of every key one candidate, and candidates of one score
  stand in it as the set was enumerated.  So an expansion can lose a pruned
  candidate to another one of its key, or of its score.

  * `head?_filter_selectFinalCandidates`: of the candidates of one score the one
    whose key is enumerated first comes first;
  * `keepsPruned_iff`: when the pruned candidates stay;
  * `selectFinalCandidates_order_iff`: when the order of the set decides nothing.
-/
import RoboMeta.JoinExpansion
import RoboMeta.MergedCandidates

namespace RoboMeta

/-- This element is enumerated first. -/
def SetOrder.first (k : String) : SetOrder where
  list s := if k ∈ s then k :: s.erase k else s
  perm s := by
    split_ifs with hk
    · exact (List.perm_cons_erase hk).symm
    · exact .refl s

variable {K : Type*} [Field K] [LinearOrder K] {U : Unicode} {expandVia : List String} {bridges : List BridgeEntry}
  {pool pruned rest : List (SearchedTable K)} {anchor t : SearchedTable K} {order order' : SetOrder}
  {p : PruneParams K} {joinExpand : Bool}

/-! ## Candidates of one score -/

omit [Field K] [LinearOrder K] in
theorem expandedTables_first (h : t ∈ expandedTables U expandVia order bridges pool anchor pruned) :
    ∃ others, expandedTables U expandVia (.first (t.fqnKey U)) bridges pool anchor pruned = t :: others := by
  obtain ⟨k, hk, hget⟩ := List.mem_filterMap.1 h
  obtain ⟨rfl, -⟩ := get?_poolByKey.1 hget
  have hmem := (order.perm _).mem_iff.1 hk
  simp only [expandedTables, SetOrder.first]
  rw [if_pos hmem, List.filterMap_cons_some hget]
  exact ⟨_, rfl⟩

/-- Of the candidates of a score that is kept, the first one of the rebuilt list comes first. -/
theorem head?_filter_selectFinalCandidates (hne : bridges ≠ [])
    (ht : t ∈ expandedTables U expandVia order bridges pool anchor (anchor :: rest))
    (hkept : t.score ∈ (selectFinalCandidates U expandVia (.first (t.fqnKey U)) p true bridges pool
      (anchor :: rest)).map fun t => t.score) :
    ((selectFinalCandidates U expandVia (.first (t.fqnKey U)) p true bridges pool (anchor :: rest)).filter
      fun x => x.score = t.score).head? = some t := by
  obtain ⟨others, hfirst⟩ := expandedTables_first ht
  rw [selectFinalCandidates_cons hne, hfirst] at hkept ⊢
  exact head?_filter_prune hkept

theorem mem_expandedTables_of_mem_select (hne : bridges ≠ [])
    (h : t ∈ selectFinalCandidates U expandVia order p true bridges pool (anchor :: rest)) :
    t ∈ expandedTables U expandVia order bridges pool anchor (anchor :: rest) := by
  rw [selectFinalCandidates_cons hne] at h
  exact mem_of_mem_prune h

theorem nodup_select (hne : bridges ≠ []) :
    (selectFinalCandidates U expandVia order p true bridges pool (anchor :: rest)).Nodup := by
  rw [selectFinalCandidates_cons hne]
  exact nodup_prune nodup_expandedTables

/-! ## What the order decides -/

variable (U expandVia bridges pool pruned) in
/-- The candidates that the selected keys stand for. -/
def selectedTables : List (SearchedTable K) :=
  match pruned with
  | [] => []
  | anchor :: _ => expandedTables U expandVia .insertion bridges pool anchor pruned

/-- Two of the candidates share a score that is kept. -/
def PruneParams.KeptTie (p : PruneParams K) (tables : List (SearchedTable K)) : Prop :=
  ∃ a ∈ tables, ∃ b ∈ tables, a ≠ b ∧ a.score = b.score ∧ p.Survives tables a.score

theorem survives_of_perm {candidates candidates' : List (SearchedTable K)} {s : K} (h : candidates.Perm candidates') :
    p.Survives candidates s ↔ p.Survives candidates' s := by
  unfold PruneParams.Survives
  rw [rankedScores_of_perm h]

theorem mem_scores_select_iff (hne : bridges ≠ [])
    (ht : t ∈ expandedTables U expandVia .insertion bridges pool anchor (anchor :: rest)) (order : SetOrder) :
    t.score ∈ (selectFinalCandidates U expandVia order p true bridges pool (anchor :: rest)).map (fun t => t.score) ↔
      p.Survives (expandedTables U expandVia .insertion bridges pool anchor (anchor :: rest)) t.score := by
  have hperm : (expandedTables U expandVia order bridges pool anchor (anchor :: rest)).Perm
      (expandedTables U expandVia .insertion bridges pool anchor (anchor :: rest)) := expandedTables_perm _ _
  rw [selectFinalCandidates_cons hne, mem_scores_prune_iff, survives_of_perm hperm]
  exact List.mem_map_of_mem (hperm.mem_iff.2 ht)

/-- **The order of the set** decides nothing iff nothing is expanded or no two of the candidates to choose from share a
score that is kept. -/
theorem selectFinalCandidates_order_iff (tableMax : ℕ) :
    (∀ order order', selectFinalCandidates U expandVia order p joinExpand bridges pool pruned =
        selectFinalCandidates U expandVia order' p joinExpand bridges pool pruned ∧
      cutTables tableMax (selectFinalCandidates U expandVia order p joinExpand bridges pool pruned) =
        cutTables tableMax (selectFinalCandidates U expandVia order' p joinExpand bridges pool pruned)) ↔
      joinExpand = false ∨ bridges = [] ∨ ¬ p.KeptTie (selectedTables U expandVia bridges pool pruned) := by
  have hcut : ∀ order order' : SetOrder,
      (selectFinalCandidates U expandVia order p joinExpand bridges pool pruned =
          selectFinalCandidates U expandVia order' p joinExpand bridges pool pruned ∧
        cutTables tableMax (selectFinalCandidates U expandVia order p joinExpand bridges pool pruned) =
          cutTables tableMax (selectFinalCandidates U expandVia order' p joinExpand bridges pool pruned)) ↔
        selectFinalCandidates U expandVia order p joinExpand bridges pool pruned =
          selectFinalCandidates U expandVia order' p joinExpand bridges pool pruned := fun order order' =>
    and_iff_left_of_imp fun heq => congrArg (cutTables tableMax) heq
  simp only [hcut]
  by_cases hnot : joinExpand = false ∨ bridges = []
  · refine iff_of_true (fun order order' => ?_) (hnot.imp_right Or.inl)
    rw [selectFinalCandidates_of_not hnot, selectFinalCandidates_of_not hnot]
  · rw [← or_assoc, or_iff_right hnot]
    simp only [not_or, Bool.not_eq_false] at hnot
    obtain ⟨rfl, hne⟩ := hnot
    cases pruned with
    | nil => exact iff_of_true (fun _ _ => rfl) fun ⟨a, ha, _⟩ => absurd ha List.not_mem_nil
    | cons anchor rest =>
      constructor
      · -- either of two candidates of one score can be made the first one
        rintro hsame ⟨a, ha, b, hb, hab, hscore, hsurvives⟩
        have hhead : ∀ t ∈ expandedTables U expandVia .insertion bridges pool anchor (anchor :: rest),
            t.score = a.score → ((selectFinalCandidates U expandVia .insertion p true bridges pool
              (anchor :: rest)).filter fun x => x.score = a.score).head? = some t := by
          intro t ht heq
          rw [← heq, hsame .insertion (.first (t.fqnKey U))]
          exact head?_filter_selectFinalCandidates hne ht ((mem_scores_select_iff hne ht _).2 (heq ▸ hsurvives))
        exact hab (Option.some.inj ((hhead a ha rfl).symm.trans (hhead b hb hscore.symm)))
      · intro hties order order'
        have hscores : (selectFinalCandidates U expandVia order p true bridges pool (anchor :: rest)).map
            (fun t => t.score) =
              (selectFinalCandidates U expandVia order' p true bridges pool (anchor :: rest)).map fun t => t.score := by
          rw [selectFinalCandidates_cons hne, selectFinalCandidates_cons hne]
          exact map_score_prune_of_perm (expandedTables_perm _ _)
        have hmem : ∀ (order : SetOrder) (t : SearchedTable K),
            t ∈ selectFinalCandidates U expandVia order p true bridges pool (anchor :: rest) →
              t ∈ expandedTables U expandVia .insertion bridges pool anchor (anchor :: rest) := fun order t ht =>
          (expandedTables_perm order .insertion).mem_iff.1 (mem_expandedTables_of_mem_select hne ht)
        refine eq_of_map_eq hscores fun a ha b hb heq => ?_
        by_contra hab
        exact hties ⟨a, hmem order a ha, b, hmem order' b hb, hab, heq,
          (mem_scores_select_iff hne (hmem order a ha) order).1 (List.mem_map_of_mem ha)⟩

/-! ## What is lost -/

/-- The pruned candidates stay and the top score is first, however the set is enumerated. -/
def KeepsPruned (U : Unicode) (expandVia : List String) (bridges : List BridgeEntry) (p : PruneParams K)
    (pool : List (SearchedTable K)) : Prop :=
  ∀ order, (∀ t ∈ pruneByScoreGap p pool,
      t ∈ selectFinalCandidates U expandVia order p true bridges pool (pruneByScoreGap p pool)) ∧
    (selectFinalCandidates U expandVia order p true bridges pool (pruneByScoreGap p pool)).head?.map
      (fun t => t.score) = (tablesByScore pool).head?.map fun t => t.score

/-- A candidate beside the pruned ones comes in with the score of a pruned one. -/
def TiedNeighbour (U : Unicode) (expandVia : List String) (bridges : List BridgeEntry) (pool : List (SearchedTable K))
    (pruned : List (SearchedTable K)) : Prop :=
  ∃ anchor ∈ pruned.head?, ∃ t ∉ pruned, LastOfKey U pool t ∧
    Neighbour U expandVia bridges (anchor.fqnKey U) (t.fqnKey U) ∧ t.score ∈ pruned.map fun t => t.score

theorem lastOfKey_of_keepsPruned (hne : bridges ≠ []) (h : KeepsPruned U expandVia bridges p pool) :
    ∀ t ∈ pruneByScoreGap p pool, LastOfKey U pool t := by
  intro t ht
  have hmem := (h .insertion).1 t ht
  cases hpruned : pruneByScoreGap p pool with
  | nil => rw [hpruned] at ht; exact absurd ht List.not_mem_nil
  | cons anchor rest =>
    rw [hpruned, selectFinalCandidates_cons hne] at hmem
    exact (mem_expandedTables.1 (mem_of_mem_prune hmem)).1

section
variable [IsStrictOrderedRing K]

/-- With a tied neighbour there is no place for all pruned candidates. -/
theorem not_tiedNeighbour_of_keepsPruned (hne : bridges ≠ []) (hpool : pool.Nodup)
    (h : KeepsPruned U expandVia bridges p pool) :
    ¬ TiedNeighbour U expandVia bridges pool (pruneByScoreGap p pool) := by
  rintro ⟨anchor, hanchor, t, hnot, hlast, hneighbour, hscore⟩
  have hscores := map_score_selectFinalCandidates expandVia bridges (.first (t.fqnKey U)) true hpool
    (lastOfKey_of_keepsPruned hne h)
  have hstay := (h (.first (t.fqnKey U))).1
  have hnodup := nodup_prune (p := p) hpool
  obtain ⟨rest, hpruned⟩ := List.head?_eq_some_iff.1 hanchor
  rw [hpruned] at hscores hstay hnodup hnot hscore
  have ht : t ∈ expandedTables U expandVia .insertion bridges pool anchor (anchor :: rest) :=
    mem_expandedTables.2 ⟨hlast, Or.inr hneighbour⟩
  have hin : t ∈ selectFinalCandidates U expandVia (.first (t.fqnKey U)) p true bridges pool (anchor :: rest) :=
    (List.mem_filter.1 (List.mem_of_head? (head?_filter_selectFinalCandidates hne ht (hscores ▸ hscore)))).1
  have hsubset : t :: (anchor :: rest) ⊆
      selectFinalCandidates U expandVia (.first (t.fqnKey U)) p true bridges pool (anchor :: rest) :=
    List.cons_subset.2 ⟨hin, hstay⟩
  have hlength := ((List.nodup_cons.2 ⟨hnot, hnodup⟩).subperm hsubset).length_le
  have heq := congrArg List.length hscores
  rw [List.length_map, List.length_map] at heq
  rw [heq, List.length_cons] at hlength
  omega

/-- **The pruned candidates stay** iff nothing is expanded, or each of them is the last one of its key in the pool and
no other candidate comes in with the score of one of them. -/
theorem keepsPruned_iff (hkeys : (pool.map fun t => t.identityKey U).Nodup) :
    KeepsPruned U expandVia bridges p pool ↔ bridges = [] ∨
      (∀ t ∈ pruneByScoreGap p pool, LastOfKey U pool t) ∧
        ¬ TiedNeighbour U expandVia bridges pool (pruneByScoreGap p pool) := by
  have hpool : pool.Nodup := hkeys.of_map _
  by_cases hne : bridges = []
  · refine iff_of_true (fun order => ?_) (Or.inl hne)
    rw [selectFinalCandidates_of_not (Or.inr hne), prune_prune, head?_prune]
    exact ⟨fun _ => id, rfl⟩
  · rw [or_iff_right hne]
    refine ⟨fun h => ⟨lastOfKey_of_keepsPruned hne h, not_tiedNeighbour_of_keepsPruned hne hpool h⟩, ?_⟩
    rintro ⟨hlast, hnot⟩ order
    have hscores := map_score_selectFinalCandidates expandVia bridges order true hpool hlast
    refine ⟨?_, by rw [← List.head?_map, hscores, List.head?_map, head?_prune]⟩
    cases hpruned : pruneByScoreGap p pool with
    | nil => exact fun t ht => absurd ht List.not_mem_nil
    | cons anchor rest =>
      rw [hpruned] at hlast hnot hscores
      have hsubset : selectFinalCandidates U expandVia order p true bridges pool (anchor :: rest) ⊆ anchor :: rest := by
        intro t ht
        obtain ⟨hlast', hkey | hneighbour⟩ := mem_expandedTables.1 (mem_expandedTables_of_mem_select hne ht)
        · obtain ⟨t', ht', heq⟩ := List.mem_map.1 hkey
          rw [hlast'.unique (hlast t' ht') heq.symm]
          exact ht'
        · by_contra hout
          exact hnot ⟨anchor, rfl, t, hout, hlast', hneighbour, hscores ▸ List.mem_map_of_mem ht⟩
      -- as many as the pruned ones, and among them
      have hlength := congrArg List.length hscores
      rw [List.length_map, List.length_map] at hlength
      exact fun t ht => (((nodup_select hne).subperm hsubset).perm_of_length_le hlength.ge).mem_iff.2 ht

end

/-! ### Two datasources and a tie -/

theorem keepsPruned_iff_site : KeepsPruned .ascii ["fk"] [siteBridge] ⟨10, 17 / 20, 0, 1 / 100⟩
      [siteTable "A" "" (9 / 10), siteTable "B" "" (1 / 2)] ↔ [siteBridge] = [] ∨
    (∀ t ∈ pruneByScoreGap ⟨10, 17 / 20, 0, 1 / 100⟩ [siteTable "A" "" (9 / 10), siteTable "B" "" (1 / 2)],
      LastOfKey .ascii [siteTable "A" "" (9 / 10), siteTable "B" "" (1 / 2)] t) ∧
      ¬ TiedNeighbour .ascii ["fk"] [siteBridge] [siteTable "A" "" (9 / 10), siteTable "B" "" (1 / 2)]
        (pruneByScoreGap ⟨10, 17 / 20, 0, 1 / 100⟩ [siteTable "A" "" (9 / 10), siteTable "B" "" (1 / 2)]) :=
  keepsPruned_iff (by decide +kernel)

/-- One table in two datasources, and a table linked with it. -/
def twinTables : List (SearchedTable ℚ) :=
  [siteTable "A" "plant" (9 / 10), siteTable "A" "head" (4 / 5), siteTable "B" "" (1 / 5)]

theorem not_forall_keepsPruned :
    ¬ ∀ (U : Unicode) (expandVia : List String) (bridges : List BridgeEntry) (p : PruneParams ℚ)
      (pool : List (SearchedTable ℚ)), (pool.map fun t => t.identityKey U).Nodup →
        KeepsPruned U expandVia bridges p pool := by
  intro h
  have hkeeps := (h .ascii ["fk"] [siteBridge] ⟨10, 17 / 20, 0, 0⟩ twinTables (by decide +kernel) .insertion).1
    (siteTable "A" "plant" (9 / 10)) (by decide +kernel)
  revert hkeeps
  decide +kernel

theorem not_forall_selectFinalCandidates_order :
    ¬ ∀ (U : Unicode) (expandVia : List String) (bridges : List BridgeEntry) (p : PruneParams ℚ) (joinExpand : Bool)
      (pool pruned : List (SearchedTable ℚ)) (tableMax : ℕ) (order order' : SetOrder),
      selectFinalCandidates U expandVia order p joinExpand bridges pool pruned =
          selectFinalCandidates U expandVia order' p joinExpand bridges pool pruned ∧
        cutTables tableMax (selectFinalCandidates U expandVia order p joinExpand bridges pool pruned) =
          cutTables tableMax (selectFinalCandidates U expandVia order' p joinExpand bridges pool pruned) := by
  intro h
  have hsame := (h .ascii ["fk"] [siteBridge] ⟨10, 17 / 20, 0, 0⟩ true
    [siteTable "A" "" (9 / 10), siteTable "B" "" (9 / 10)] [siteTable "A" "" (9 / 10), siteTable "B" "" (9 / 10)] 1
    .insertion (.first "rwis.b")).2
  revert hsame
  decide +kernel

end RoboMeta
