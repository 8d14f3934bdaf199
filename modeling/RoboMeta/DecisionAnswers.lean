/-
  What the decision over the graph returns (`services/decision_service.py`).

  * `decide_eq_some`: it comes back;
  * `decide_candidates`: the candidates are tables of the graph that exist, and of
    the allowed schemas unless the search by words found them; they stand in order
    of their scores, within the limits;
  * `decide_targets`: the targets, given the candidates;
  * `decide_groups`: the groups join candidates by bridges that the graph bears
    out, and the mode tells whether there are any.
-/
import RoboMeta.DecisionService

namespace RoboMeta

namespace DecisionService

variable {K : Type} [Field K] [LinearOrder K]

/-! ## The pool -/

section
variable {U : Unicode} {settings : Settings K} {deps : Deps K} {request : Request} {policy : Policy K}
  {t : SearchedTable K}

/-- What is merged is a table of one of the searches, with another score. -/
theorem mem_mergeCandidates {weights : MergeWeights K} {hydeTables questionTables : List (SearchedTable K)} {k : ℕ}
    (h : t ∈ mergeCandidates U weights hydeTables questionTables k) :
    ∃ row ∈ hydeTables ++ questionTables, t = { row with score := t.score } := by
  rw [mergeCandidates_eq, sliceTo, if_pos (Int.natCast_nonneg k)] at h
  obtain ⟨row, hrow, rfl⟩ := List.mem_map.1 ((perm_tablesByScore _).mem_iff.1 (List.mem_of_mem_take h))
  have hmem : row.2 ∈ hydeTables ++ questionTables := by
    rw [← map_snd_weightedRows weights]
    exact List.mem_map_of_mem (mem_of_mem_firsts hrow)
  exact ⟨row.2, hmem, rfl⟩

theorem length_mergeCandidates_le {weights : MergeWeights K} {hydeTables questionTables : List (SearchedTable K)}
    {k : ℕ} : (mergeCandidates U weights hydeTables questionTables k).length ≤ k := by
  rw [mergeCandidates_eq, sliceTo, if_pos (Int.natCast_nonneg k), Int.toNat_natCast]
  exact List.length_take_le k _

omit [Field K] in
theorem mem_searchBy (hsound : deps.store.Sound) {embedding : Option (List K)}
    (h : t ∈ searchBy U settings deps policy embedding) : ∃ v ∈ deps.store.tables,
      v.eligible deps.store.toLower (schemaFilterLower U settings.decisionSchemaAllowlist) = true ∧
        t = v.row t.score := by
  cases embedding with
  | none => exact absurd h List.not_mem_nil
  | some e =>
    obtain ⟨v, hv, heligible, rfl⟩ := search_eligible deps.store hsound e _ _ t h
    exact ⟨v, hv, heligible, rfl⟩

omit [Field K] in
theorem mem_vectorTables (h : t ∈ (vectorTables U settings deps request policy).1 ++
    (vectorTables U settings deps request policy).2) : ∃ embedding, t ∈ searchBy U settings deps policy embedding := by
  unfold vectorTables at h
  split_ifs at h
  · rcases List.mem_append.1 h with h | h
    · exact ⟨_, h⟩
    · exact ⟨_, h⟩
  · exact absurd h List.not_mem_nil

theorem mem_vectorPool (hsound : deps.store.Sound) (h : t ∈ vectorPool U settings deps request policy) :
    ∃ v ∈ deps.store.tables,
      v.eligible deps.store.toLower (schemaFilterLower U settings.decisionSchemaAllowlist) = true ∧
        t = v.row t.score := by
  obtain ⟨row, hrow, ht⟩ := mem_mergeCandidates h
  obtain ⟨embedding, hrow⟩ := mem_vectorTables hrow
  obtain ⟨v, hv, heligible, hrow⟩ := mem_searchBy hsound hrow
  exact ⟨v, hv, heligible, by rw [ht, hrow]; rfl⟩

theorem mem_decideKeyword {store : VectorStore K} {limit : ℕ} {query : String}
    (h : t ∈ decideKeyword U store limit query) : ∃ v ∈ store.tables, v.dbExists.getD true = true ∧
      tokenHits store (keywordTokens U query) v ≠ [] ∧ t = v.row t.score := by
  unfold decideKeyword at h
  simp only at h
  split_ifs at h
  · exact absurd h List.not_mem_nil
  · obtain ⟨hit, hhit, rfl⟩ := List.mem_map.1 h
    obtain ⟨v, hv, rfl⟩ := List.mem_map.1 ((List.perm_insertionSort _ _).mem_iff.1 (List.mem_of_mem_take hhit))
    obtain ⟨hv, hcond⟩ := List.mem_filter.1 hv
    rw [Bool.and_eq_true_iff, decide_eq_true_eq] at hcond
    exact ⟨v, hv, hcond.1, hcond.2, rfl⟩

end

/-! ## The tables that are returned -/

section
variable {p : PruneParams K} {candidates pool pruned : List (SearchedTable K)} {U : Unicode}
  {expandVia : List String} {order : SetOrder} {joinExpand : Bool} {bridges : List BridgeEntry}

variable (p candidates) in
theorem length_prune_le : ((pruneByScoreGap p candidates).length : ℤ) ≤ max 1 p.maxK := by
  obtain ⟨cut, h⟩ := longestFit_prune p candidates
  have hfits := h.fits
  cases hkept : pruneByScoreGap p candidates with
  | nil => simp
  | cons top rest =>
    rw [hkept] at hfits
    have hlength := hfits.1
    rw [List.length_map] at hlength
    simpa using hlength

omit [Field K] [LinearOrder K] in
theorem exists_lastOfKey {t : SearchedTable K} (ht : t ∈ pool) :
    ∃ t', LastOfKey U pool t' ∧ t'.fqnKey U = t.fqnKey U := by
  induction pool using List.reverseRecOn with
  | nil => exact absurd ht List.not_mem_nil
  | append_singleton pool x ih =>
    by_cases hx : x.fqnKey U = t.fqnKey U
    · exact ⟨x, lastOfKey_concat.2 (Or.inl rfl), hx⟩
    · have hmem : t ∈ pool := (List.mem_append.1 ht).resolve_right fun h => hx (List.mem_singleton.1 h ▸ rfl)
      obtain ⟨t', hlast, hkey⟩ := ih hmem
      exact ⟨t', lastOfKey_concat.2 (Or.inr ⟨hlast, fun h => hx (h.trans hkey)⟩), hkey⟩

variable (U expandVia order p joinExpand bridges) in
/-- The selection is a pruned list. -/
theorem exists_select_eq_prune (hsub : ∀ t ∈ pruned, t ∈ pool) :
    ∃ candidates, selectFinalCandidates U expandVia order p joinExpand bridges pool pruned =
      pruneByScoreGap p candidates ∧ (∀ t ∈ candidates, t ∈ pool) ∧ (candidates = [] ↔ pruned = []) := by
  by_cases hnot : joinExpand = false ∨ bridges = []
  · exact ⟨pruned, selectFinalCandidates_of_not hnot, hsub, Iff.rfl⟩
  · simp only [not_or, Bool.not_eq_false] at hnot
    obtain ⟨rfl, hne⟩ := hnot
    cases pruned with
    | nil => exact ⟨[], (prune_eq_nil.2 rfl).symm, hsub, Iff.rfl⟩
    | cons anchor rest =>
      refine ⟨_, selectFinalCandidates_cons hne, fun t ht => (mem_expandedTables.1 ht).1.mem, ?_⟩
      obtain ⟨t, hlast, hkey⟩ := exists_lastOfKey (U := U) (hsub anchor List.mem_cons_self)
      have ht : t ∈ expandedTables U expandVia order bridges pool anchor (anchor :: rest) :=
        mem_expandedTables.2 ⟨hlast, Or.inl (hkey ▸ List.mem_map_of_mem List.mem_cons_self)⟩
      exact iff_of_false (List.ne_nil_of_mem ht) (List.cons_ne_nil anchor rest)

end

section
variable (U : Unicode) (settings : Settings K) (deps : Deps K) (request : Request) (policy : Policy K)

theorem search_merged : (search U settings deps request policy).merged =
    pruneByScoreGap policy.prune (search U settings deps request policy).mergedFull := by
  unfold search
  dsimp only
  split_ifs <;> rfl

theorem search_joinPool :
    (search U settings deps request policy).joinPool = (search U settings deps request policy).mergedFull := by
  unfold Search.joinPool
  split_ifs with hnil
  · rw [search_merged, hnil]
    rfl
  · rfl

/-- The tables that are returned are some of the pool, in order of their scores, and there are some if there is a
pool. -/
structure Returned (pool tables : List (SearchedTable K)) : Prop where
  mem : ∀ t ∈ tables, t ∈ pool
  sorted : tables.Pairwise fun a b => b.score ≤ a.score
  length : tables.length ≤ max 1 policy.topk
  nil : tables = [] ↔ pool = []

theorem returned_finalMerged (g : JoinGraph K) :
    Returned policy (search U settings deps request policy).mergedFull
      (finalMerged U settings deps policy (search U settings deps request policy) g) := by
  have hprune (candidates : List (SearchedTable K))
      (hmem : ∀ t ∈ candidates, t ∈ (search U settings deps request policy).mergedFull)
      (hnil : candidates = [] ↔ (search U settings deps request policy).mergedFull = []) :
      Returned policy (search U settings deps request policy).mergedFull (pruneByScoreGap policy.prune candidates) := by
    have hlength : ((pruneByScoreGap policy.prune candidates).length : ℤ) ≤ max 1 (policy.topk : ℤ) :=
      length_prune_le policy.prune candidates
    exact ⟨fun t ht => hmem t (mem_of_mem_prune ht), pairwise_prune, by omega,
      prune_eq_nil.trans hnil⟩
  unfold finalMerged
  split_ifs
  · rw [search_merged]
    exact hprune _ (fun t ht => ht) Iff.rfl
  · rw [search_joinPool]
    have hsub : ∀ t ∈ (search U settings deps request policy).merged,
        t ∈ (search U settings deps request policy).mergedFull := fun t ht =>
      mem_of_mem_prune (search_merged U settings deps request policy ▸ ht)
    obtain ⟨candidates, hselect, hmem, hnil⟩ := exists_select_eq_prune policy.prune U settings.decisionJoinExpandVia
      deps.order settings.decisionJoinExpand (g.bridges.map RecordedBridge.entry) hsub
    rw [hselect]
    rw [search_merged, prune_eq_nil] at hnil
    obtain ⟨hmem, hsorted, hlength, hnil⟩ := hprune candidates hmem hnil
    unfold cutTables
    split_ifs with hmax
    · have hsub := List.take_sublist policy.tableMax (pruneByScoreGap policy.prune candidates)
      refine ⟨fun t ht => hmem t (hsub.subset ht), hsorted.sublist hsub, ?_, ?_⟩
      · exact hsub.length_le.trans hlength
      · rw [← hnil, List.take_eq_nil_iff]
        exact or_iff_right hmax.ne'
    · exact ⟨hmem, hsorted, hlength, hnil⟩

end

/-! ## The mode of the groups -/

/-- The segments of the stages that fetched something, in their order. -/
def segmentsOf (fk ontology convention : Bool) : List String :=
  (if fk then ["fk_graph"] else []) ++ (if ontology then ["ontology"] else []) ++
    if convention then ["convention"] else []

def modeText (segments : List String) : String := if segments = [] then "empty" else "+".intercalate segments

theorem append_ontology (fk : Bool) :
    appendJoinMode (modeText (segmentsOf fk false false)) "ontology" = modeText (segmentsOf fk true false) := by
  cases fk <;> decide

theorem append_convention (fk ontology : Bool) :
    appendJoinMode (modeText (segmentsOf fk ontology false)) "convention" = modeText (segmentsOf fk ontology true) := by
  cases fk <;> cases ontology <;> decide

theorem modeText_eq_empty {fk ontology convention : Bool} (h : modeText (segmentsOf fk ontology convention) = "empty") :
    fk = false ∧ ontology = false ∧ convention = false := by
  revert h
  cases fk <;> cases ontology <;> cases convention <;> decide

section
variable (U : Unicode) (settings : JoinSettings K) {fuel : ℕ}

/-- A later stage runs and fetches something for the tables that are alone. -/
def Fetched (keys : List String) (enabled : Bool) (fetchRels : List String → List (Rel K)) (fqns : List String)
    (g : JoinGraph K) : Prop :=
  enabled = true ∧ 2 ≤ (g.alone U keys fqns).length ∧ fetchRels (g.alone U keys fqns) ≠ []

omit [LinearOrder K] in
theorem fetched_of_recorded {keys : List String} {enabled : Bool} {via : BridgeVia}
    {fetchRels : List String → List (Rel K)} {fqns : List String} {g : JoinGraph K} {b : RecordedBridge K}
    (h : JoinGraph.FallbackRecorded U settings keys enabled via fetchRels fqns g b) :
    Fetched U keys enabled fetchRels fqns g := by
  obtain ⟨henabled, htwo, rel, hrel, -⟩ := h
  exact ⟨henabled, htwo, List.ne_nil_of_mem hrel⟩

omit [Field K] [LinearOrder K] in
theorem fallbackMode_eq {keys : List String} (hkeys : keys.Nodup) (hfuel : keys.length ≤ fuel) (enabled : Bool)
    (segment mode : String) (fetchRels : List String → List (Rel K)) {fqns : List String}
    (hfqns : ∀ fqn ∈ fqns, U.lower fqn ∈ keys) {g : JoinGraph K} (h : g.Partitioned keys) :
    ∃ fetched : Bool, (fetched = true ↔ Fetched U keys enabled fetchRels fqns g) ∧
      fallbackMode U fuel enabled segment fetchRels fqns g mode =
        some (if fetched then appendJoinMode mode segment else mode) := by
  unfold fallbackMode Fetched
  cases enabled with
  | false => exact ⟨false, by simp, rfl⟩
  | true =>
    obtain ⟨g', hisolated, -, -⟩ := h.isolatedFqns_eq_filter (U := U) hkeys hfuel fqns hfqns
    rw [if_pos rfl, hisolated, ← JoinGraph.alone]
    by_cases hfetched : 2 ≤ (g.alone U keys fqns).length ∧ fetchRels (g.alone U keys fqns) ≠ []
    · exact ⟨true, by simpa using hfetched, by simp [hfetched]⟩
    · exact ⟨false, by simpa using hfetched, by simpa using fun h h' => absurd ⟨h, h'⟩ hfetched⟩

/-- What the mode says of the stages that lead to the graph. -/
structure ModeOf (fetch : Fetches K) (joinPool : List (TableCandidate K)) (g₁ g₂ : JoinGraph K) (mode : String) :
    Prop where
  segments : ∃ fk ontology convention : Bool, mode = modeText (segmentsOf fk ontology convention) ∧
    (fk = true ↔ tableFqns joinPool ≠ [] ∧ fetch.fkRelationships (tableFqns joinPool) ≠ []) ∧
    (ontology = true ↔ Fetched U (poolKeys U joinPool) settings.joinOntologyEnabled fetch.ontologyRelationships
      (tableFqns joinPool) g₁) ∧
    (convention = true ↔ Fetched U (poolKeys U joinPool) settings.joinConventionEnabled fetch.conventionJoins
      (tableFqns joinPool) g₂)

omit [LinearOrder K] in
theorem exists_joinMode {fetch : Fetches K} {joinPool : List (TableCandidate K)} {g₁ g₂ g : JoinGraph K}
    (h : JoinGraph.Stages U settings fuel fetch joinPool g₁ g₂ g) (hfuel : (poolKeys U joinPool).length ≤ fuel) :
    ∃ mode, joinMode U fuel settings fetch joinPool = some mode ∧ ModeOf U settings fetch joinPool g₁ g₂ mode := by
  have hkeys : (poolKeys U joinPool).Nodup := nodup_keys_candMap U _ joinPool
  unfold joinMode
  by_cases hempty : tableFqns joinPool = []
  · have hnone (enabled : Bool) (fetchRels : List String → List (Rel K)) (g : JoinGraph K) :
        ¬ Fetched U (poolKeys U joinPool) enabled fetchRels (tableFqns joinPool) g := by
      intro hfetched
      rw [Fetched, JoinGraph.alone, hempty, List.filter_nil, List.length_nil] at hfetched
      exact absurd hfetched.2.1 (by omega)
    refine ⟨"empty", by rw [if_pos hempty]; rfl, false, false, false, rfl, ?_, ?_, ?_⟩
    · exact iff_of_false Bool.false_ne_true fun hfk => hfk.1 hempty
    · exact iff_of_false Bool.false_ne_true (hnone _ _ _)
    · exact iff_of_false Bool.false_ne_true (hnone _ _ _)
  · obtain ⟨ontology, hontology, honto⟩ := fallbackMode_eq U hkeys hfuel settings.joinOntologyEnabled "ontology"
      (if fetch.fkRelationships (tableFqns joinPool) = [] then "empty" else "fk_graph") fetch.ontologyRelationships
      (fun fqn => JoinGraph.lower_mem_poolKeys) h.partitioned₁
    obtain ⟨fk, hfk, hmode⟩ : ∃ fk : Bool, (fk = true ↔ fetch.fkRelationships (tableFqns joinPool) ≠ []) ∧
        (if fetch.fkRelationships (tableFqns joinPool) = [] then "empty" else "fk_graph") =
          modeText (segmentsOf fk false false) := by
      by_cases hnil : fetch.fkRelationships (tableFqns joinPool) = []
      · exact ⟨false, by simp [hnil], by rw [if_pos hnil]; rfl⟩
      · exact ⟨true, by simp [hnil], by rw [if_neg hnil]; rfl⟩
    rw [hmode] at honto
    have hsecond : (if ontology then appendJoinMode (modeText (segmentsOf fk false false)) "ontology"
        else modeText (segmentsOf fk false false)) = modeText (segmentsOf fk ontology false) := by
      cases ontology with
      | false => rfl
      | true => exact append_ontology fk
    rw [hsecond] at honto
    obtain ⟨convention, hconvention, hconv⟩ := fallbackMode_eq U hkeys hfuel settings.joinConventionEnabled
      "convention" (modeText (segmentsOf fk ontology false)) fetch.conventionJoins
      (fun fqn => JoinGraph.lower_mem_poolKeys) h.partitioned₂
    have hthird : (if convention then appendJoinMode (modeText (segmentsOf fk ontology false)) "convention"
        else modeText (segmentsOf fk ontology false)) = modeText (segmentsOf fk ontology convention) := by
      cases convention with
      | false => rfl
      | true => exact append_convention fk ontology
    rw [hthird] at hconv
    refine ⟨modeText (segmentsOf fk ontology convention), ?_, fk, ontology, convention, rfl, ?_, hontology,
      hconvention⟩
    · rw [if_neg hempty]
      dsimp only
      rw [h.fkStage_eq hempty]
      change (fallbackMode U fuel _ "ontology" _ _ g₁ _).bind _ = _
      rw [hmode, honto]
      change (ontologyStage U fuel settings fetch _ g₁).bind _ = _
      rw [h.ontologyStage_eq hempty]
      exact hconv
    · exact hfk.trans ⟨fun hne => ⟨hempty, hne⟩, And.right⟩

omit [LinearOrder K] in
/-- Where a bridge was recorded, the mode is not empty. -/
theorem ModeOf.ne_empty {fetch : Fetches K} {joinPool : List (TableCandidate K)} {g₁ g₂ g : JoinGraph K}
    {mode : String} (hmode : ModeOf U settings fetch joinPool g₁ g₂ mode)
    (h : JoinGraph.Stages U settings fuel fetch joinPool g₁ g₂ g) (hbridges : g.bridges ≠ []) : mode ≠ "empty" := by
  obtain ⟨fk, ontology, convention, rfl, hfk, hontology, hconvention⟩ := hmode.segments
  intro hempty
  obtain ⟨rfl, rfl, rfl⟩ := modeText_eq_empty hempty
  obtain ⟨b, hb⟩ := List.exists_mem_of_ne_nil _ hbridges
  rcases (h.mem_convention b).1 hb with hb | hb
  · rcases (h.mem_ontology b).1 hb with hb | hb
    · obtain ⟨hne, rel, hrel, -⟩ := (h.mem_fk b).1 hb
      exact absurd (hfk.2 ⟨hne, List.ne_nil_of_mem hrel⟩) (by decide)
    · exact absurd (hontology.2 (fetched_of_recorded U settings hb)) (by decide)
  · exact absurd (hconvention.2 (fetched_of_recorded U settings hb)) (by decide)

end

/-! ## The groups -/

omit [Field K] [LinearOrder K] in
theorem mem_dictSet {ν : Type*} {d : Dict String ν} {k : String} {v : ν} {item : String × ν} (h : item ∈ d.set k v) :
    item = (k, v) ∨ item ∈ d := by
  induction d with
  | nil => exact Or.inl (List.mem_singleton.1 h)
  | cons head d ih =>
    rw [Dict.set] at h
    split_ifs at h
    · exact (List.mem_cons.1 h).imp_right (List.mem_cons_of_mem head)
    · rcases List.mem_cons.1 h with rfl | h
      · exact Or.inr List.mem_cons_self
      · exact (ih h).imp_right (List.mem_cons_of_mem head)

omit [Field K] [LinearOrder K] in
/-- What is found under a key is an item of that name. -/
theorem mem_candMap {ν : Type*} {U : Unicode} {fqn : ν → Option String} {items : List ν} {item : String × ν}
    (h : item ∈ candMap U fqn items) : item.2 ∈ items ∧ (fqn item.2).map U.lower = some item.1 := by
  induction items using List.reverseRecOn with
  | nil => exact absurd h List.not_mem_nil
  | append_singleton items t ih =>
    have hold (h : item ∈ candMap U fqn items) :
        item.2 ∈ items ++ [t] ∧ (fqn item.2).map U.lower = some item.1 :=
      ⟨List.mem_append_left _ (ih h).1, (ih h).2⟩
    rw [candMap_concat] at h
    cases hname : fqn t with
    | none =>
      rw [hname] at h
      exact hold h
    | some name =>
      rw [hname] at h
      rcases mem_dictSet h with rfl | h
      · exact ⟨List.mem_append_right _ (List.mem_singleton_self t), by rw [hname]; rfl⟩
      · exact hold h

/-- A group joins two candidates or more, by bridges of the graph between them. -/
structure GroupOf (U : Unicode) (g : JoinGraph K) (cands : List (DecisionCandidate K)) (group : JoinGroup K) :
    Prop where
  two : 2 ≤ group.members.length
  members : ∀ m ∈ group.members, ∃ c ∈ cands, m = c.toTableKey
  joined : group.bridges ≠ []
  bridges : ∀ b ∈ group.bridges, ∃ recorded ∈ g.bridges, recorded.bridge = b ∧
    (∃ m ∈ group.members, m.groupKey U = recorded.fromKey) ∧ ∃ m ∈ group.members, m.groupKey U = recorded.toKey

theorem groupOf_joinGroupOf {U : Unicode} {g : JoinGraph K} {cands members : List (DecisionCandidate K)}
    (hmembers : ∀ m ∈ members, m ∈ cands) {group : JoinGroup K} (h : joinGroupOf U g members = .ok (some group)) :
    GroupOf U g cands group := by
  obtain ⟨⟨htwo, hne⟩, hkeys, hbridges⟩ := joinGroupOf_eq_some h
  refine ⟨by rwa [hkeys, List.length_map], fun m hm => ?_, by simpa [hbridges] using hne, fun b hb => ?_⟩
  · rw [hkeys] at hm
    obtain ⟨c, hc, rfl⟩ := List.mem_map.1 hm
    exact ⟨c, hmembers c hc, rfl⟩
  · rw [hbridges] at hb
    obtain ⟨recorded, hrecorded, rfl⟩ := List.mem_map.1 hb
    obtain ⟨hmem, hends⟩ := List.mem_filter.1 hrecorded
    rw [decide_eq_true_eq] at hends
    have hend {k : String} (hk : k ∈ members.map fun m => m.groupKey U) :
        ∃ m ∈ group.members, m.groupKey U = k := by
      obtain ⟨m, hm, rfl⟩ := List.mem_map.1 hk
      rw [hkeys]
      exact ⟨m.toTableKey, List.mem_map_of_mem hm, rfl⟩
    exact ⟨recorded, hmem, rfl, hend hends.1, hend hends.2⟩

theorem exists_joinGroups {U : Unicode} {g : JoinGraph K} {keys : List String} {fuel : ℕ} (hg : g.Partitioned keys)
    (hfuel : keys.length ≤ fuel) {cands : List (DecisionCandidate K)}
    (hcands : ∀ c ∈ cands, ∀ name, tableFqn c.schemaName c.tableName = some name → U.lower name ∈ keys) :
    ∃ result, joinGroups U fuel g cands = some result ∧
      (∀ groups, result = .ok groups → (groups ≠ [] → g.bridges ≠ []) ∧ ∀ group ∈ groups, GroupOf U g cands group) ∧
      ((∀ c ∈ cands, c.schemaName ≠ "") → ∃ groups, result = .ok groups) := by
  unfold joinGroups
  by_cases hnone : g.keys = [] ∨ g.bridges = []
  · rw [if_pos hnone]
    refine ⟨.ok [], rfl, fun groups hgroups => ?_, fun _ => ⟨[], rfl⟩⟩
    obtain rfl := Except.ok.inj hgroups
    exact ⟨absurd rfl, fun group hgroup => absurd hgroup List.not_mem_nil⟩
  · rw [if_neg hnone]
    have hkeys : ∀ item ∈ finalMap U cands, item.1 ∈ keys := by
      intro item hitem
      obtain ⟨hmem, hname⟩ := mem_candMap hitem
      obtain ⟨name, hname, hlower⟩ := Option.map_eq_some_iff.1 hname
      exact hlower ▸ hcands item.2 hmem name hname
    obtain ⟨groups, hgroups, hmem⟩ := groupsByRoot_eq_some hg hfuel hkeys
    have hsub : ∀ members ∈ groups, ∀ m ∈ members, m ∈ cands := by
      intro members hmembers m hm
      obtain ⟨k, -, rfl⟩ := (hmem members).1 hmembers
      obtain ⟨item, hitem, rfl⟩ := List.mem_map.1 hm
      exact (mem_candMap (List.mem_filter.1 hitem).1).1
    rw [hgroups]
    refine ⟨_, rfl, fun built hbuilt => ⟨fun _ hnil => hnone (Or.inr hnil), fun group hgroup => ?_⟩, fun hschema => ?_⟩
    · obtain ⟨parts, hparts, hbuilt⟩ := Except.bind_eq_ok.1 hbuilt
      obtain rfl := Except.ok.inj hbuilt
      obtain ⟨members, hmembers, hok⟩ := Except.exists_of_mem_mapM_eq_ok hparts (List.reduceOption_mem_iff.1 hgroup)
      exact groupOf_joinGroupOf (hsub members hmembers) hok
    · obtain ⟨parts, hparts, -⟩ := exists_mapM_joinGroupOf (U := U) (g := g)
        fun members hmembers _ m hm => hschema m (hsub members hmembers m hm)
      exact ⟨parts.reduceOption, by rw [hparts]; rfl⟩

/-! ## The run -/

section
variable (U : Unicode) (settings : Settings K) (deps : Deps K) (request : Request)

theorem clampOne_bounds (n : ℤ) : 1 ≤ clampOne n ∧ clampOne n ≤ 50 := by
  unfold clampOne
  omega

omit [Field K] [LinearOrder K] in
theorem topk_bounds : 1 ≤ (resolveDecisionPolicy settings request.tableLimit).topk ∧
    (resolveDecisionPolicy settings request.tableLimit).topk ≤ 50 := by
  unfold resolveDecisionPolicy
  split <;> exact clampOne_bounds _

theorem length_mergedFull_le : (search U settings deps request
    (resolveDecisionPolicy settings request.tableLimit)).mergedFull.length ≤ max 50 settings.decisionTopk := by
  unfold search
  dsimp only
  split_ifs
  · refine le_max_of_le_right ?_
    unfold decideKeyword
    dsimp only
    split_ifs
    · exact Nat.zero_le _
    · rw [List.length_map]
      exact List.length_take_le _ _
  · exact le_max_of_le_left (length_mergeCandidates_le.trans (topk_bounds settings request).2)

omit [Field K] [LinearOrder K] in
theorem length_poolKeys_le (joinPool : List (TableCandidate K)) : (poolKeys U joinPool).length ≤ joinPool.length := by
  have hsub : poolKeys U joinPool ⊆ (joinPool.filterMap fun t => tableFqn t.schema t.name).map U.lower :=
    fun k hk => List.mem_map.2 (mem_keys_candMap.1 hk)
  calc (poolKeys U joinPool).length
      ≤ ((joinPool.filterMap fun t => tableFqn t.schema t.name).map U.lower).length :=
        ((nodup_keys_candMap U _ joinPool).subperm hsub).length_le
    _ ≤ joinPool.length := by
        rw [List.length_map]
        exact List.length_filterMap_le _ _

/-- What is found for the request. -/
def found : Search K := search U settings deps request (resolveDecisionPolicy settings request.tableLimit)

/-- The pool whose tables are joined. -/
def tablePool : List (TableCandidate K) := (found U settings deps request).joinPool.map SearchedTable.toTableCandidate

/-- The candidates, given the join graph. -/
def answered (g : JoinGraph K) : List (Candidate K) :=
  candidatesOf U settings deps request (found U settings deps request).hydeOut
    (finalMerged U settings deps (resolveDecisionPolicy settings request.tableLimit) (found U settings deps request) g)

theorem length_tablePool_le : (tablePool U settings deps request).length ≤ max 50 settings.decisionTopk := by
  rw [tablePool, List.length_map, found, search_joinPool]
  exact length_mergedFull_le U settings deps request

omit [LinearOrder K] in
theorem candidatesOf_eq_map (hydeOut : Option HydeSchemaOut) (tables : List (SearchedTable K)) :
    ∃ columns : SearchedTable K → List (MatchedColumn K), candidatesOf U settings deps request hydeOut tables =
      tables.map fun t => { candidateOf U settings deps t with matchedColumns := columns t } := by
  unfold candidatesOf
  split_ifs
  · exact ⟨_, rfl⟩
  · exact ⟨fun _ => [], rfl⟩

theorem mem_answered {g : JoinGraph K} {c : Candidate K} (h : c ∈ answered U settings deps request g) :
    ∃ t ∈ (found U settings deps request).mergedFull, c.schemaName = t.schema ∧ c.tableName = t.name ∧
      c.score = t.score ∧ c.targetClass = subjectAreaToTargetClass c.subjectArea := by
  unfold answered at h
  obtain ⟨columns, hmap⟩ := candidatesOf_eq_map U settings deps request (found U settings deps request).hydeOut
    (finalMerged U settings deps (resolveDecisionPolicy settings request.tableLimit) (found U settings deps request) g)
  rw [hmap] at h
  obtain ⟨t, ht, rfl⟩ := List.mem_map.1 h
  exact ⟨t, (returned_finalMerged U settings deps request _ g).mem t ht, rfl, rfl, rfl, rfl⟩

/-- What a decision goes through, up to its response. -/
structure Decided (fuel : ℕ) (response : Response K) (g₁ g₂ g : JoinGraph K) (mode : String) : Prop where
  stages : JoinGraph.Stages U settings.join fuel (deps.graph.fetches U settings.fetch)
    (tablePool U settings deps request) g₁ g₂ g
  segments : ModeOf U settings.join (deps.graph.fetches U settings.fetch) (tablePool U settings deps request) g₁ g₂ mode
  candidates : response.candidates = answered U settings deps request g
  target : (response.target, response.confidence) = classifyTarget settings response.candidates
  secondary : response.secondaryTargets = collectSecondary response.target response.candidates
  groups : joinGroups U fuel g (response.candidates.map Candidate.toDecisionCandidate) =
    some (.ok response.joinGroups)
  thresholdUsed : response.thresholdUsed = DecisionService.thresholdUsed settings request
    (resolveDecisionPolicy settings request.tableLimit) (found U settings deps request)
    (finalMerged U settings deps (resolveDecisionPolicy settings request.tableLimit) (found U settings deps request) g)
    (if response.joinGroups = [] then "empty" else mode)

theorem lower_mem_of_answered {g : JoinGraph K} :
    ∀ c ∈ (answered U settings deps request g).map Candidate.toDecisionCandidate, ∀ name,
      tableFqn c.schemaName c.tableName = some name →
        U.lower name ∈ poolKeys U (tablePool U settings deps request) := by
  intro c hc name hname
  obtain ⟨cand, hcand, rfl⟩ := List.mem_map.1 hc
  obtain ⟨t, ht, hschema, htable, -⟩ := mem_answered U settings deps request hcand
  refine mem_keys_candMap.2 ⟨name, List.mem_filterMap.2 ⟨t.toTableCandidate, ?_, ?_⟩, rfl⟩
  · refine List.mem_map_of_mem ?_
    rw [found, search_joinPool]
    exact ht
  · rw [← hschema, ← htable]
    exact hname

variable {fuel : ℕ} (hfuel : max 50 settings.decisionTopk ≤ fuel)
include hfuel

theorem length_poolKeys_le_fuel : (poolKeys U (tablePool U settings deps request)).length ≤ fuel :=
  (length_poolKeys_le U _).trans ((length_tablePool_le U settings deps request).trans hfuel)

/-- The run comes to its end, whatever the graph. -/
theorem exists_run : ∃ g₁ g₂ g : JoinGraph K, ∃ mode groups,
    JoinGraph.Stages U settings.join fuel (deps.graph.fetches U settings.fetch)
      (tablePool U settings deps request) g₁ g₂ g ∧
    ModeOf U settings.join (deps.graph.fetches U settings.fetch) (tablePool U settings deps request) g₁ g₂ mode ∧
    joinGroups U fuel g ((answered U settings deps request g).map Candidate.toDecisionCandidate) = some groups ∧
    ((∀ c ∈ answered U settings deps request g, c.schemaName ≠ "") → ∃ built, groups = .ok built) ∧
    decide U settings deps request fuel = some (do
      let groups ← groups
      let resolution ← resolutionOf U settings deps request (found U settings deps request).hydeOut
      let cands := answered U settings deps request g
      return {
        target := (classifyTarget settings cands).1
        secondaryTargets := collectSecondary (classifyTarget settings cands).1 cands
        confidence := (classifyTarget settings cands).2
        candidates := cands
        joinGroups := groups
        thresholdUsed := thresholdUsed settings request (resolveDecisionPolicy settings request.tableLimit)
          (found U settings deps request) (finalMerged U settings deps
            (resolveDecisionPolicy settings request.tableLimit) (found U settings deps request) g)
          (if groups = [] then "empty" else mode)
        resolvedEntities := resolution.resolved
        suggestedProbes := resolution.probes
        resolutionStatus := resolution.status }) := by
  have hkeys := length_poolKeys_le_fuel U settings deps request hfuel
  obtain ⟨g₁, g₂, g, hstages⟩ := JoinGraph.exists_stages U settings.join (deps.graph.fetches U settings.fetch)
    (tablePool U settings deps request) hkeys
  obtain ⟨mode, hmode, hmodeOf⟩ := exists_joinMode U settings.join hstages hkeys
  obtain ⟨groups, hgroups, -, hok⟩ := exists_joinGroups hstages.partitioned hkeys
    (lower_mem_of_answered U settings deps request)
  refine ⟨g₁, g₂, g, mode, groups, hstages, hmodeOf, hgroups, fun hschema => hok fun c hc => ?_, ?_⟩
  · obtain ⟨cand, hcand, rfl⟩ := List.mem_map.1 hc
    exact hschema cand hcand
  · unfold decide
    dsimp only
    change (joinGraph U fuel settings.join _ (tablePool U settings deps request)).bind _ = _
    rw [hstages.joinGraph_eq, Option.bind_some]
    change (joinMode U fuel settings.join _ (tablePool U settings deps request)).bind _ = _
    rw [hmode, Option.bind_some]
    change (joinGroups U fuel g ((answered U settings deps request g).map Candidate.toDecisionCandidate)).bind _ = _
    rw [hgroups, Option.bind_some]
    rfl

theorem exists_decided {response : Response K} (h : decide U settings deps request fuel = some (.ok response)) :
    ∃ g₁ g₂ g mode, Decided U settings deps request fuel response g₁ g₂ g mode := by
  obtain ⟨g₁, g₂, g, mode, groups, hstages, hmode, hgroups, -, hrun⟩ := exists_run U settings deps request hfuel
  rw [hrun] at h
  obtain ⟨built, hbuilt, hrest⟩ := Except.bind_eq_ok.1 (Option.some.inj h)
  obtain ⟨resolution, -, hresponse⟩ := Except.bind_eq_ok.1 hrest
  obtain rfl := Except.ok.inj hresponse
  rw [hbuilt] at hgroups
  exact ⟨g₁, g₂, g, mode, hstages, hmode, rfl, rfl, rfl, hgroups, rfl⟩

end

/-! ## The candidates -/

section
variable {U : Unicode} {settings : Settings K} {deps : Deps K} {request : Request}

/-- The search by words is tried iff nothing is found by vector. -/
theorem found_fallback : (found U settings deps request).fallback = none ↔
    vectorPool U settings deps request (resolveDecisionPolicy settings request.tableLimit) ≠ [] := by
  unfold found search
  dsimp only
  split_ifs with hnil
  · exact iff_of_false (by simp) fun hne => hne (prune_eq_nil.1 hnil)
  · exact iff_of_true rfl fun hpool => hnil (prune_eq_nil.2 hpool)

/-- What is found is a table of the graph that exists, and of an allowed schema where it was found by vector. -/
theorem mem_found (hsound : deps.store.Sound) {t : SearchedTable K}
    (h : t ∈ (found U settings deps request).mergedFull) : ∃ v ∈ deps.store.tables, t = v.row t.score ∧
      v.dbExists.getD true = true ∧ ((found U settings deps request).fallback = none →
        v.eligible deps.store.toLower (schemaFilterLower U settings.decisionSchemaAllowlist) = true) := by
  unfold found search at h
  dsimp only at h
  split_ifs at h with hnil
  · obtain ⟨v, hv, hexists, -, ht⟩ := mem_decideKeyword h
    exact ⟨v, hv, ht, hexists, fun hnone => absurd (prune_eq_nil.1 hnil) (found_fallback.1 hnone)⟩
  · obtain ⟨v, hv, heligible, ht⟩ := mem_vectorPool hsound h
    refine ⟨v, hv, ht, ?_, fun _ => heligible⟩
    unfold TableVertex.eligible at heligible
    rw [Bool.and_eq_true_iff, Bool.and_eq_true_iff] at heligible
    exact heligible.1.2

/-- A candidate is a table of the graph that exists. -/
structure Candidate.Of (c : Candidate K) (v : TableVertex K) : Prop where
  schema : c.schemaName = v.schema.getD ""
  name : c.tableName = v.name.getD ""
  dbExists : v.dbExists.getD true = true

/-- What holds of the candidates of a response. -/
structure Response.Admissible (U : Unicode) (settings : Settings K) (store : VectorStore K) (response : Response K) :
    Prop where
  stored : ∀ c ∈ response.candidates, ∃ v ∈ store.tables, Candidate.Of c v ∧ (response.thresholdUsed.fallback = none →
    v.eligible store.toLower (schemaFilterLower U settings.decisionSchemaAllowlist) = true)
  sorted : response.candidates.Pairwise fun a b => b.score ≤ a.score
  topk : response.candidates.length ≤ response.thresholdUsed.topk
  tableMax : ∀ n, response.thresholdUsed.tableMax = some n → response.thresholdUsed.mergedFinal ≠ none →
    response.candidates.length ≤ n
  nil : response.candidates = [] ↔ response.thresholdUsed.mergedFull = 0

theorem length_finalMerged_le {policy : Policy K} {found : Search K} {g : JoinGraph K} (hmax : 0 < policy.tableMax)
    (hnamed : tableFqns (found.joinPool.map SearchedTable.toTableCandidate) ≠ []) :
    (finalMerged U settings deps policy found g).length ≤ policy.tableMax := by
  unfold finalMerged cutTables
  rw [if_neg hnamed, if_pos hmax]
  exact List.length_take_le _ _

variable (request) in
/-- **What is offered exists.**  Every candidate is a table of the graph that exists,
    and of an allowed schema unless nothing was found by vector; the candidates stand
    in the order of their scores and within the limits, and there are some iff
    anything was found. -/
theorem decide_candidates (hsound : deps.store.Sound) {fuel : ℕ} (hfuel : max 50 settings.decisionTopk ≤ fuel)
    {response : Response K} (h : decide U settings deps request fuel = some (.ok response)) :
    response.Admissible U settings deps.store := by
  obtain ⟨g₁, g₂, g, mode, hdecided⟩ := exists_decided U settings deps request hfuel h
  have hreturned := returned_finalMerged U settings deps request (resolveDecisionPolicy settings request.tableLimit) g
  obtain ⟨columns, hmap⟩ := candidatesOf_eq_map U settings deps request (found U settings deps request).hydeOut
    (finalMerged U settings deps (resolveDecisionPolicy settings request.tableLimit) (found U settings deps request) g)
  have hcands : response.candidates = _ := hdecided.candidates.trans hmap
  have hlength := congrArg List.length hcands
  rw [List.length_map] at hlength
  refine ⟨fun c hc => ?_, ?_, ?_, fun n hn hnamed => ?_, ?_⟩
  · rw [hdecided.candidates] at hc
    obtain ⟨t, ht, hschema, hname, -⟩ := mem_answered U settings deps request hc
    obtain ⟨v, hv, hrow, hexists, heligible⟩ := mem_found hsound ht
    rw [hrow] at hschema hname
    exact ⟨v, hv, ⟨hschema, hname, hexists⟩, by rwa [hdecided.thresholdUsed]⟩
  · rw [hcands, List.pairwise_map]
    exact hreturned.sorted
  · rw [hlength, hdecided.thresholdUsed]
    have htopk := (topk_bounds settings request).1
    have hle := hreturned.length
    change (finalMerged U settings deps _ (found U settings deps request) g).length ≤ _ at hle
    change _ ≤ (resolveDecisionPolicy settings request.tableLimit).topk
    omega
  · rw [hdecided.thresholdUsed] at hn hnamed
    simp only [DecisionService.thresholdUsed, ite_eq_left_iff, reduceCtorEq, imp_false, not_not,
      Option.ite_none_left_eq_some, Option.some.injEq, ne_eq] at hn hnamed
    obtain ⟨hpos, rfl⟩ := hn
    rw [hlength]
    exact length_finalMerged_le (Nat.pos_of_ne_zero hpos) hnamed
  · rw [hcands, List.map_eq_nil_iff, hdecided.thresholdUsed]
    change _ ↔ (found U settings deps request).mergedFull.length = 0
    rw [List.length_eq_zero_iff]
    exact hreturned.nil

end

/-! ## The targets -/

section
variable {settings : Settings K} {top : TargetTop} {cands : List (Candidate K)} {seen : List TargetClass}
  {c : TargetClass}

omit [Field K] [LinearOrder K] in
theorem addSecondary_eq (cand : Candidate K) : addSecondary top seen cand =
    if cand.targetClass ≠ .mixed ∧ cand.targetClass ≠ .unknown ∧ top.toClass? ≠ some cand.targetClass ∧
      cand.targetClass ∉ seen then seen ++ [cand.targetClass] else seen := by
  unfold addSecondary
  cases hclass : cand.targetClass <;> by_cases htop : top.toClass? = some cand.targetClass <;>
    by_cases hseen : cand.targetClass ∈ seen <;> simp_all

omit [Field K] [LinearOrder K] in
theorem mem_collectSecondary : c ∈ collectSecondary top cands ↔
    c ≠ .mixed ∧ c ≠ .unknown ∧ top.toClass? ≠ some c ∧ ∃ cand ∈ cands, cand.targetClass = c := by
  suffices hloop : ∀ seen, c ∈ cands.foldl (addSecondary top) seen ↔ c ∈ seen ∨
      c ≠ .mixed ∧ c ≠ .unknown ∧ top.toClass? ≠ some c ∧ ∃ cand ∈ cands, cand.targetClass = c from
    (hloop []).trans (or_iff_right List.not_mem_nil)
  induction cands with
  | nil => simp
  | cons cand cands ih =>
    intro seen
    rw [List.foldl_cons, ih, addSecondary_eq, List.exists_mem_cons_iff]
    by_cases hc : cand.targetClass = c
    · subst hc
      by_cases hseen : cand.targetClass ∈ seen
      · simp [hseen]
      · by_cases hnew : cand.targetClass ≠ .mixed ∧ cand.targetClass ≠ .unknown ∧
          top.toClass? ≠ some cand.targetClass
        · simp [hseen, hnew]
        · rw [if_neg fun hadd => hnew ⟨hadd.1, hadd.2.1, hadd.2.2.1⟩]
          exact or_congr_right ⟨fun hold => absurd ⟨hold.1, hold.2.1, hold.2.2.1⟩ hnew,
            fun hold => absurd ⟨hold.1, hold.2.1, hold.2.2.1⟩ hnew⟩
    · rw [or_iff_right hc]
      refine or_congr_left ?_
      split_ifs
      · rw [List.mem_append, List.mem_singleton, or_iff_left (Ne.symm hc)]
      · rfl

omit [Field K] [LinearOrder K] in
theorem nodup_collectSecondary : (collectSecondary top cands).Nodup := by
  suffices hloop : ∀ seen : List TargetClass, seen.Nodup → (cands.foldl (addSecondary top) seen).Nodup from
    hloop [] List.nodup_nil
  induction cands with
  | nil => exact fun seen hseen => hseen
  | cons cand cands ih =>
    intro seen hseen
    rw [List.foldl_cons, addSecondary_eq]
    refine ih _ ?_
    split_ifs with hadd
    · exact List.nodup_append.2 ⟨hseen, List.nodup_singleton _, fun a ha b hb hab =>
        hadd.2.2.2 (List.mem_singleton.1 hb ▸ hab ▸ ha)⟩
    · exact hseen

/-- The class of a candidate is that of its area. -/
def Classed (cands : List (Candidate K)) : Prop :=
  ∀ cand ∈ cands, cand.targetClass = subjectAreaToTargetClass cand.subjectArea

omit [Field K] [LinearOrder K] in
theorem one_le_count {area : SubjectArea} : 1 ≤ (cands.map fun cand => cand.subjectArea).count area ↔
    ∃ cand ∈ cands, cand.subjectArea = area := by
  rw [Nat.one_le_iff_ne_zero, ← Nat.pos_iff_ne_zero, List.count_pos_iff, List.mem_map]

/-- How the first target and the confidence follow from the candidates. -/
structure TargetOf (settings : Settings K) (cands : List (Candidate K)) (target : TargetTop) (confidence : K) :
    Prop where
  topScore : confidence = (cands.head?.map fun cand => cand.score).getD 0
  none : target = .none ↔ cands = []
  analytic : target = .analytic ↔ (∃ cand ∈ cands, cand.targetClass = .analytic) ∧
    settings.decisionAnalyticThreshold ≤ confidence
  source : target = .source ↔ target ≠ .analytic ∧ (∃ cand ∈ cands, cand.targetClass = .source) ∧
    settings.decisionSourceThreshold ≤ confidence

variable (settings) in
theorem targetOf_classifyTarget (hclassed : Classed cands) :
    TargetOf settings cands (classifyTarget settings cands).1 (classifyTarget settings cands).2 := by
  have hanalytic : 1 ≤ (cands.map fun cand => cand.subjectArea).count .agg ↔
      ∃ cand ∈ cands, cand.targetClass = .analytic := by
    rw [one_le_count]
    refine exists_congr fun cand => and_congr_right fun hmem => ?_
    rw [hclassed cand hmem]
    cases cand.subjectArea <;> decide
  have hsource : 1 ≤ (cands.map fun cand => cand.subjectArea).count .raw +
      (cands.map fun cand => cand.subjectArea).count .master + (cands.map fun cand => cand.subjectArea).count .code ↔
      ∃ cand ∈ cands, cand.targetClass = .source := by
    have hone (a b c : ℕ) : 1 ≤ a + b + c ↔ 1 ≤ a ∨ 1 ≤ b ∨ 1 ≤ c := by omega
    rw [hone, one_le_count, one_le_count, one_le_count, ← exists_or, ← exists_or]
    refine exists_congr fun cand => ?_
    rw [← and_or_left, ← and_or_left]
    refine and_congr_right fun hmem => ?_
    rw [hclassed cand hmem]
    cases cand.subjectArea <;> decide
  cases cands with
  | nil => exact ⟨rfl, by simp [classifyTarget], by simp [classifyTarget], by simp [classifyTarget]⟩
  | cons cand rest =>
    unfold classifyTarget
    dsimp only
    split_ifs with ha hs
    · rw [hanalytic] at ha
      exact ⟨rfl, by simp, iff_of_true rfl ha, by simp⟩
    · rw [hanalytic] at ha
      rw [hsource] at hs
      exact ⟨rfl, by simp, iff_of_false (by simp) ha, iff_of_true rfl ⟨by simp, hs⟩⟩
    · rw [hanalytic] at ha
      rw [hsource] at hs
      exact ⟨rfl, by simp, iff_of_false (by simp) ha, iff_of_false (by simp) fun h => hs h.2⟩

/-- What the targets of a response say of its candidates. -/
structure Response.Targeted (settings : Settings K) (response : Response K) : Prop where
  target : TargetOf settings response.candidates response.target response.confidence
  nodup : response.secondaryTargets.Nodup
  secondary : ∀ c, c ∈ response.secondaryTargets ↔ c ≠ .mixed ∧ c ≠ .unknown ∧
    response.target.toClass? ≠ some c ∧ ∃ cand ∈ response.candidates, cand.targetClass = c

variable {U : Unicode} {deps : Deps K} (request : Request)

/-- **The targets.**  The first target is read off the classes of all candidates and
    the score of the first one; the others are the remaining classes, once each. -/
theorem decide_targets {fuel : ℕ} (hfuel : max 50 settings.decisionTopk ≤ fuel) {response : Response K}
    (h : decide U settings deps request fuel = some (.ok response)) : response.Targeted settings := by
  obtain ⟨g₁, g₂, g, mode, hdecided⟩ := exists_decided U settings deps request hfuel h
  have hclassed : Classed response.candidates := by
    intro cand hcand
    rw [hdecided.candidates] at hcand
    obtain ⟨-, -, -, -, -, hclass⟩ := mem_answered U settings deps request hcand
    exact hclass
  refine ⟨?_, ?_, fun c => ?_⟩
  · have htarget := targetOf_classifyTarget settings hclassed
    rwa [← hdecided.target] at htarget
  · rw [hdecided.secondary]
    exact nodup_collectSecondary
  · rw [hdecided.secondary]
    exact mem_collectSecondary

end

/-! ## The groups of a response -/

section
variable {U : Unicode} {settings : Settings K} {deps : Deps K} (request : Request)

/-- What holds of the groups of a response: each joins candidates, by bridges that the graph bears out. -/
structure Response.Joined (U : Unicode) (settings : Settings K) (graph : PoolGraph K) (response : Response K) :
    Prop where
  group : ∀ group ∈ response.joinGroups, 2 ≤ group.members.length ∧ group.bridges ≠ [] ∧
    ∀ m ∈ group.members, ∃ c ∈ response.candidates, m = c.toTableKey
  bridge : ∀ group ∈ response.joinGroups, ∀ b ∈ group.bridges, ∃ recorded : RecordedBridge K,
    graph.Witnessed U settings.fetch settings.join recorded ∧ recorded.bridge = b ∧
      (∃ m ∈ group.members, m.groupKey U = recorded.fromKey) ∧ ∃ m ∈ group.members, m.groupKey U = recorded.toKey
  mode : response.thresholdUsed.joinGroupsMode = "empty" ↔ response.joinGroups = []

/-- **The groups.**  Every group joins candidates of the response by bridges between
    them, each of them a foreign key, an allowed relationship or a shared column of the
    graph; the mode is empty iff there is no group. -/
theorem decide_groups {fuel : ℕ} (hfuel : max 50 settings.decisionTopk ≤ fuel) {response : Response K}
    (h : decide U settings deps request fuel = some (.ok response)) :
    response.Joined U settings deps.graph := by
  obtain ⟨g₁, g₂, g, mode, hdecided⟩ := exists_decided U settings deps request hfuel h
  obtain ⟨result, hresult, hgroups, -⟩ := exists_joinGroups hdecided.stages.partitioned
    (length_poolKeys_le_fuel U settings deps request hfuel)
    (lower_mem_of_answered U settings deps request (g := g))
  rw [← hdecided.candidates, hdecided.groups] at hresult
  obtain ⟨hbridges, hgroups⟩ := hgroups response.joinGroups (Option.some.inj hresult).symm
  refine ⟨fun group hgroup => ?_, fun group hgroup b hb => ?_, ?_⟩
  · obtain ⟨htwo, hmembers, hne, -⟩ := hgroups group hgroup
    refine ⟨htwo, hne, fun m hm => ?_⟩
    obtain ⟨c, hc, rfl⟩ := hmembers m hm
    obtain ⟨cand, hcand, rfl⟩ := List.mem_map.1 hc
    exact ⟨cand, hdecided.candidates ▸ hcand, rfl⟩
  · obtain ⟨recorded, hmem, hbridge, hends⟩ := (hgroups group hgroup).bridges b hb
    exact ⟨recorded, PoolGraph.witnessed_of_stages U settings.join hdecided.stages recorded hmem, hbridge, hends⟩
  · rw [hdecided.thresholdUsed]
    change (if response.joinGroups = [] then "empty" else mode) = "empty" ↔ _
    split_ifs with hnil
    · exact iff_of_true rfl hnil
    · exact iff_of_false (hdecided.segments.ne_empty U settings.join hdecided.stages (hbridges hnil)) hnil

variable (U settings) in
/-- **It comes back.**  Whatever the graph, fuel for as many tables as are searched for
    suffices; and where all tables have a schema and the entities are resolved, the
    answer is a response. -/
theorem decide_eq_some (hsound : deps.store.Sound) {fuel : ℕ} (hfuel : max 50 settings.decisionTopk ≤ fuel) :
    ∃ result, decide U settings deps request fuel = some result ∧
      ((∀ v ∈ deps.store.tables, v.schema.getD "" ≠ "") →
        (∀ hydeOut, ∃ resolution, resolutionOf U settings deps request hydeOut = .ok resolution) →
          ∃ response, result = .ok response) := by
  obtain ⟨g₁, g₂, g, mode, groups, -, -, -, hok, hrun⟩ := exists_run U settings deps request hfuel
  refine ⟨_, hrun, fun hschema hresolution => ?_⟩
  obtain ⟨built, rfl⟩ := hok fun c hc => by
    obtain ⟨t, ht, hc, -⟩ := mem_answered U settings deps request hc
    obtain ⟨v, hv, hrow, -⟩ := mem_found hsound ht
    rw [hc, hrow]
    exact hschema v hv
  obtain ⟨resolution, hresolution⟩ := hresolution (found U settings deps request).hydeOut
  rw [hresolution]
  exact ⟨_, rfl⟩

end

/-! ## Two tables, without a language model -/

def keywordSettings : Settings ℚ where
  openaiEnabled := false
  decisionTopk := 10
  decisionTableMax := 0
  decisionColumnTopM := 10
  decisionScoreGapRatio := 17 / 20
  decisionScoreMinStep := 3 / 250
  decisionScoreTopRadius := 1 / 100
  decisionJoinExpand := true
  decisionJoinExpandVia := ["fk"]
  decisionMatchColumns := true
  decisionAnalyticThreshold := 7 / 10
  decisionSourceThreshold := 11 / 20
  decisionSchemaAllowlist := []
  metaDbLabel := "RWIS"
  entityResolutionEnabled := false
  weights := { hydeWeight := 3 / 5, questionWeight := 2 / 5 }
  join := joinDefaults
  fetch := fetchDefaults

/-- `rwis.measure` refers to `rwis.tag`. -/
def measureDeps : Deps ℚ where
  store := {
    tables := [{ id := 1, schema := some "rwis", name := some "measure" },
      { id := 2, schema := some "rwis", name := some "tag" },
      { id := 3, schema := some "rwis", name := some "tag_old", dbExists := some false }]
    toLower := asciiLower
    cosine := fun _ _ => 0
    queryNodes := fun _ _ => .error "no index" }
  graph := {
    toLower := asciiLower
    tables := [{ id := 1, schema := some "rwis", name := some "measure" },
      { id := 2, schema := some "rwis", name := some "tag" }]
    columns := [{ id := 11, name := some "tag_id" }, { id := 12, name := some "tag_id" }]
    hasColumn := [⟨21, 1, 11⟩, ⟨22, 2, 12⟩]
    fkTo := [⟨31, 11, 12⟩]
    relations := []
    order := fun rows => rows
    order_perm := fun rows => List.Perm.refl rows }
  columns := flowGraph [flowTable]
  labels := ⟨fun _ _ _ => none, fun _ => none⟩
  model := ⟨fun _ => true, fun _ => none, .ok, "0.00", fun _ => .ok []⟩
  probe := ⟨{}, none, none, fun _ _ => []⟩
  order := SetOrder.insertion
  caseFold := CaseFold.ascii

theorem sound_measureDeps : measureDeps.store.Sound := by
  intro k embedding hits hquery
  cases hquery

def measureRequest : Request where
  query := "tag values of the measure table"

/-- There are two candidates and a group. -/
def joinsTwo : Except PyError (Response ℚ) → Bool
  | .ok response => response.candidates.length = 2 && response.joinGroups.length = 1
  | .error _ => false

theorem exists_decide_measure : ∃ response, decide .ascii keywordSettings measureDeps measureRequest 50 =
    some (.ok response) ∧ response.candidates.length = 2 ∧ response.joinGroups.length = 1 := by
  have hrun : (decide .ascii keywordSettings measureDeps measureRequest 50).any joinsTwo = true := by decide +kernel
  obtain ⟨result, hresult, hjoins⟩ := (Option.any_eq_true _ _).1 hrun
  cases result with
  | error e => cases hjoins
  | ok response =>
    rw [joinsTwo, Bool.and_eq_true_iff, decide_eq_true_eq, decide_eq_true_eq] at hjoins
    exact ⟨response, hresult, hjoins⟩

theorem decide_eq_some_measure : ∃ response,
    decide .ascii keywordSettings measureDeps measureRequest 50 = some (.ok response) := by
  obtain ⟨result, hrun, hok⟩ := decide_eq_some .ascii keywordSettings measureRequest sound_measureDeps (le_refl 50)
  obtain ⟨response, rfl⟩ := hok (by decide) fun _ => ⟨_, rfl⟩
  exact ⟨response, hrun⟩

theorem decide_candidates_measure : ∃ response,
    decide .ascii keywordSettings measureDeps measureRequest 50 = some (.ok response) ∧
      response.candidates.length = 2 ∧ response.Admissible .ascii keywordSettings measureDeps.store := by
  obtain ⟨response, hrun, htwo, -⟩ := exists_decide_measure
  exact ⟨response, hrun, htwo, decide_candidates measureRequest sound_measureDeps (by decide) hrun⟩

theorem decide_targets_measure : ∃ response,
    decide .ascii keywordSettings measureDeps measureRequest 50 = some (.ok response) ∧
      response.candidates.length = 2 ∧ response.Targeted keywordSettings := by
  obtain ⟨response, hrun, htwo, -⟩ := exists_decide_measure
  exact ⟨response, hrun, htwo, decide_targets measureRequest (by decide) hrun⟩

theorem decide_groups_measure : ∃ response,
    decide .ascii keywordSettings measureDeps measureRequest 50 = some (.ok response) ∧
      response.joinGroups.length = 1 ∧ response.Joined .ascii keywordSettings measureDeps.graph := by
  obtain ⟨response, hrun, -, hone⟩ := exists_decide_measure
  exact ⟨response, hrun, hone, decide_groups measureRequest (by decide) hrun⟩

end DecisionService

end RoboMeta
