/-
  The two stores of `/v2/data_decision` (`services/v2_store.py`).

  The tests run on the collections of `InMemoryV2Store`, the service on the
  tables of `PostgresV2Store`.  Of one content they answer alike, but that the
  collections list unpublished artifacts too; these are rejected later, and all
  that is left of them are blockers of a blocked bundle.

  * `Holds`: the collections hold what the tables hold; `holds_inMemory`: they do
    if they are made of the tables;
  * `Holds.update`: they still do after an update of both;
  * `selectArtifacts_published`, `assembleBundle_published`: what the unpublished
    artifacts make of a selection and of a bundle;
  * `run_refines`: in every interleaving the service answers over the tables what
    it answers over the collections, without blockers for unpublished artifacts.
-/
import RoboMeta.DecisionRuns

namespace RoboMeta

section
variable {K : Type}

/-! ## One content in two forms -/

/-- The collections hold what the tables hold; ids are keys, and a snapshot is owned by the tenant of its row. -/
structure InMemoryV2Store.Holds (m : InMemoryV2Store K) (p : PostgresV2Store K) : Prop where
  artifacts : m.artifacts = p.semanticArtifacts.map ArtifactRow.record
  artifactKeys : (p.semanticArtifacts.map ArtifactRow.artifactId).Nodup
  embeddings : ∀ id, (m.embeddings.get? id).getD [] =
    (p.artifactEmbeddingRows.filter fun row => row.1 = id).map Prod.snd
  snapshots : ∀ id snapshot, (id, snapshot) ∈ m.snapshots ↔
    ∃ row ∈ p.physicalSnapshots, row.snapshotId = id ∧ row.canonicalPayload = snapshot
  snapshotKeys : (p.physicalSnapshots.map SnapshotRow.snapshotId).Nodup
  keys : (m.snapshots.map Prod.fst).Nodup
  owned : ∀ row ∈ p.physicalSnapshots, row.canonicalPayload.tenantId = some row.tenantId
  glossary : m.glossary = p.glossary

/-- The keys of the tables, and the owners of the snapshots. -/
structure PostgresV2Store.Keyed (p : PostgresV2Store K) : Prop where
  artifacts : (p.semanticArtifacts.map ArtifactRow.artifactId).Nodup
  snapshots : (p.physicalSnapshots.map SnapshotRow.snapshotId).Nodup
  owned : ∀ row ∈ p.physicalSnapshots, row.canonicalPayload.tenantId = some row.tenantId

/-- The collections that are made of the tables. -/
def PostgresV2Store.inMemory (p : PostgresV2Store K) : InMemoryV2Store K where
  artifacts := p.semanticArtifacts.map ArtifactRow.record
  embeddings := groupBy Prod.fst Prod.snd p.artifactEmbeddingRows
  snapshots := p.physicalSnapshots.map fun row => (row.snapshotId, row.canonicalPayload)
  glossary := p.glossary

/-- What a grouping has under a key, if anything. -/
theorem getD_groupBy {α κ ν : Type*} [DecidableEq κ] (key : α → κ) (value : α → ν) (items : List α) (k : κ) :
    ((groupBy key value items).get? k).getD [] = (items.filter fun x => key x = k).map value := by
  rw [get?_groupBy]
  split_ifs with hk
  · rfl
  · symm
    refine List.map_eq_nil_iff.2 (List.filter_eq_nil_iff.2 fun x hx heq => ?_)
    exact hk (List.mem_map.2 ⟨x, hx, of_decide_eq_true heq⟩)

theorem PostgresV2Store.Keyed.holds_inMemory {p : PostgresV2Store K} (h : p.Keyed) : p.inMemory.Holds p where
  artifacts := rfl
  artifactKeys := h.artifacts
  embeddings := getD_groupBy Prod.fst Prod.snd p.artifactEmbeddingRows
  snapshots id snapshot := by
    unfold inMemory
    simp only [List.mem_map, Prod.mk.injEq]
  snapshotKeys := h.snapshots
  keys := by
    unfold inMemory
    rw [List.map_map]
    exact h.snapshots
  owned := h.owned
  glossary := rfl

/-! ## What the stores answer -/

namespace InMemoryV2Store.Holds

variable {m : InMemoryV2Store K} {p : PostgresV2Store K} (h : m.Holds p) (tenantId : String)
include h

/-- The tables list what the collections list and is published. -/
theorem listed : p.listPublishedArtifacts tenantId =
    (m.listPublishedArtifacts tenantId).filter fun r => r.status = some .published := by
  unfold PostgresV2Store.listPublishedArtifacts InMemoryV2Store.listPublishedArtifacts
  rw [h.artifacts, List.filter_map, List.filter_map, List.filter_filter]
  congr 1
  refine List.filter_congr fun row _ => ?_
  rw [Bool.decide_and, Bool.and_comm]
  simp [ArtifactRow.record]

/-- A row of the embeddings is joined with the artifact of its id, if the tenant has one. -/
theorem joined (row : String × EmbeddingRow K) :
    ((p.semanticArtifacts.filter fun a => a.artifactId = row.1 ∧ a.tenantId = tenantId).map fun _ => row) =
      if row.1 ∈ (m.listPublishedArtifacts tenantId).map Record.artifactId then [row] else [] := by
  have howned : row.1 ∈ (m.listPublishedArtifacts tenantId).map Record.artifactId ↔
      (p.semanticArtifacts.filter fun a => a.artifactId = row.1 ∧ a.tenantId = tenantId) ≠ [] := by
    unfold listPublishedArtifacts
    rw [h.artifacts]
    simp only [List.mem_map, List.mem_filter, decide_eq_true_eq]
    constructor
    · rintro ⟨-, ⟨⟨a, ha, rfl⟩, htenant⟩, hid⟩
      exact List.ne_nil_of_mem (List.mem_filter.2 ⟨ha, decide_eq_true ⟨hid, Option.some.inj htenant⟩⟩)
    · intro hne
      obtain ⟨a, ha⟩ := List.exists_mem_of_ne_nil _ hne
      obtain ⟨ha, hcond⟩ := List.mem_filter.1 ha
      obtain ⟨hid, htenant⟩ := of_decide_eq_true hcond
      exact ⟨a.record, ⟨⟨a, ha, rfl⟩, congrArg some htenant⟩, hid⟩
  have hids : ((p.semanticArtifacts.filter fun a => a.artifactId = row.1 ∧ a.tenantId = tenantId).map
      ArtifactRow.artifactId) = List.replicate (p.semanticArtifacts.filter fun a =>
        a.artifactId = row.1 ∧ a.tenantId = tenantId).length row.1 := by
    refine List.eq_replicate_iff.2 ⟨List.length_map _, fun id hid => ?_⟩
    obtain ⟨a, ha, rfl⟩ := List.mem_map.1 hid
    exact (of_decide_eq_true (List.mem_filter.1 ha).2).1
  have hone : (p.semanticArtifacts.filter fun a => a.artifactId = row.1 ∧ a.tenantId = tenantId).length ≤ 1 := by
    rw [← List.nodup_replicate (a := row.1), ← hids]
    exact h.artifactKeys.sublist (List.filter_sublist.map _)
  rw [List.map_const']
  split_ifs with hmem
  · have hpos := List.length_pos_iff.2 (howned.1 hmem)
    rw [show (p.semanticArtifacts.filter fun a => a.artifactId = row.1 ∧ a.tenantId = tenantId).length = 1 by omega]
    rfl
  · rw [not_not.1 (mt howned.2 hmem)]
    rfl

theorem artifactEmbeddings (id : String) : ((m.artifactEmbeddings tenantId).get? id).getD [] =
    ((p.artifactEmbeddings tenantId).get? id).getD [] := by
  have hjoin : p.artifactEmbeddings tenantId =
      groupBy Prod.fst Prod.snd (p.artifactEmbeddingRows.flatMap fun row =>
        (p.semanticArtifacts.filter fun a => a.artifactId = row.1 ∧ a.tenantId = tenantId).map fun _ => row) := rfl
  have hrows : (p.artifactEmbeddingRows.flatMap fun row =>
      (p.semanticArtifacts.filter fun a => a.artifactId = row.1 ∧ a.tenantId = tenantId).map fun _ => row) =
      p.artifactEmbeddingRows.filter fun row => row.1 ∈ (m.listPublishedArtifacts tenantId).map Record.artifactId := by
    simp only [h.joined]
    induction p.artifactEmbeddingRows with
    | nil => rfl
    | cons row rows ih =>
      rw [List.flatMap_cons, ih, List.filter_cons]
      by_cases hmem : row.1 ∈ (m.listPublishedArtifacts tenantId).map Record.artifactId
      · simp [hmem]
      · simp [hmem]
  rw [hjoin, getD_groupBy, hrows, InMemoryV2Store.artifactEmbeddings, Dict.get?_filter m.embeddings fun id =>
    decide (id ∈ (m.listPublishedArtifacts tenantId).map Record.artifactId), List.filter_filter]
  by_cases hid : id ∈ (m.listPublishedArtifacts tenantId).map Record.artifactId
  · rw [if_pos (decide_eq_true hid), h.embeddings]
    congr 1
    refine List.filter_congr fun row _ => ?_
    by_cases heq : row.1 = id
    · simp only [heq, hid, decide_true, Bool.and_self]
    · simp [heq]
  · rw [if_neg (by simpa using hid)]
    symm
    refine List.map_eq_nil_iff.2 (List.filter_eq_nil_iff.2 fun row _ hrow => ?_)
    rw [Bool.and_eq_true_iff, decide_eq_true_eq, decide_eq_true_eq] at hrow
    exact hid (hrow.1 ▸ hrow.2)

theorem mem_tenantSnapshots {id : String} {snapshot : Snapshot} : (id, snapshot) ∈ m.tenantSnapshots tenantId ↔
    ∃ row ∈ p.physicalSnapshots, row.snapshotId = id ∧ row.canonicalPayload = snapshot ∧ row.tenantId = tenantId := by
  unfold tenantSnapshots
  rw [List.mem_filter, h.snapshots]
  constructor
  · rintro ⟨⟨row, hrow, hid, rfl⟩, hcond⟩
    have hcond := of_decide_eq_true hcond
    rw [h.owned row hrow] at hcond
    simp only [Option.some.injEq, reduceCtorEq, or_false] at hcond
    exact ⟨row, hrow, hid, rfl, hcond⟩
  · rintro ⟨row, hrow, hid, rfl, htenant⟩
    refine ⟨⟨row, hrow, hid, rfl⟩, decide_eq_true (Or.inl ?_)⟩
    rw [h.owned row hrow, htenant]

theorem mem_knownSnapshotIds (id : String) :
    id ∈ m.knownSnapshotIds tenantId ↔ id ∈ p.knownSnapshotIds tenantId := by
  unfold knownSnapshotIds PostgresV2Store.knownSnapshotIds
  simp only [List.mem_map, List.mem_filter, decide_eq_true_eq]
  constructor
  · rintro ⟨⟨id, snapshot⟩, hitem, rfl⟩
    obtain ⟨row, hrow, hid, -, htenant⟩ := (h.mem_tenantSnapshots tenantId).1 hitem
    exact ⟨row, ⟨hrow, htenant⟩, hid⟩
  · rintro ⟨row, ⟨hrow, htenant⟩, rfl⟩
    exact ⟨(row.snapshotId, row.canonicalPayload),
      (h.mem_tenantSnapshots tenantId).2 ⟨row, hrow, rfl, rfl, htenant⟩, rfl⟩

theorem snapshotPayloads (ids : List String) (id : String) :
    (m.snapshotPayloads tenantId ids).get? id = (p.snapshotPayloads tenantId ids).get? id := by
  have hkeys : ((m.tenantSnapshots tenantId).map Prod.fst).Nodup := h.keys.sublist (List.filter_sublist.map _)
  have hrows : p.snapshotPayloads tenantId ids =
      ((p.physicalSnapshots.filter fun row => row.tenantId = tenantId ∧ row.snapshotId ∈ ids).map fun row =>
        (row.snapshotId, row.canonicalPayload)).foldl (fun (d : Dict String Snapshot) item => d.set item.1 item.2)
        [] := by
    rw [PostgresV2Store.snapshotPayloads, List.foldl_map]
  have hnodup : (((p.physicalSnapshots.filter fun row => row.tenantId = tenantId ∧ row.snapshotId ∈ ids).map fun row =>
      (row.snapshotId, row.canonicalPayload)).reverse.map Prod.fst).Nodup := by
    rw [List.map_reverse, List.nodup_reverse, List.map_map]
    exact h.snapshotKeys.sublist (List.filter_sublist.map _)
  refine Option.ext fun snapshot => ?_
  rw [snapshotPayloads_get?, hrows, Dict.get?_foldl_set, show Dict.get? ([] : Dict String Snapshot) id = none from rfl,
    Option.or_none]
  change _ ↔ Dict.get? _ id = some snapshot
  rw [← Dict.mem_iff_get? hnodup, List.mem_reverse, List.mem_map]
  simp only [List.mem_filter, decide_eq_true_eq, Prod.mk.injEq]
  by_cases hid : id ∈ ids
  · rw [if_pos hid, ← Dict.mem_iff_get? hkeys, h.mem_tenantSnapshots]
    constructor
    · rintro ⟨row, hrow, rfl, rfl, htenant⟩
      exact ⟨row, ⟨hrow, htenant, hid⟩, rfl, rfl⟩
    · rintro ⟨row, ⟨hrow, htenant, -⟩, rfl, rfl⟩
      exact ⟨row, hrow, rfl, rfl, htenant⟩
  · rw [if_neg hid]
    refine iff_of_false (by simp) ?_
    rintro ⟨row, ⟨-, -, hmem⟩, rfl, -⟩
    exact hid hmem

end InMemoryV2Store.Holds

/-! ## Updates of both -/

/-- Ids are used once, and a snapshot tells of its owner. -/
def Update.Fits (p : PostgresV2Store K) : Update K → Prop
  | publish row _ => row.artifactId ∉ p.semanticArtifacts.map ArtifactRow.artifactId ∧
      row.artifactId ∉ p.artifactEmbeddingRows.map Prod.fst
  | addSnapshot row => row.canonicalPayload.tenantId = some row.tenantId
  | setStatus _ _ | withdraw _ | removeSnapshot _ => True

theorem InMemoryV2Store.Holds.update {m : InMemoryV2Store K} {p : PostgresV2Store K} (h : m.Holds p) {u : Update K}
    (hu : u.Fits p) : (m.update u).Holds (p.update u) := by
  cases u with
  | publish row embeddings =>
    obtain ⟨hartifact, hrow⟩ := hu
    exact { h with
      artifacts := by rw [InMemoryV2Store.update, PostgresV2Store.update, h.artifacts, List.map_append]; rfl
      artifactKeys := by
        rw [PostgresV2Store.update, List.map_append]
        refine List.nodup_append.2 ⟨h.artifactKeys, List.nodup_singleton _, fun a ha b hb hab => hartifact ?_⟩
        rw [← List.mem_singleton.1 hb, ← hab]
        exact ha
      embeddings := fun id => by
        rw [InMemoryV2Store.update, PostgresV2Store.update, Dict.get?_set, List.filter_append, List.map_append,
          ← h.embeddings]
        by_cases hid : id = row.artifactId
        · have hold : (m.embeddings.get? id).getD [] = [] := by
            rw [h.embeddings, List.map_eq_nil_iff, List.filter_eq_nil_iff]
            intro item hitem heq
            exact hrow (List.mem_map.2 ⟨item, hitem, (of_decide_eq_true heq).trans hid⟩)
          rw [hold, hid, if_pos rfl, List.filter_eq_self.2 (by simp), List.map_map]
          exact (List.map_id _).symm
        · have hnew : ((embeddings.map fun e => (row.artifactId, e)).filter fun item => item.1 = id) = [] := by
            refine List.filter_eq_nil_iff.2 fun item hitem heq => ?_
            obtain ⟨e, -, rfl⟩ := List.mem_map.1 hitem
            exact hid (of_decide_eq_true heq).symm
          rw [if_neg hid, hnew, List.map_nil, List.append_nil] }
  | setStatus artifactId status =>
    exact { h with
      artifacts := by
        rw [InMemoryV2Store.update, PostgresV2Store.update, h.artifacts, List.map_map, List.map_map]
        refine List.map_congr_left fun row _ => ?_
        change (if row.artifactId = artifactId then { row.record with status := some status } else row.record) =
          ArtifactRow.record (if row.artifactId = artifactId then { row with status := status } else row)
        by_cases hid : row.artifactId = artifactId
        · rw [if_pos hid, if_pos hid]
          rfl
        · rw [if_neg hid, if_neg hid]
      artifactKeys := by
        rw [PostgresV2Store.update, List.map_map]
        have hids : (ArtifactRow.artifactId ∘ fun a : ArtifactRow =>
            if a.artifactId = artifactId then { a with status := status } else a) = ArtifactRow.artifactId := by
          funext a
          simp only [Function.comp_apply]
          split_ifs <;> rfl
        rw [hids]
        exact h.artifactKeys }
  | withdraw artifactId =>
    exact { h with
      artifacts := by
        rw [InMemoryV2Store.update, PostgresV2Store.update, h.artifacts, List.filter_map]
        rfl
      artifactKeys := h.artifactKeys.sublist (List.filter_sublist.map _) }
  | addSnapshot new =>
    exact { h with
      snapshots := fun id snapshot => by
        rw [InMemoryV2Store.update, PostgresV2Store.update, Dict.mem_set_iff h.keys, h.snapshots]
        simp only [List.mem_append, List.mem_filter, decide_eq_true_eq, List.mem_singleton]
        constructor
        · rintro (⟨rfl, rfl⟩ | ⟨hne, row, hrow, rfl, rfl⟩)
          · exact ⟨new, Or.inr rfl, rfl, rfl⟩
          · exact ⟨row, Or.inl ⟨hrow, hne⟩, rfl, rfl⟩
        · rintro ⟨row, ⟨hrow, hne⟩ | rfl, rfl, rfl⟩
          · exact Or.inr ⟨hne, row, hrow, rfl, rfl⟩
          · exact Or.inl ⟨rfl, rfl⟩
      snapshotKeys := by
        rw [PostgresV2Store.update, List.map_append]
        refine List.nodup_append.2 ⟨h.snapshotKeys.sublist (List.filter_sublist.map _), List.nodup_singleton _,
          fun a ha b hb hab => ?_⟩
        obtain ⟨row, hrow, rfl⟩ := List.mem_map.1 ha
        exact of_decide_eq_true (List.mem_filter.1 hrow).2 (hab.trans (List.mem_singleton.1 hb))
      keys := Dict.nodup_set h.keys _ _
      owned := fun row hrow => by
        rcases List.mem_append.1 hrow with hrow | hrow
        · exact h.owned row (List.mem_filter.1 hrow).1
        · obtain rfl := List.mem_singleton.1 hrow
          exact hu }
  | removeSnapshot snapshotId =>
    exact { h with
      snapshots := fun id snapshot => by
        rw [InMemoryV2Store.update, PostgresV2Store.update]
        simp only [List.mem_filter, decide_eq_true_eq, h.snapshots]
        constructor
        · rintro ⟨⟨row, hrow, rfl, rfl⟩, hne⟩
          exact ⟨row, ⟨hrow, hne⟩, rfl, rfl⟩
        · rintro ⟨row, ⟨hrow, hne⟩, rfl, rfl⟩
          exact ⟨⟨row, hrow, rfl, rfl⟩, hne⟩
      snapshotKeys := h.snapshotKeys.sublist (List.filter_sublist.map _)
      keys := h.keys.sublist (List.filter_sublist.map _)
      owned := fun row hrow => h.owned row (List.mem_filter.1 hrow).1 }

/-! ## Blockers for unpublished artifacts -/

/-- What is left of blockers without those for unpublished artifacts. -/
def publishedBlockers (blockers : List Blocker) : List Blocker :=
  let kept := blockers.filter fun b => b.code ≠ SelectCode.notPublished.text
  if blockers ≠ [] ∧ kept = [] then [noArtifact] else kept

def SelectionResult.published (selection : SelectionResult K) : SelectionResult K :=
  { selection with blockers := publishedBlockers selection.blockers }

def Bundle.published (bundle : Bundle K) : Bundle K :=
  { bundle with readiness := { bundle.readiness with blockers := publishedBlockers bundle.readiness.blockers } }

/-- A ready bundle has no blockers, so nothing is left out of it. -/
theorem assembleBundle_published_of_ready [Field K] {query : String} {selection : SelectionResult K}
    {snapshots : Dict String Snapshot} {glossary : Glossary} {executionContext : Option Json}
    (h : selection.selected ≠ []) :
    (assembleBundle query selection snapshots glossary executionContext [] [] []).published =
      assembleBundle query selection snapshots glossary executionContext [] [] [] := by
  unfold assembleBundle
  rw [if_neg h]
  rfl

theorem assembleBundle_published [Field K] (query : String) (selection : SelectionResult K)
    {snapshots snapshots' : Dict String Snapshot} (glossary : Glossary) (executionContext : Option Json)
    (hsnapshots : ∀ id, snapshots.get? id = snapshots'.get? id) :
    assembleBundle query selection.published snapshots' glossary executionContext [] [] [] =
      (assembleBundle query selection snapshots glossary executionContext [] [] []).published := by
  rw [← assembleBundle_congr hsnapshots]
  by_cases hselected : selection.selected = []
  · have hselected' : selection.published.selected = [] := hselected
    unfold assembleBundle
    rw [if_pos hselected, if_pos hselected']
    rfl
  · have hselected' : selection.published.selected ≠ [] := hselected
    rw [assembleBundle_published_of_ready hselected]
    unfold assembleBundle
    rw [if_neg hselected, if_neg hselected']
    rfl

section
variable {args : SelectionArgs K} {knownSnapshotIds : List String}
  {artifactEmbeddings : Dict String (List (EmbeddingRow K))} {artifacts : List Record}

theorem hardFilter_of_unpublished {access : Access} {r : Record} (htenant : r.tenantId = some access.tenantId)
    (h : r.status ≠ some .published) : hardFilter access r = some .notPublished := by
  unfold hardFilter
  rw [if_neg (not_not.2 htenant), if_pos h]

variable (args) in
theorem rejectReason_ne_notPublished {r : Record} (h : r.status = some .published) :
    rejectReason args r ≠ some .notPublished := by
  intro hreason
  unfold rejectReason hardFilter at hreason
  split at hreason
  · rename_i reason hfilter
    obtain rfl := Option.some.inj hreason
    split_ifs at hfilter <;> simp_all
  · split_ifs at hreason
    simp at hreason

theorem rejectReason_of_unpublished {r : Record} (htenant : r.tenantId = some args.tenantId)
    (h : r.status ≠ some .published) : rejectReason args r = some .notPublished := by
  unfold rejectReason
  rw [hardFilter_of_unpublished htenant h]

variable (args) in
theorem rejected_cons (r : Record) (artifacts : List Record) :
    rejected args (r :: artifacts) = (rejectReason args r).toList.map (rejection r) ++ rejected args artifacts := by
  unfold rejected
  rw [List.filterMap_cons]
  cases rejectReason args r <;> rfl

theorem text_ne_notPublished {reason : SelectCode} (h : reason ≠ .notPublished) :
    reason.text ≠ SelectCode.notPublished.text := by
  revert h
  cases reason <;> decide

/-- The blockers for published artifacts are those without the code for unpublished ones. -/
theorem rejected_published (htenant : ∀ r ∈ artifacts, r.tenantId = some args.tenantId) :
    rejected args (artifacts.filter fun r => r.status = some .published) =
      (rejected args artifacts).filter fun b => b.code ≠ SelectCode.notPublished.text := by
  induction artifacts with
  | nil => rfl
  | cons r artifacts ih =>
    have ih := ih fun r' hr' => htenant r' (List.mem_cons_of_mem r hr')
    rw [rejected_cons args r artifacts, List.filter_append, ← ih]
    by_cases hpublished : r.status = some .published
    · rw [List.filter_cons, if_pos (decide_eq_true hpublished), rejected_cons]
      congr 1
      symm
      refine List.filter_eq_self.2 fun b hb => decide_eq_true ?_
      obtain ⟨reason, hreason, rfl⟩ := List.mem_map.1 hb
      rw [rejection_code]
      refine text_ne_notPublished fun hreason' => rejectReason_ne_notPublished args hpublished ?_
      rw [Option.mem_toList.1 hreason, hreason']
    · rw [List.filter_cons, if_neg (by simpa using hpublished),
        rejectReason_of_unpublished (htenant r List.mem_cons_self) hpublished]
      simp

variable [Field K] [LinearOrder K] {N : Numerics K}

/-- The published artifacts are selected from as all are. -/
theorem selectArtifacts_published (htenant : ∀ r ∈ artifacts, r.tenantId = some args.tenantId)
    (hembeddings : ∀ id, (args.artifactEmbeddings.get? id).getD [] = (artifactEmbeddings.get? id).getD [])
    (hknown : ∀ id, id ∈ args.knownSnapshotIds ↔ id ∈ knownSnapshotIds) (topK : ℕ) :
    selectArtifacts N { args with knownSnapshotIds := knownSnapshotIds, artifactEmbeddings := artifactEmbeddings }
      (artifacts.filter fun r => r.status = some .published) topK =
        (selectArtifacts N args artifacts topK).published := by
  have hreason (r : Record) : rejectReason
      { args with knownSnapshotIds := knownSnapshotIds, artifactEmbeddings := artifactEmbeddings } r =
      rejectReason args r := rejectReason_congr (hknown r.snapshotId)
  have hcandidates : candidates N
      { args with knownSnapshotIds := knownSnapshotIds, artifactEmbeddings := artifactEmbeddings }
      (artifacts.filter fun r => r.status = some .published) = candidates N args artifacts := by
    unfold candidates
    rw [List.filter_filter]
    have hfilter : (artifacts.filter fun r => decide (rejectReason
        { args with knownSnapshotIds := knownSnapshotIds, artifactEmbeddings := artifactEmbeddings } r = none) &&
        decide (r.status = some .published)) = artifacts.filter fun r => rejectReason args r = none := by
      refine List.filter_congr fun r _ => ?_
      rw [hreason]
      by_cases hnone : rejectReason args r = none
      · have hservable := hardFilter_eq_none_iff.1 ((rejectReason_eq_none_iff args).1 hnone).1
        simp [hnone, hservable.published]
      · simp [hnone]
    rw [hfilter]
    exact List.map_congr_left fun r _ => candidate_congr (hembeddings r.artifactId)
  have hrejected : rejected
      { args with knownSnapshotIds := knownSnapshotIds, artifactEmbeddings := artifactEmbeddings }
      (artifacts.filter fun r => r.status = some .published) =
      (rejected args artifacts).filter fun b => b.code ≠ SelectCode.notPublished.text := by
    rw [← rejected_published htenant]
    exact List.filterMap_congr fun r _ => by rw [hreason]
  unfold selectArtifacts
  rw [hcandidates, hrejected]
  dsimp only
  split_ifs with hranked hkept hall hall
  · rfl
  · simp only [SelectionResult.published, publishedBlockers, hall, ne_eq, not_false_eq_true, true_and, hkept, if_false]
  · rw [not_not.1 hall] at hkept
    exact absurd rfl hkept
  · simp only [SelectionResult.published, publishedBlockers, hall, not_not.1 hkept, ne_eq, not_false_eq_true, and_self,
      if_true]
  · rfl

end

/-! ## The handler over both -/

/-- What the handler holds over the collections, and over the tables. -/
inductive Phase.Alike (tenantId : String) : Phase K → Phase K → Prop
  | start : Alike tenantId .start .start
  | failed (e : HTTPException) : Alike tenantId (.failed e) (.failed e)
  | asked (v : List K) : Alike tenantId (.asked v) (.asked v)
  | listed (v : List K) {artifacts : List Record} (htenant : ∀ r ∈ artifacts, r.tenantId = some tenantId) :
      Alike tenantId (.listed v artifacts) (.listed v (artifacts.filter fun r => r.status = some .published))
  | embedded (v : List K) {artifacts : List Record} (htenant : ∀ r ∈ artifacts, r.tenantId = some tenantId)
      {embeddings embeddings' : Dict String (List (EmbeddingRow K))}
      (hembeddings : ∀ id, (embeddings.get? id).getD [] = (embeddings'.get? id).getD []) :
      Alike tenantId (.embedded v artifacts embeddings)
        (.embedded v (artifacts.filter fun r => r.status = some .published) embeddings')
  | checked (v : List K) {artifacts : List Record} (htenant : ∀ r ∈ artifacts, r.tenantId = some tenantId)
      {embeddings embeddings' : Dict String (List (EmbeddingRow K))}
      (hembeddings : ∀ id, (embeddings.get? id).getD [] = (embeddings'.get? id).getD [])
      {known known' : List String} (hknown : ∀ id, id ∈ known ↔ id ∈ known') :
      Alike tenantId (.checked v artifacts embeddings known)
        (.checked v (artifacts.filter fun r => r.status = some .published) embeddings' known')
  | selected (selection : SelectionResult K) (glossary : Glossary) :
      Alike tenantId (.selected selection glossary) (.selected selection.published glossary)
  | done (selection : SelectionResult K) (snapshots snapshots' : Dict String Snapshot) (bundle : Bundle K) :
      Alike tenantId (.done selection snapshots bundle) (.done selection.published snapshots' bundle.published)

theorem Phase.Alike.response {tenantId : String} {phase phase' : Phase K} (h : Phase.Alike tenantId phase phase') :
    phase'.response = phase.response.map (Except.map Bundle.published) := by
  cases h <;> rfl

variable [Field K] [LinearOrder K] (N : Numerics K) (deps : V2Deps K) (auth : AuthContext) (query : String)

/-- A read of the handler leads to like states from like ones. -/
theorem Phase.Alike.next {m : InMemoryV2Store K} {p : PostgresV2Store K} (h : m.Holds p) {phase phase' : Phase K}
    (halike : Phase.Alike auth.tenantId phase phase') :
    Phase.Alike auth.tenantId (Phase.next N deps auth query (.inMemory m) phase)
      (Phase.next N deps auth query (.postgres p) phase') := by
  cases halike with
  | start =>
    unfold Phase.next
    cases deps.embed query with
    | error e => exact .failed _
    | ok v => exact .asked v
  | failed e => exact .failed e
  | asked v =>
    have hlisted : Phase.Alike auth.tenantId (.listed v (m.listPublishedArtifacts auth.tenantId)) (.listed v
        ((m.listPublishedArtifacts auth.tenantId).filter fun r => r.status = some .published)) :=
      .listed v fun r hr => of_decide_eq_true (List.mem_filter.1 hr).2
    rw [← h.listed auth.tenantId] at hlisted
    exact hlisted
  | listed v htenant => exact .embedded v htenant (h.artifactEmbeddings auth.tenantId)
  | embedded v htenant hembeddings => exact .checked v htenant hembeddings (h.mem_knownSnapshotIds auth.tenantId)
  | @checked v artifacts htenant embeddings embeddings' hembeddings known known' hknown =>
    have hphase (args : SelectionArgs K) (hargs : args.tenantId = auth.tenantId)
        (hknown : ∀ id, id ∈ args.knownSnapshotIds ↔ id ∈ known')
        (hembeddings : ∀ id, (args.artifactEmbeddings.get? id).getD [] = (embeddings'.get? id).getD []) :
        Phase.Alike auth.tenantId (.selected (selectArtifacts N args artifacts defaultTopK) p.glossary)
          (.selected (selectArtifacts N { args with knownSnapshotIds := known', artifactEmbeddings := embeddings' }
            (artifacts.filter fun r => r.status = some .published) defaultTopK) p.glossary) := by
      rw [selectArtifacts_published (fun r hr => hargs ▸ htenant r hr) hembeddings hknown]
      exact .selected _ _
    have hglossary : (StoreContent.inMemory m).reads.glossary auth.tenantId = p.glossary := h.glossary
    unfold Phase.next
    rw [hglossary]
    exact hphase _ rfl hknown hembeddings
  | selected selection glossary =>
    have hbundle := assembleBundle_published query selection glossary deps.executionContext
      (h.snapshotPayloads auth.tenantId (selection.selected.map fun s => s.record.snapshotId))
    unfold Phase.next
    dsimp only
    change Phase.Alike auth.tenantId _ (.done selection.published _ (assembleBundle query selection.published
      (p.snapshotPayloads auth.tenantId (selection.selected.map fun s => s.record.snapshotId)) glossary
      deps.executionContext [] [] []))
    rw [hbundle]
    exact .done _ _ _ _
  | done selection snapshots snapshots' bundle => exact .done selection snapshots snapshots' bundle

/-- The collections hold what the tables hold, and the handler holds alike over both. -/
def SysAlike (tenantId : String) (s' s : Sys K) : Prop :=
  ∃ m p, s.1 = .inMemory m ∧ s'.1 = .postgres p ∧ m.Holds p ∧ Phase.Alike tenantId s.2 s'.2

/-- An update fits the tables that it comes to. -/
def FitsTables (s : Sys K) (act : Process.Act (Update K)) : Prop :=
  ∀ u p, act = .update u → s.1 = .postgres p → u.Fits p

theorem SysAlike.exec {s s' : Sys K} {act : Process.Act (Update K)} (h : SysAlike auth.tenantId s' s)
    (hact : FitsTables s' act) : SysAlike auth.tenantId
      (Process.exec StoreContent.update (Phase.next N deps auth query) s' act)
      (Process.exec StoreContent.update (Phase.next N deps auth query) s act) := by
  obtain ⟨content, phase⟩ := s
  obtain ⟨content', phase'⟩ := s'
  obtain ⟨m, p, rfl, rfl, hholds, halike⟩ := h
  cases act with
  | step => exact ⟨m, p, rfl, rfl, hholds, halike.next N deps auth query hholds⟩
  | update u => exact ⟨m.update u, p.update u, rfl, rfl, hholds.update (hact u p rfl rfl), halike⟩

/-- **Refinement.**  Whatever is published, withdrawn and changed in between, the
    service answers over the tables what it answers over the collections that hold
    the same, without the blockers for unpublished artifacts. -/
theorem run_refines {m : InMemoryV2Store K} {p : PostgresV2Store K} (h : m.Holds p)
    {acts : List (Process.Act (Update K))} (hacts : Process.Allowed StoreContent.update (Phase.next N deps auth query)
      FitsTables (.postgres p, .start) acts) :
    (runDecision N deps auth query acts (.postgres p, .start)).2.response =
      (runDecision N deps auth query acts (.inMemory m, .start)).2.response.map (Except.map Bundle.published) := by
  have hstart : SysAlike auth.tenantId (.postgres p, .start) (.inMemory m, .start) := ⟨m, p, rfl, rfl, h, .start⟩
  obtain ⟨-, -, -, -, -, halike⟩ := Process.run_simulates
    (fun _ _ _ hs hact => SysAlike.exec N deps auth query hs hact) hstart hacts
  exact halike.response

end

/-! ## A published artifact and a draft -/

def rainfallRow : ArtifactRow where
  artifactId := "art-rainfall"
  tenantId := "kwater"
  status := .published
  readiness := some .ready
  validFrom := none
  validTo := none
  snapshotId := "snap-1"
  payload := tableRainfall.payload
  payloadSha256 := "0"

def draftTables : PostgresV2Store ℚ where
  semanticArtifacts := [rainfallRow, { rainfallRow with artifactId := "art-draft", status := .other "DRAFT" }]
  artifactEmbeddingRows := []
  physicalSnapshots := [⟨"snap-1", "kwater", { tenantId := some "kwater" }⟩]
  terms := [⟨1, "rainfall", true, []⟩]
  synonyms := []

theorem draftTables_keyed : draftTables.Keyed := ⟨by decide, by decide, by decide⟩

/-- The published artifact is withdrawn before the first read. -/
def withdrawal : List (Process.Act (Update ℚ)) := .update (.withdraw "art-rainfall") :: List.replicate 6 .step

theorem run_refines_draft :
    (runDecision wholeNumerics closedNetwork internalAuth "rainfall" withdrawal
        (.postgres draftTables, .start)).2.response =
      (runDecision wholeNumerics closedNetwork internalAuth "rainfall" withdrawal
        (.inMemory draftTables.inMemory, .start)).2.response.map (Except.map Bundle.published) := by
  refine run_refines wholeNumerics closedNetwork internalAuth "rainfall" draftTables_keyed.holds_inMemory ?_
  refine ⟨?_, ?_, ?_, ?_, ?_, ?_, ?_, trivial⟩
  · rintro u p hu -
    cases hu
    trivial
  all_goals
    rintro u p hu -
    cases hu

/-- The blockers differ: over the tables there is no artifact, over the collections an unpublished one. -/
example : ([StoreContent.postgres draftTables, .inMemory draftTables.inMemory].map fun content =>
    (runDecision wholeNumerics closedNetwork internalAuth "rainfall" withdrawal (content, .start)).2.response.map
      fun answer => answer.toOption.map fun bundle => bundle.readiness.blockers.map Blocker.code) =
    [some (some ["SV_SELECT_NO_ARTIFACT"]), some (some ["SV_SELECT_NOT_PUBLISHED"])] := by
  decide +kernel

end RoboMeta
