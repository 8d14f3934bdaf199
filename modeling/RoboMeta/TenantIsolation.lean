/-
  Tenant isolation of `/v2/data_decision`.

  Two in-memory stores that agree on what one tenant can see (`AgreeFor`) answer
  every question of that tenant alike, whatever else they hold.  The selection
  looks the embeddings up by the ids of the tenant's artifacts and asks of the
  known snapshots only whether an id is among them (`selectArtifacts_congr`);
  the bundle looks the snapshots up by their ids (`assembleBundle_congr`).
-/
import RoboMeta.Decision

namespace RoboMeta

/-! ## What the services look at -/

section
variable {K : Type*} {args : SelectionArgs K} {knownSnapshotIds : List String}
  {artifactEmbeddings : Dict String (List (EmbeddingRow K))}

theorem hardFilter_congr {access : Access} {r : Record}
    (h : r.snapshotId ∈ access.knownSnapshotIds ↔ r.snapshotId ∈ knownSnapshotIds) :
    hardFilter { access with knownSnapshotIds := knownSnapshotIds } r = hardFilter access r := by
  simp only [hardFilter, h]

theorem rejectReason_congr {r : Record}
    (h : r.snapshotId ∈ args.knownSnapshotIds ↔ r.snapshotId ∈ knownSnapshotIds) :
    rejectReason { args with knownSnapshotIds := knownSnapshotIds, artifactEmbeddings := artifactEmbeddings } r =
      rejectReason args r := by
  unfold rejectReason
  rw [show hardFilter { args.toAccess with knownSnapshotIds := knownSnapshotIds } r =
    hardFilter args.toAccess r from hardFilter_congr h]
  rfl

variable [Field K]

/-- A bundle depends on the snapshots through their lookups. -/
theorem assembleBundle_congr {question : String} {selection : SelectionResult K}
    {snapshots snapshots' : Dict String Snapshot} {glossary : Glossary} {executionContext : Option Json}
    {profiles codeValues fewShots : List Json} (h : ∀ id, snapshots.get? id = snapshots'.get? id) :
    assembleBundle question selection snapshots glossary executionContext profiles codeValues fewShots =
      assembleBundle question selection snapshots' glossary executionContext profiles codeValues fewShots := by
  simp only [assembleBundle, h]

variable [LinearOrder K] {N : Numerics K}

/-- An artifact without embeddings counts like one with none. -/
theorem candidate_congr {r : Record} (h : (args.artifactEmbeddings.get? r.artifactId).getD [] =
    (artifactEmbeddings.get? r.artifactId).getD []) :
    candidate N { args with knownSnapshotIds := knownSnapshotIds, artifactEmbeddings := artifactEmbeddings } r =
      candidate N args r := by
  have hsimilarity : similarity N
      { args with knownSnapshotIds := knownSnapshotIds, artifactEmbeddings := artifactEmbeddings } r =
      similarity N args r := by
    simp only [similarity, h]
  simp only [candidate, hsimilarity]
  rfl

/-- A selection depends on the embeddings of the artifacts supplied, and on
    which of their snapshots are known. -/
theorem selectArtifacts_congr {artifacts : List Record} {topK : ℕ}
    (hknown : ∀ r ∈ artifacts, (r.snapshotId ∈ args.knownSnapshotIds ↔ r.snapshotId ∈ knownSnapshotIds))
    (hembeddings : ∀ r ∈ artifacts,
      args.artifactEmbeddings.get? r.artifactId = artifactEmbeddings.get? r.artifactId) :
    selectArtifacts N { args with knownSnapshotIds := knownSnapshotIds, artifactEmbeddings := artifactEmbeddings }
      artifacts topK = selectArtifacts N args artifacts topK := by
  have hcandidates : candidates N
      { args with knownSnapshotIds := knownSnapshotIds, artifactEmbeddings := artifactEmbeddings } artifacts =
      candidates N args artifacts := by
    have hfilter : (artifacts.filter fun r => rejectReason
        { args with knownSnapshotIds := knownSnapshotIds, artifactEmbeddings := artifactEmbeddings } r = none) =
        artifacts.filter fun r => rejectReason args r = none :=
      List.filter_congr fun r hr => by rw [rejectReason_congr (hknown r hr)]
    simp only [candidates, hfilter]
    refine List.map_congr_left fun r hr => candidate_congr ?_
    rw [hembeddings r (List.mem_filter.1 hr).1]
  have hrejected : rejected
      { args with knownSnapshotIds := knownSnapshotIds, artifactEmbeddings := artifactEmbeddings } artifacts =
      rejected args artifacts :=
    List.filterMap_congr fun r hr => by rw [rejectReason_congr (hknown r hr)]
  simp only [selectArtifacts, hcandidates, hrejected]

end

/-! ## Two stores, one tenant -/

section
variable {K : Type}

/-- The stores agree on what a tenant can see. -/
structure AgreeFor (tenantId : String) (s₁ s₂ : InMemoryV2Store K) : Prop where
  artifacts : s₁.listPublishedArtifacts tenantId = s₂.listPublishedArtifacts tenantId
  embeddings : ∀ r ∈ s₁.listPublishedArtifacts tenantId,
    s₁.embeddings.get? r.artifactId = s₂.embeddings.get? r.artifactId
  snapshots : ∀ id, (s₁.tenantSnapshots tenantId).get? id = (s₂.tenantSnapshots tenantId).get? id
  glossary : s₁.glossary = s₂.glossary

theorem InMemoryV2Store.artifactEmbeddings_get? (s : InMemoryV2Store K) {tenantId : String} {r : Record}
    (hr : r ∈ s.listPublishedArtifacts tenantId) :
    (s.artifactEmbeddings tenantId).get? r.artifactId = s.embeddings.get? r.artifactId := by
  have hid : r.artifactId ∈ (s.listPublishedArtifacts tenantId).map Record.artifactId :=
    List.mem_map_of_mem hr
  rw [InMemoryV2Store.artifactEmbeddings, Dict.get?_filter s.embeddings fun id =>
    decide (id ∈ (s.listPublishedArtifacts tenantId).map Record.artifactId), if_pos (by simpa using hid)]

theorem InMemoryV2Store.snapshotPayloads_get? (s : InMemoryV2Store K) (tenantId : String) (ids : List String)
    (id : String) : (s.snapshotPayloads tenantId ids).get? id =
      if id ∈ ids then (s.tenantSnapshots tenantId).get? id else none := by
  rw [InMemoryV2Store.snapshotPayloads, Dict.get?_filter (s.tenantSnapshots tenantId) fun id =>
    decide (id ∈ ids)]
  simp

theorem AgreeFor.mem_knownSnapshotIds {tenantId : String} {s₁ s₂ : InMemoryV2Store K}
    (h : AgreeFor tenantId s₁ s₂) (id : String) :
    id ∈ s₁.knownSnapshotIds tenantId ↔ id ∈ s₂.knownSnapshotIds tenantId := by
  rw [InMemoryV2Store.knownSnapshotIds, InMemoryV2Store.knownSnapshotIds, ← Dict.get?_isSome,
    ← Dict.get?_isSome, h.snapshots]

variable [Field K] [LinearOrder K] {N : Numerics K}

theorem dataDecisionV2_of_auth {U : Unicode} {deps : V2Deps K} {auth : AuthContext} {authorization query : String}
    (hauth : getAuth U deps authorization = .ok auth) :
    dataDecisionV2 U N (some deps) authorization query = match deps.embed query with
      | .error e => .error ⟨503, some e.code, e.message⟩
      | .ok questionEmbedding => .ok (answer N deps auth query questionEmbedding) := by
  have hbind : dataDecisionV2 U N (some deps) authorization query = (getAuth U deps authorization >>= fun auth =>
      match deps.embed query with
      | .error e => throw ⟨503, some e.code, e.message⟩
      | .ok questionEmbedding => pure (answer N deps auth query questionEmbedding)) := rfl
  rw [hbind, hauth]
  cases deps.embed query <;> rfl

theorem AgreeFor.answer_eq {deps : V2Deps K} {auth : AuthContext} {s₁ s₂ : InMemoryV2Store K}
    (h : AgreeFor auth.tenantId s₁ s₂) (query : String) (questionEmbedding : List K) :
    answer N { deps with store := s₁.reads } auth query questionEmbedding =
      answer N { deps with store := s₂.reads } auth query questionEmbedding := by
  have hargs : selectionArgs { deps with store := s₂.reads } auth query questionEmbedding =
      { selectionArgs { deps with store := s₁.reads } auth query questionEmbedding with
        knownSnapshotIds := s₂.knownSnapshotIds auth.tenantId
        artifactEmbeddings := s₂.artifactEmbeddings auth.tenantId } := by
    simp only [selectionArgs, InMemoryV2Store.reads, h.glossary]
  have hselection : selectArtifacts N (selectionArgs { deps with store := s₂.reads } auth query questionEmbedding)
      (s₂.listPublishedArtifacts auth.tenantId) defaultTopK =
      selectArtifacts N (selectionArgs { deps with store := s₁.reads } auth query questionEmbedding)
        (s₁.listPublishedArtifacts auth.tenantId) defaultTopK := by
    -- the two runs differ in embeddings and snapshots of other tenants only
    rw [hargs, ← h.artifacts]
    refine selectArtifacts_congr (fun r _ => h.mem_knownSnapshotIds r.snapshotId) fun r hr => ?_
    have hr₂ : r ∈ s₂.listPublishedArtifacts auth.tenantId := h.artifacts ▸ hr
    exact (s₁.artifactEmbeddings_get? hr).trans ((h.embeddings r hr).trans (s₂.artifactEmbeddings_get? hr₂).symm)
  have hsnapshots : ∀ ids id, (s₁.snapshotPayloads auth.tenantId ids).get? id =
      (s₂.snapshotPayloads auth.tenantId ids).get? id := by
    intro ids id
    rw [s₁.snapshotPayloads_get?, s₂.snapshotPayloads_get?, h.snapshots]
  have hglossary : (selectionArgs { deps with store := s₂.reads } auth query questionEmbedding).glossary =
      (selectionArgs { deps with store := s₁.reads } auth query questionEmbedding).glossary := h.glossary.symm
  show assembleBundle query _ (s₁.snapshotPayloads auth.tenantId _) _ deps.executionContext [] [] [] =
    assembleBundle query _ (s₂.snapshotPayloads auth.tenantId _) _ deps.executionContext [] [] []
  rw [hglossary, show selectArtifacts N _ (({ deps with store := s₂.reads } : V2Deps K).store.listPublishedArtifacts
    auth.tenantId) defaultTopK = _ from hselection]
  exact assembleBundle_congr (hsnapshots _)

/-- **Tenant isolation.**  A principal gets the same answer from any two stores
    that agree on what its tenant can see. -/
theorem dataDecisionV2_isolated {U : Unicode} {deps : V2Deps K} {auth : AuthContext} {authorization : String}
    {tenantId : String} {s₁ s₂ : InMemoryV2Store K} (hauth : getAuth U deps authorization = .ok auth)
    (htenant : auth.tenantId = tenantId) (h : AgreeFor tenantId s₁ s₂) (query : String) :
    dataDecisionV2 U N (some { deps with store := s₁.reads }) authorization query =
      dataDecisionV2 U N (some { deps with store := s₂.reads }) authorization query := by
  subst htenant
  have hauth₁ : getAuth U { deps with store := s₁.reads } authorization = .ok auth := hauth
  have hauth₂ : getAuth U { deps with store := s₂.reads } authorization = .ok auth := hauth
  rw [dataDecisionV2_of_auth hauth₁, dataDecisionV2_of_auth hauth₂]
  cases deps.embed query with
  | error e => rfl
  | ok questionEmbedding => exact congrArg Except.ok (h.answer_eq query questionEmbedding)

end

/-- The store of one tenant alone. -/
def ownStore : InMemoryV2Store ℚ where
  artifacts := [rainfall]
  embeddings := []
  snapshots := [("snap-1", { tenantId := some "kwater" })]
  glossary := rainfallArgs.glossary

/-- The same store with the artifact and the snapshot of another tenant. -/
def sharedStore : InMemoryV2Store ℚ where
  artifacts := [{ rainfall with artifactId := "art-other", tenantId := some "other-corp" }, rainfall]
  embeddings := [("art-other", [⟨"fixture", [1]⟩])]
  snapshots := [("snap-1", { tenantId := some "kwater" }), ("snap-2", { tenantId := some "other-corp" })]
  glossary := rainfallArgs.glossary

theorem ownStore_agreeFor_sharedStore : AgreeFor "kwater" ownStore sharedStore where
  artifacts := by decide
  embeddings r hr := by
    rw [List.mem_singleton.1 (show r ∈ [rainfall] from hr)]
    rfl
  snapshots id := by
    have htenant : ownStore.tenantSnapshots "kwater" = sharedStore.tenantSnapshots "kwater" := by decide
    rw [htenant]
  glossary := rfl

theorem dataDecisionV2_isolated_rainfall :
    dataDecisionV2 .ascii wholeNumerics (some { closedNetwork with store := ownStore.reads }) ""
        "rainfall of September" =
      dataDecisionV2 .ascii wholeNumerics (some { closedNetwork with store := sharedStore.reads }) ""
        "rainfall of September" := by
  have hauth : getAuth .ascii closedNetwork "" = .ok internalAuth := rfl
  exact dataDecisionV2_isolated hauth rfl ownStore_agreeFor_sharedStore _

end RoboMeta
