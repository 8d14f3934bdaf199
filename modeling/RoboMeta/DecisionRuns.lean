/-
  `/v2/data_decision` while the store changes.

  The handler awaits its reads of the store one by one (`Phase`); between them
  other parties publish and withdraw artifacts and add and remove snapshots
  (`Update`).  An artifact is compatible by the fourth read and gets its schema
  context from the last one, and a snapshot that is gone by then is skipped.

  * `quiet_run`: without updates the run is `answer`;
  * `Complete`: the schema context of a ready bundle has, for every selected
    artifact, what its snapshot tells of the tables that it binds;
  * `ready_complete`: in every interleaving it has, if the snapshots of the
    selected artifacts are still known at the last read, and only then;
  * `complete_of_respects`: they are, if no update in between touches them.
-/
import RoboMeta.Lib.Process
import RoboMeta.Admission
import RoboMeta.TenantIsolation

namespace RoboMeta

/-! ## Other parties -/

inductive Update (K : Type) where
  | publish (row : ArtifactRow) (embeddings : List (EmbeddingRow K))
  | setStatus (artifactId : String) (status : ArtifactStatus)
  | withdraw (artifactId : String)
  | addSnapshot (row : SnapshotRow)
  | removeSnapshot (snapshotId : String)

section
variable {K : Type}

def InMemoryV2Store.update (store : InMemoryV2Store K) : Update K → InMemoryV2Store K
  | .publish row embeddings => { store with
      artifacts := store.artifacts ++ [row.record]
      embeddings := store.embeddings.set row.artifactId embeddings }
  | .setStatus artifactId status => { store with
      artifacts := store.artifacts.map fun a => if a.artifactId = artifactId then { a with status := status } else a }
  | .withdraw artifactId => { store with artifacts := store.artifacts.filter fun a => a.artifactId ≠ artifactId }
  | .addSnapshot row => { store with snapshots := store.snapshots.set row.snapshotId row.canonicalPayload }
  | .removeSnapshot snapshotId => { store with
      snapshots := store.snapshots.filter fun item => item.1 ≠ snapshotId }

def PostgresV2Store.update (store : PostgresV2Store K) : Update K → PostgresV2Store K
  | .publish row embeddings => { store with
      semanticArtifacts := store.semanticArtifacts ++ [row]
      artifactEmbeddingRows := store.artifactEmbeddingRows ++ embeddings.map fun e => (row.artifactId, e) }
  | .setStatus artifactId status => { store with
      semanticArtifacts := store.semanticArtifacts.map fun a =>
        if a.artifactId = artifactId then { a with status := status } else a }
  | .withdraw artifactId => { store with
      semanticArtifacts := store.semanticArtifacts.filter fun a => a.artifactId ≠ artifactId }
  | .addSnapshot row => { store with
      physicalSnapshots := (store.physicalSnapshots.filter fun r => r.snapshotId ≠ row.snapshotId) ++ [row] }
  | .removeSnapshot snapshotId => { store with
      physicalSnapshots := store.physicalSnapshots.filter fun r => r.snapshotId ≠ snapshotId }

def StoreContent.update (u : Update K) : StoreContent K → StoreContent K
  | inMemory store => inMemory (store.update u)
  | postgres store => postgres (store.update u)

/-- The snapshot that an update adds or removes. -/
def Update.snapshotId? : Update K → Option String
  | publish _ _ | setStatus _ _ | withdraw _ => none
  | addSnapshot row => some row.snapshotId
  | removeSnapshot snapshotId => some snapshotId

/-- Rows written into a `dict` one after the other. -/
theorem get?_setAll (rows : List SnapshotRow) (d : Dict String Snapshot) (id : String) :
    ((rows.foldl (fun result row => result.set row.snapshotId row.canonicalPayload) d).get? id).isSome ↔
      (d.get? id).isSome ∨ id ∈ rows.map SnapshotRow.snapshotId := by
  induction rows generalizing d with
  | nil => simp
  | cons row rows ih =>
    rw [List.foldl_cons, ih, Dict.get?_set, List.map_cons, List.mem_cons]
    by_cases hid : id = row.snapshotId
    · simp [hid]
    · simp [hid]

/-- A snapshot that is asked for is found iff it is known. -/
theorem snapshotPayloads_isSome {content : StoreContent K} {tenantId id : String} {ids : List String} (h : id ∈ ids) :
    ((content.reads.snapshotPayloads tenantId ids).get? id).isSome ↔ id ∈ content.reads.knownSnapshotIds tenantId := by
  cases content with
  | inMemory store =>
    change ((store.snapshotPayloads tenantId ids).get? id).isSome ↔ id ∈ store.knownSnapshotIds tenantId
    rw [store.snapshotPayloads_get?, if_pos h]
    exact Dict.get?_isSome
  | postgres store =>
    change ((store.snapshotPayloads tenantId ids).get? id).isSome ↔ id ∈ store.knownSnapshotIds tenantId
    rw [PostgresV2Store.snapshotPayloads, get?_setAll, PostgresV2Store.knownSnapshotIds]
    simp only [Dict.get?, List.lookup_nil, Option.isSome_none, Bool.false_eq_true, false_or, List.mem_map,
      List.mem_filter, decide_eq_true_eq]
    constructor
    · rintro ⟨row, ⟨hrow, htenant, -⟩, rfl⟩
      exact ⟨row, ⟨hrow, htenant⟩, rfl⟩
    · rintro ⟨row, ⟨hrow, htenant⟩, rfl⟩
      exact ⟨row, ⟨hrow, htenant, h⟩, rfl⟩

theorem mem_set_of_ne {d : Dict String Snapshot} {k : String} {v : Snapshot} {item : String × Snapshot}
    (hk : item.1 ≠ k) (h : item ∈ d) : item ∈ d.set k v := by
  induction d with
  | nil => cases h
  | cons entry d ih =>
    obtain ⟨k', v'⟩ := entry
    rw [Dict.set]
    split_ifs with heq
    · refine List.mem_cons_of_mem _ ((List.mem_cons.1 h).resolve_left ?_)
      rintro rfl
      exact hk heq
    · rcases List.mem_cons.1 h with rfl | h
      · exact List.mem_cons_self
      · exact List.mem_cons_of_mem _ (ih h)

/-- An update keeps the snapshots that it does not touch. -/
theorem InMemoryV2Store.snapshots_update {store : InMemoryV2Store K} {u : Update K} {item : String × Snapshot}
    (hu : u.snapshotId? ≠ some item.1) (h : item ∈ store.snapshots) : item ∈ (store.update u).snapshots := by
  cases u with
  | publish _ _ | setStatus _ _ | withdraw _ => exact h
  | addSnapshot row => exact mem_set_of_ne (fun heq => hu (by rw [Update.snapshotId?, heq])) h
  | removeSnapshot snapshotId =>
    refine List.mem_filter.2 ⟨h, ?_⟩
    simpa using fun heq : item.1 = snapshotId => hu (by rw [Update.snapshotId?, heq])

theorem PostgresV2Store.snapshots_update {store : PostgresV2Store K} {u : Update K} {row : SnapshotRow}
    (hu : u.snapshotId? ≠ some row.snapshotId) (h : row ∈ store.physicalSnapshots) :
    row ∈ (store.update u).physicalSnapshots := by
  cases u with
  | publish _ _ | setStatus _ _ | withdraw _ => exact h
  | addSnapshot new =>
    refine List.mem_append_left _ (List.mem_filter.2 ⟨h, ?_⟩)
    simpa using fun heq : row.snapshotId = new.snapshotId => hu (by rw [Update.snapshotId?, heq])
  | removeSnapshot snapshotId =>
    refine List.mem_filter.2 ⟨h, ?_⟩
    simpa using fun heq : row.snapshotId = snapshotId => hu (by rw [Update.snapshotId?, heq])

/-- A snapshot stays known if an update does not touch it. -/
theorem known_update {content : StoreContent K} {u : Update K} {tenantId id : String} (hu : u.snapshotId? ≠ some id)
    (h : id ∈ content.reads.knownSnapshotIds tenantId) : id ∈ (content.update u).reads.knownSnapshotIds tenantId := by
  cases content with
  | inMemory store =>
    obtain ⟨item, hitem, rfl⟩ := List.mem_map.1 h
    obtain ⟨hitem, htenant⟩ := List.mem_filter.1 hitem
    exact List.mem_map_of_mem (List.mem_filter.2 ⟨InMemoryV2Store.snapshots_update hu hitem, htenant⟩)
  | postgres store =>
    obtain ⟨row, hrow, rfl⟩ := List.mem_map.1 h
    obtain ⟨hrow, htenant⟩ := List.mem_filter.1 hrow
    exact List.mem_map_of_mem (List.mem_filter.2 ⟨PostgresV2Store.snapshots_update hu hrow, htenant⟩)

/-! ## The schema context -/

/-- A snapshot tells of more tables if more are asked for. -/
theorem schemaContext_subset (snapshot : Snapshot) {tables tables' : List String} (h : tables ⊆ tables') :
    (schemaContextFromSnapshot snapshot tables).1 ⊆ (schemaContextFromSnapshot snapshot tables').1 ∧
      (schemaContextFromSnapshot snapshot tables).2 ⊆ (schemaContextFromSnapshot snapshot tables').2 := by
  have hobjects : (snapshot.objects.filter fun obj => obj.objectName ∈ tables) ⊆
      snapshot.objects.filter fun obj => obj.objectName ∈ tables' := by
    intro obj hobj
    rw [List.mem_filter, decide_eq_true_eq] at hobj ⊢
    exact ⟨hobj.1, h hobj.2⟩
  refine ⟨List.map_subset _ hobjects, fun c hc => ?_⟩
  obtain ⟨obj, hobj, hc⟩ := List.mem_flatMap.1 hc
  exact List.mem_flatMap.2 ⟨obj, hobjects hobj, hc⟩

theorem assembleBundle_context [Field K] (query : String) {selection : SelectionResult K}
    {snapshots : Dict String Snapshot} {a : SelectedArtifact K} (ha : a ∈ selection.selected) {snapshot : Snapshot}
    (hsnapshot : snapshots.get? a.record.snapshotId = some snapshot) (glossary : Glossary)
    (executionContext : Option Json) (profiles codeValues fewShots : List Json) :
    let context := (assembleBundle query selection snapshots glossary executionContext profiles codeValues
      fewShots).schemaContext
    (∀ t ∈ (schemaContextFromSnapshot snapshot a.record.payload.boundTables).1, t ∈ context.tables) ∧
      ∀ c ∈ (schemaContextFromSnapshot snapshot a.record.payload.boundTables).2, c ∈ context.columns := by
  have hne : selection.selected ≠ [] := List.ne_nil_of_mem ha
  have hrecord : a.record ∈ selection.selected.map SelectedArtifact.record := List.mem_map_of_mem ha
  have hid : a.record.snapshotId ∈
      sortedStrings ((selection.selected.map SelectedArtifact.record).map Record.snapshotId).dedup :=
    (List.mem_insertionSort _).2 (List.mem_dedup.2 (List.mem_map_of_mem hrecord))
  have hbound : a.record.payload.boundTables ⊆
      ((selection.selected.map SelectedArtifact.record).map Record.payload).flatMap Payload.boundTables :=
    fun t ht => List.mem_flatMap.2 ⟨_, List.mem_map_of_mem hrecord, ht⟩
  obtain ⟨htables, hcolumns⟩ := schemaContext_subset snapshot hbound
  have hcontext : schemaContextFromSnapshot snapshot
      (((selection.selected.map SelectedArtifact.record).map Record.payload).flatMap Payload.boundTables) ∈
      (sortedStrings ((selection.selected.map SelectedArtifact.record).map Record.snapshotId).dedup).filterMap
        fun snapshotId => (snapshots.get? snapshotId).map fun snapshot => schemaContextFromSnapshot snapshot
          (((selection.selected.map SelectedArtifact.record).map Record.payload).flatMap Payload.boundTables) :=
    List.mem_filterMap.2 ⟨_, hid, by rw [hsnapshot]; rfl⟩
  unfold assembleBundle
  rw [if_neg hne]
  exact ⟨fun t ht => List.mem_flatMap.2 ⟨_, hcontext, htables ht⟩,
    fun c hc => List.mem_flatMap.2 ⟨_, hcontext, hcolumns hc⟩⟩

/-! ## The handler -/

/-- What the handler holds between two of its awaits. -/
inductive Phase (K : Type) where
  | start
  | failed (e : HTTPException)
  | asked (questionEmbedding : List K)
  | listed (questionEmbedding : List K) (artifacts : List Record)
  | embedded (questionEmbedding : List K) (artifacts : List Record)
      (artifactEmbeddings : Dict String (List (EmbeddingRow K)))
  | checked (questionEmbedding : List K) (artifacts : List Record)
      (artifactEmbeddings : Dict String (List (EmbeddingRow K))) (knownSnapshotIds : List String)
  | selected (selection : SelectionResult K) (glossary : Glossary)
  | done (selection : SelectionResult K) (snapshots : Dict String Snapshot) (bundle : Bundle K)

variable [Field K] [LinearOrder K] (N : Numerics K) (deps : V2Deps K) (auth : AuthContext) (query : String)

/-- What the handler makes of the answer to the read that it awaits; the store of `deps` is the content. -/
def Phase.next (content : StoreContent K) : Phase K → Phase K
  | start => match deps.embed query with
    | .error e => failed ⟨503, some e.code, e.message⟩
    | .ok questionEmbedding => asked questionEmbedding
  | asked questionEmbedding => listed questionEmbedding (content.reads.listPublishedArtifacts auth.tenantId)
  | listed questionEmbedding artifacts =>
    embedded questionEmbedding artifacts (content.reads.artifactEmbeddings auth.tenantId)
  | embedded questionEmbedding artifacts artifactEmbeddings =>
    checked questionEmbedding artifacts artifactEmbeddings (content.reads.knownSnapshotIds auth.tenantId)
  | checked questionEmbedding artifacts artifactEmbeddings knownSnapshotIds =>
    let glossary := content.reads.glossary auth.tenantId
    let args : SelectionArgs K := {
      tenantId := auth.tenantId, roles := auth.roles, now := deps.clock, knownSnapshotIds := knownSnapshotIds
      question := query, questionEmbedding := questionEmbedding, embeddingModel := deps.embeddingModel
      artifactEmbeddings := artifactEmbeddings, glossary := glossary }
    selected (selectArtifacts N args artifacts defaultTopK) glossary
  | selected selection glossary =>
    let snapshotIds := selection.selected.map fun s => s.record.snapshotId
    let snapshots := content.reads.snapshotPayloads auth.tenantId snapshotIds
    done selection snapshots
      (assembleBundle query selection snapshots glossary deps.executionContext [] [] [])
  | p => p

/-- A store and a request that runs on it. -/
abbrev Sys (K : Type) := StoreContent K × Phase K

/-- The state after an interleaving of reads and updates. -/
abbrev runDecision (acts : List (Process.Act (Update K))) (s : Sys K) : Sys K :=
  Process.run StoreContent.update (Phase.next N deps auth query) acts s

/-- What the handler has answered. -/
def Phase.response : Phase K → Option (Except HTTPException (Bundle K))
  | failed e => some (.error e)
  | done _ _ bundle => some (.ok bundle)
  | _ => none

/-- Without updates the handler answers as if all reads were one. -/
theorem quiet_run {U : Unicode} {authorization : String} (hauth : getAuth U deps authorization = .ok auth)
    (content : StoreContent K) :
    (runDecision N deps auth query (List.replicate 6 .step) (content, .start)).2.response =
      some (dataDecisionV2 U N (some { deps with store := content.reads }) authorization query) := by
  have hauth' : getAuth U { deps with store := content.reads } authorization = .ok auth := hauth
  rw [dataDecisionV2_of_auth hauth']
  have hstart : Phase.next N deps auth query content .start = match deps.embed query with
    | .error e => .failed ⟨503, some e.code, e.message⟩
    | .ok questionEmbedding => .asked questionEmbedding := rfl
  cases hembed : deps.embed query with
  | error e =>
    rw [hembed] at hstart
    simp only [runDecision, Process.run, List.replicate, List.foldl_cons, List.foldl_nil, Process.exec, hstart]
    rfl
  | ok questionEmbedding =>
    rw [hembed] at hstart
    simp only [runDecision, Process.run, List.replicate, List.foldl_cons, List.foldl_nil, Process.exec, hstart]
    rfl

/-! ## Complete bundles -/

/-- Every selected artifact of a ready bundle has its snapshot, and what that tells of the tables that
the artifact binds stands in the schema context. -/
def Phase.Complete : Phase K → Prop
  | done selection snapshots bundle => bundle.readiness.state = .ready → ∀ a ∈ selection.selected,
    ∃ snapshot, snapshots.get? a.record.snapshotId = some snapshot ∧
      (∀ t ∈ (schemaContextFromSnapshot snapshot a.record.payload.boundTables).1, t ∈ bundle.schemaContext.tables) ∧
      ∀ c ∈ (schemaContextFromSnapshot snapshot a.record.payload.boundTables).2, c ∈ bundle.schemaContext.columns
  | _ => True

/-- Before the last read the snapshots of the selected artifacts are known. -/
def Intact (s : Sys K) : Prop :=
  match s.2 with
  | .selected selection _ => ∀ a ∈ selection.selected, a.record.snapshotId ∈ s.1.reads.knownSnapshotIds auth.tenantId
  | _ => True

instance (s : Sys K) : Decidable (Intact auth s) := by
  unfold Intact
  split <;> infer_instance

/-- The last read gives a complete bundle if the snapshots are there. -/
theorem complete_of_intact {s : Sys K} (h : Intact auth s) (hs : s.2.Complete) :
    (Phase.next N deps auth query s.1 s.2).Complete := by
  obtain ⟨content, phase⟩ := s
  cases phase with
  | start =>
    simp only [Phase.next]
    split <;> trivial
  | failed _ | asked _ | listed _ _ | embedded _ _ _ | checked _ _ _ _ => trivial
  | selected selection glossary =>
    intro _ a ha
    have hids : a.record.snapshotId ∈ selection.selected.map fun s => s.record.snapshotId := List.mem_map.2 ⟨a, ha, rfl⟩
    obtain ⟨snapshot, hsnapshot⟩ := Option.isSome_iff_exists.1 ((snapshotPayloads_isSome hids).2 (h a ha))
    exact ⟨snapshot, hsnapshot, assembleBundle_context query ha hsnapshot glossary deps.executionContext [] [] []⟩
  | done _ _ _ => exact hs

/-- The last read gives an incomplete bundle if a snapshot is gone. -/
theorem not_complete_of_not_intact {s : Sys K} (h : ¬ Intact auth s) :
    ¬ (Phase.next N deps auth query s.1 s.2).Complete := by
  obtain ⟨content, phase⟩ := s
  cases phase with
  | selected selection glossary =>
    simp only [Intact, not_forall] at h
    obtain ⟨a, ha, hgone⟩ := h
    intro hcomplete
    have hready : (assembleBundle query selection (content.reads.snapshotPayloads auth.tenantId
        (selection.selected.map fun s => s.record.snapshotId)) glossary deps.executionContext [] []
        []).readiness.state = .ready := by
      rw [assembleBundle_readiness, if_neg (List.ne_nil_of_mem ha)]
    obtain ⟨snapshot, hsnapshot, -⟩ := hcomplete hready a ha
    have hids : a.record.snapshotId ∈ selection.selected.map fun s => s.record.snapshotId := List.mem_map.2 ⟨a, ha, rfl⟩
    exact hgone ((snapshotPayloads_isSome hids).1 (by rw [hsnapshot]; rfl))
  | start | failed _ | asked _ | listed _ _ | embedded _ _ _ | checked _ _ _ _ | done _ _ _ => exact absurd trivial h

/-- **Ready bundles are complete** in every interleaving whose last read finds the snapshots of the selected
artifacts, and in no other. -/
theorem ready_complete (content : StoreContent K) (acts : List (Process.Act (Update K))) :
    (Process.Allowed StoreContent.update (Phase.next N deps auth query) (fun s act => act = .step → Intact auth s)
        (content, .start) acts → (runDecision N deps auth query acts (content, .start)).2.Complete) ∧
      (¬ Intact auth (runDecision N deps auth query acts (content, .start)) →
        ¬ (runDecision N deps auth query (acts ++ [.step]) (content, .start)).2.Complete) := by
  constructor
  · intro hallowed
    refine Process.run_invariant (I := fun s => s.2.Complete) (fun s act hs hact => ?_) trivial hallowed
    cases act with
    | step => exact complete_of_intact N deps auth query (hact rfl) hs
    | update u => exact hs
  · intro hgone
    rw [runDecision, Process.run_concat]
    exact not_complete_of_not_intact N deps auth query hgone

end

/-- The rainfall artifact, bound to a table. -/
def tableRainfall : Record where
  artifactId := "art-rainfall"
  tenantId := some "kwater"
  status := some .published
  readiness := some .ready
  snapshotId := "snap-1"
  payload := { bindings := [{
    bindingType := .metric, name := "metric.rainfall", spec := { baseObject := some ⟨"rwis", "RWIS", "RAINFALL"⟩ } }] }
  payloadSha256 := "0"

def rainfallStore : InMemoryV2Store ℚ where
  artifacts := [tableRainfall]
  embeddings := []
  snapshots := [("snap-1", {
    tenantId := some "kwater", logicalDatabase := "rwis"
    objects := [{ schemaName := "RWIS", objectName := "RAINFALL" }] })]
  glossary := rainfallArgs.glossary

/-- The artifact is withdrawn once it is listed, and a snapshot comes and goes. -/
def withdrawnActs : List (Process.Act (Update ℚ)) :=
  [.step, .step, .update (.withdraw "art-rainfall"), .step,
    .update (.addSnapshot
      ⟨"snap-2", "kwater", { tenantId := some "kwater", logicalDatabase := "rwis", objects := [] }⟩),
    .step, .step, .update (.removeSnapshot "snap-2"), .step]

theorem ready_complete_rainfall :
    (runDecision wholeNumerics closedNetwork internalAuth "rainfall of September" withdrawnActs
      (.inMemory rainfallStore, .start)).2.Complete :=
  (ready_complete wholeNumerics closedNetwork internalAuth "rainfall of September" (.inMemory rainfallStore)
    withdrawnActs).1
    ⟨fun _ => trivial, fun _ => trivial, fun h => (by cases h), fun _ => trivial, fun h => (by cases h),
      fun _ => trivial, fun _ => trivial, fun h => (by cases h), fun _ => by decide +kernel, trivial⟩

/-- The answer is ready and has the table. -/
example : (runDecision wholeNumerics closedNetwork internalAuth "rainfall of September" withdrawnActs
    (.inMemory rainfallStore, .start)).2.response.map (fun answer =>
      answer.toOption.map fun bundle => (bundle.readiness.state, bundle.schemaContext.tables.length)) =
    some (some (.ready, 1)) := by decide +kernel

/-- A ready bundle that was to have a snapshot that is gone. -/
def Phase.misses {K : Type} : Phase K → Bool
  | done selection snapshots bundle => bundle.readiness.state = .ready ∧
    selection.selected.any fun a => (snapshots.get? a.record.snapshotId).isNone
  | _ => false

theorem not_complete_of_misses {K : Type} {phase : Phase K} (h : phase.misses) : ¬ phase.Complete := by
  intro hcomplete
  cases phase with
  | done selection snapshots bundle =>
    simp only [Phase.misses, decide_eq_true_eq, List.any_eq_true] at h
    obtain ⟨hready, a, ha, hnone⟩ := h
    obtain ⟨snapshot, hsnapshot, -⟩ := hcomplete hready a ha
    rw [hsnapshot] at hnone
    cases hnone
  | start | failed _ | asked _ | listed _ _ | embedded _ _ _ | checked _ _ _ _ | selected _ _ => cases h

/-- The snapshot is removed between the reads of `known_snapshot_ids` and `snapshot_payloads`. -/
theorem not_forall_complete :
    ¬ ∀ (N : Numerics ℚ) (deps : V2Deps ℚ) (auth : AuthContext) (query : String) (content : StoreContent ℚ)
      (acts : List (Process.Act (Update ℚ))), (runDecision N deps auth query acts (content, .start)).2.Complete := by
  intro h
  have hmisses : (runDecision wholeNumerics closedNetwork internalAuth "rainfall of September"
      (List.replicate 5 .step ++ [.update (.removeSnapshot "snap-1"), .step])
      (.inMemory rainfallStore, .start)).2.misses := by
    decide +kernel
  exact not_complete_of_misses hmisses (h _ _ _ _ _ _)

/-! ## Updates that do not interfere -/

section
variable {K : Type} (auth : AuthContext)

/-- No update adds or removes a snapshot that the handler has been told of and still has to read. -/
def Respects (s : Sys K) : Process.Act (Update K) → Prop
  | .step => True
  | .update u => match s.2 with
    | .checked _ artifacts _ _ => ∀ r ∈ artifacts, u.snapshotId? ≠ some r.snapshotId
    | .selected selection _ => ∀ a ∈ selection.selected, u.snapshotId? ≠ some a.record.snapshotId
    | _ => True

/-- What was known at the fourth read of the artifacts' snapshots still is. -/
def StillKnown (s : Sys K) : Prop :=
  match s.2 with
  | .checked _ artifacts _ knownSnapshotIds =>
    ∀ r ∈ artifacts, r.snapshotId ∈ knownSnapshotIds → r.snapshotId ∈ s.1.reads.knownSnapshotIds auth.tenantId
  | _ => Intact auth s

theorem stillKnown_update {s : Sys K} {u : Update K} (h : StillKnown auth s) (hu : Respects s (.update u)) :
    StillKnown auth (s.1.update u, s.2) := by
  obtain ⟨content, phase⟩ := s
  cases phase with
  | checked _ artifacts _ _ => exact fun r hr hknown => known_update (hu r hr) (h r hr hknown)
  | selected selection _ => exact fun a ha => known_update (hu a ha) (h a ha)
  | start | failed _ | asked _ | listed _ _ | embedded _ _ _ | done _ _ _ => trivial

variable [Field K] [LinearOrder K] (N : Numerics K) (deps : V2Deps K) (query : String)

theorem mem_selected {args : SelectionArgs K} {artifacts : List Record} {topK : ℕ} {a : SelectedArtifact K}
    (ha : a ∈ (selectArtifacts N args artifacts topK).selected) : a.record ∈ artifacts ∧ Qualifies args a.record := by
  obtain ⟨ranked, hperm, -, hselected⟩ := selectArtifacts_selected N args artifacts topK
  rw [hselected] at ha
  obtain ⟨r, hr, rfl⟩ := List.mem_map.1 (hperm.mem_iff.1 (List.mem_of_mem_take ha))
  rw [List.mem_filter, decide_eq_true_eq] at hr
  exact hr

theorem stillKnown_step {s : Sys K} (h : StillKnown auth s) :
    StillKnown auth (s.1, Phase.next N deps auth query s.1 s.2) := by
  obtain ⟨content, phase⟩ := s
  cases phase with
  | start =>
    simp only [Phase.next]
    split <;> trivial
  | failed _ | asked _ | listed _ _ | selected _ _ | done _ _ _ => trivial
  | embedded _ artifacts _ => exact fun r _ hknown => hknown
  | checked _ artifacts _ knownSnapshotIds =>
    intro a ha
    obtain ⟨hmem, hfilter, -⟩ := mem_selected N ha
    exact h a.record hmem (hardFilter_eq_none_iff.1 hfilter).snapshot

/-- **Respectful updates do no harm**: if none touches a snapshot that the handler still has to read, every
ready bundle is complete. -/
theorem complete_of_respects (content : StoreContent K) {acts : List (Process.Act (Update K))}
    (h : Process.Allowed StoreContent.update (Phase.next N deps auth query) Respects (content, .start) acts) :
    (runDecision N deps auth query acts (content, .start)).2.Complete := by
  have hinvariant : StillKnown auth (runDecision N deps auth query acts (content, .start)) ∧
      (runDecision N deps auth query acts (content, .start)).2.Complete := by
    refine Process.run_invariant (I := fun s => StillKnown auth s ∧ s.2.Complete) (fun s act hs hact => ?_)
      ⟨trivial, trivial⟩ h
    cases act with
    | step =>
      refine ⟨stillKnown_step auth N deps query hs.1, complete_of_intact N deps auth query ?_ hs.2⟩
      obtain ⟨content, phase⟩ := s
      cases phase with
      | checked _ _ _ _ => trivial
      | start | failed _ | asked _ | listed _ _ | embedded _ _ _ | selected _ _ | done _ _ _ => exact hs.1
    | update u => exact ⟨stillKnown_update auth hs.1 hact, hs.2⟩
  exact hinvariant.2

end

end RoboMeta
