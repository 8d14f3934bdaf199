/-
  The schema context of a bundle against what the selected artifacts bind
  (`services/bundle_assembler.py`).

  The assembler collects the names of all objects that the selected artifacts
  bind, without their databases and schemas, and lists what the selected
  snapshots declare under one of these names.

  * `assembleBundle_tables`, `assembleBundle_columns`: the entries, snapshot by
    snapshot;
  * `ContextExact`: the tables are those that an artifact binds and its snapshot
    declares, each once;
  * `contextExact_iff`: this holds iff, for the snapshots selected, the bare names
    stand for the bound objects.
-/
import Mathlib.Data.List.Pairwise
import RoboMeta.BundleGuard

namespace RoboMeta

/-! ## Objects under their full names -/

/-- The objects that a payload binds. -/
def Payload.boundObjects (payload : Payload) : List ObjectRef :=
  payload.bindings.flatMap fun binding =>
    binding.spec.baseObject.toList ++ binding.spec.columnRefs.map ColumnRef.toObjectRef

theorem Payload.boundTables_eq (payload : Payload) :
    payload.boundTables = payload.boundObjects.map ObjectRef.objectName := by
  rw [Payload.boundTables, Payload.boundObjects, List.map_flatMap]
  refine List.flatMap_congr fun binding _ => ?_
  rw [List.map_append, List.map_map]
  rfl

/-- The objects that a snapshot declares. -/
def Snapshot.declared (snapshot : Snapshot) : List ObjectRef :=
  snapshot.objects.map fun obj => ⟨snapshot.logicalDatabase, obj.schemaName, obj.objectName⟩

/-- The object of an entry. -/
def TableEntry.object (entry : TableEntry) : ObjectRef :=
  ⟨entry.logicalDatabase, entry.schemaName, entry.tableName⟩

/-! ## The entries -/

theorem flatMap_filterMap_map {α β γ δ : Type*} (f : α → Option β) (g : β → γ) (h : γ → List δ) (l : List α) :
    (l.filterMap fun a => (f a).map g).flatMap h = l.flatMap fun a => (f a).elim [] fun b => h (g b) := by
  induction l with
  | nil => rfl
  | cons a l ih => cases hf : f a with
    | none => simp [hf, ih]
    | some b => simp [hf, ih]

section
variable {K : Type*} [Field K] (selection : SelectionResult K) (snapshots : Dict String Snapshot)

/-- `allowed_tables`. -/
def SelectionResult.allowedTables : List String := selection.payloads.flatMap Payload.boundTables

/-- The ids of the selected snapshots, each once. -/
def SelectionResult.snapshotIds : List String :=
  sortedStrings ((selection.selected.map SelectedArtifact.record).map Record.snapshotId).dedup

omit [Field K] in
theorem SelectionResult.nodup_snapshotIds : selection.snapshotIds.Nodup :=
  (List.perm_insertionSort _ _).nodup_iff.2 (List.nodup_dedup _)

omit [Field K] in
theorem SelectionResult.mem_snapshotIds {id : String} :
    id ∈ selection.snapshotIds ↔ ∃ s ∈ selection.selected, s.record.snapshotId = id := by
  rw [SelectionResult.snapshotIds, sortedStrings, (List.perm_insertionSort _ _).mem_iff, List.mem_dedup, List.map_map,
    List.mem_map]
  rfl

section
variable (question : String) (glossary : Glossary) (executionContext : Option Json)
  (profiles codeValues fewShots : List Json)

theorem assembleBundle_tables :
    (assembleBundle question selection snapshots glossary executionContext profiles codeValues
      fewShots).schemaContext.tables = selection.snapshotIds.flatMap fun id => (snapshots.get? id).elim []
        fun snapshot => (schemaContextFromSnapshot snapshot selection.allowedTables).1 := by
  unfold assembleBundle
  split_ifs with hnil
  · simp [SelectionResult.snapshotIds, hnil, sortedStrings]
  · exact flatMap_filterMap_map _ _ _ _

theorem assembleBundle_columns :
    (assembleBundle question selection snapshots glossary executionContext profiles codeValues
      fewShots).schemaContext.columns = selection.snapshotIds.flatMap fun id => (snapshots.get? id).elim []
        fun snapshot => (schemaContextFromSnapshot snapshot selection.allowedTables).2 := by
  unfold assembleBundle
  split_ifs with hnil
  · simp [SelectionResult.snapshotIds, hnil, sortedStrings]
  · exact flatMap_filterMap_map _ _ _ _

end

/-! ## What the entries stand for -/

/-- The objects of a snapshot that go by the name of a bound object. -/
def namedObjects (snapshot : Snapshot) : List ObjectRef :=
  snapshot.declared.filter fun ref => ref.objectName ∈ selection.allowedTables

/-- The tables are those that an artifact binds and its snapshot declares, each once. -/
structure ContextExact (tables : List TableEntry) : Prop where
  distinct : (tables.map TableEntry.object).Nodup
  listed : ∀ ref, ref ∈ tables.map TableEntry.object ↔ ∃ s ∈ selection.selected,
    ref ∈ s.record.payload.boundObjects ∧ ∃ snapshot ∈ snapshots.get? s.record.snapshotId, ref ∈ snapshot.declared

/-- In the selected snapshots, the names of bound objects stand for bound objects. -/
structure NamesSuffice : Prop where
  once : ∀ s ∈ selection.selected, ∀ snapshot ∈ snapshots.get? s.record.snapshotId,
    (namedObjects selection snapshot).Nodup
  apart : ∀ s ∈ selection.selected, ∀ s' ∈ selection.selected, s.record.snapshotId ≠ s'.record.snapshotId →
    ∀ snapshot ∈ snapshots.get? s.record.snapshotId, ∀ snapshot' ∈ snapshots.get? s'.record.snapshotId,
      ∀ ref ∈ namedObjects selection snapshot, ref ∉ namedObjects selection snapshot'
  bound : ∀ s ∈ selection.selected, ∀ snapshot ∈ snapshots.get? s.record.snapshotId,
    ∀ ref ∈ namedObjects selection snapshot, ∃ s' ∈ selection.selected,
      s'.record.snapshotId = s.record.snapshotId ∧ ref ∈ s'.record.payload.boundObjects

/-- What the assembler lists of a snapshot. -/
def listedOf (id : String) : List ObjectRef := (snapshots.get? id).elim [] (namedObjects selection)

variable {selection snapshots}

omit [Field K] in
theorem mem_listedOf {id : String} {ref : ObjectRef} :
    ref ∈ listedOf selection snapshots id ↔
      ∃ snapshot ∈ snapshots.get? id, ref ∈ namedObjects selection snapshot := by
  rw [listedOf]
  cases snapshots.get? id with
  | none => simp
  | some snapshot => simp

omit [Field K] in
theorem allowed_of_bound {s : SelectedArtifact K} {ref : ObjectRef} (hs : s ∈ selection.selected)
    (h : ref ∈ s.record.payload.boundObjects) : ref.objectName ∈ selection.allowedTables := by
  refine List.mem_flatMap.2 ⟨s.record.payload, List.mem_map_of_mem (List.mem_map_of_mem hs), ?_⟩
  rw [Payload.boundTables_eq]
  exact List.mem_map_of_mem h

omit [Field K] in
/-- No object is listed twice iff none is, by its name, within or across snapshots. -/
theorem nodup_listed_iff : (selection.snapshotIds.flatMap (listedOf selection snapshots)).Nodup ↔
    (∀ s ∈ selection.selected, ∀ snapshot ∈ snapshots.get? s.record.snapshotId,
      (namedObjects selection snapshot).Nodup) ∧
    ∀ s ∈ selection.selected, ∀ s' ∈ selection.selected, s.record.snapshotId ≠ s'.record.snapshotId →
      ∀ snapshot ∈ snapshots.get? s.record.snapshotId, ∀ snapshot' ∈ snapshots.get? s'.record.snapshotId,
        ∀ ref ∈ namedObjects selection snapshot, ref ∉ namedObjects selection snapshot' := by
  rw [List.nodup_flatMap]
  refine and_congr ⟨fun h s hs snapshot hsnapshot => ?_, fun h id hid => ?_⟩ ⟨fun h => ?_, fun h => ?_⟩
  · have hnodup := h _ (selection.mem_snapshotIds.2 ⟨s, hs, rfl⟩)
    rwa [listedOf, Option.mem_def.1 hsnapshot] at hnodup
  · obtain ⟨s, hs, rfl⟩ := selection.mem_snapshotIds.1 hid
    rw [listedOf]
    cases hsnapshot : snapshots.get? s.record.snapshotId with
    | none => exact List.nodup_nil
    | some snapshot => exact h s hs snapshot hsnapshot
  · intro s hs s' hs' hne snapshot hsnapshot snapshot' hsnapshot' ref href href'
    have : Std.Symm (Function.onFun List.Disjoint (listedOf selection snapshots)) := ⟨fun _ _ h => h.symm⟩
    have hdisjoint := h.forall (selection.mem_snapshotIds.2 ⟨s, hs, rfl⟩)
      (selection.mem_snapshotIds.2 ⟨s', hs', rfl⟩) hne
    exact hdisjoint (mem_listedOf.2 ⟨snapshot, hsnapshot, href⟩) (mem_listedOf.2 ⟨snapshot', hsnapshot', href'⟩)
  · refine selection.nodup_snapshotIds.pairwise_of_forall_ne fun id hid id' hid' hne ref href href' => ?_
    obtain ⟨s, hs, rfl⟩ := selection.mem_snapshotIds.1 hid
    obtain ⟨s', hs', rfl⟩ := selection.mem_snapshotIds.1 hid'
    obtain ⟨snapshot, hsnapshot, href⟩ := mem_listedOf.1 href
    obtain ⟨snapshot', hsnapshot', href'⟩ := mem_listedOf.1 href'
    exact h s hs s' hs' hne snapshot hsnapshot snapshot' hsnapshot' ref href href'

variable (selection snapshots) in
theorem objects_assembleBundle (question : String) (glossary : Glossary) (executionContext : Option Json)
    (profiles codeValues fewShots : List Json) :
    (assembleBundle question selection snapshots glossary executionContext profiles codeValues
      fewShots).schemaContext.tables.map TableEntry.object =
        selection.snapshotIds.flatMap (listedOf selection snapshots) := by
  rw [assembleBundle_tables, List.map_flatMap]
  refine List.flatMap_congr fun id _ => ?_
  rw [listedOf]
  cases snapshots.get? id with
  | none => rfl
  | some snapshot =>
    simp only [Option.elim_some, schemaContextFromSnapshot, namedObjects, Snapshot.declared, List.map_map,
      List.filter_map]
    rfl

omit [Field K] in
theorem mem_listed_iff {ref : ObjectRef} : ref ∈ selection.snapshotIds.flatMap (listedOf selection snapshots) ↔
    ∃ s ∈ selection.selected, ∃ snapshot ∈ snapshots.get? s.record.snapshotId,
      ref ∈ namedObjects selection snapshot := by
  simp only [List.mem_flatMap, mem_listedOf, selection.mem_snapshotIds]
  constructor
  · rintro ⟨_, ⟨s, hs, rfl⟩, h⟩
    exact ⟨s, hs, h⟩
  · rintro ⟨s, hs, h⟩
    exact ⟨_, ⟨s, hs, rfl⟩, h⟩

/-- **The schema context is what the selected artifacts bind** iff, in the selected snapshots, the names
of bound objects stand for bound objects. -/
theorem contextExact_iff (question : String) (glossary : Glossary) (executionContext : Option Json)
    (profiles codeValues fewShots : List Json) :
    ContextExact selection snapshots (assembleBundle question selection snapshots glossary executionContext profiles
      codeValues fewShots).schemaContext.tables ↔ NamesSuffice selection snapshots := by
  have hobjects := objects_assembleBundle selection snapshots question glossary executionContext profiles codeValues
    fewShots
  constructor
  · intro h
    obtain ⟨honce, hapart⟩ := nodup_listed_iff.1 (hobjects ▸ h.distinct)
    refine ⟨honce, hapart, fun s hs snapshot hsnapshot ref href => ?_⟩
    have hlisted : ref ∈ _ := mem_listed_iff.2 ⟨s, hs, snapshot, hsnapshot, href⟩
    obtain ⟨s', hs', hbound, snapshot', hsnapshot', hdeclared⟩ := (h.listed ref).1 (hobjects ▸ hlisted)
    refine ⟨s', hs', ?_, hbound⟩
    -- another snapshot would list it once more
    by_contra hne
    refine hapart s' hs' s hs hne snapshot' hsnapshot' snapshot hsnapshot ref ?_ href
    exact List.mem_filter.2 ⟨hdeclared, decide_eq_true (allowed_of_bound hs' hbound)⟩
  · intro h
    constructor
    · rw [hobjects]
      exact nodup_listed_iff.2 ⟨h.once, h.apart⟩
    · intro ref
      rw [hobjects, mem_listed_iff]
      constructor
      · rintro ⟨s, hs, snapshot, hsnapshot, href⟩
        obtain ⟨s', hs', hid, hbound⟩ := h.bound s hs snapshot hsnapshot ref href
        exact ⟨s', hs', hbound, snapshot, hid ▸ hsnapshot, (List.mem_filter.1 href).1⟩
      · rintro ⟨s, hs, hbound, snapshot, hsnapshot, hdeclared⟩
        exact ⟨s, hs, snapshot, hsnapshot,
          List.mem_filter.2 ⟨hdeclared, decide_eq_true (allowed_of_bound hs hbound)⟩⟩

end

/-! ### Two schemas -/

/-- Gauges in use, and those of an archive. -/
def gaugeSnapshot : Snapshot where
  tenantId := some "kwater"
  logicalDatabase := "river"
  objects := [{ schemaName := "public", objectName := "gauge" }, { schemaName := "archive", objectName := "gauge" }]

def gaugeSnapshots : Dict String Snapshot := [("snap-1", gaugeSnapshot)]

/-- Only the gauges in use are bound, and both are listed. -/
theorem not_contextExact_gauge : ¬ ContextExact (selectedFilter { baseObject := some ⟨"river", "public", "gauge"⟩ })
    gaugeSnapshots (assembleBundle "" (selectedFilter { baseObject := some ⟨"river", "public", "gauge"⟩ })
      gaugeSnapshots {} none [] [] []).schemaContext.tables := by
  intro h
  obtain ⟨s, hs, hbound, -⟩ := (h.listed ⟨"river", "archive", "gauge"⟩).1 (by decide +kernel)
  obtain rfl := List.mem_singleton.1 hs
  exact absurd hbound (by decide +kernel)

end RoboMeta
