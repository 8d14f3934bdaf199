/-
  The metadata context bundle (`services/bundle_assembler.py`).

  `assembleBundle` answers a question with the views of the selected artifacts
  and the part of their snapshots that the artifacts bind; without a selection it
  answers with the blockers and nothing else but the terms of the glossary.
-/
import Mathlib.Algebra.Field.Rat
import Mathlib.Algebra.Order.Ring.Unbundled.Rat
import RoboMeta.Selector

namespace RoboMeta

/-! ## Parts of the bundle -/

structure TableEntry where
  logicalDatabase : String
  schemaName : String
  tableName : String
  comment : Option String
  pkColumns : List String
deriving DecidableEq, Repr

structure ColumnEntry where
  logicalDatabase : String
  schemaName : String
  tableName : String
  columnName : String
  dataType : String
  isNullable : Bool
  comment : Option String
deriving DecidableEq, Repr

structure Relationship where
  kind : String
  left : String
  right : String
  joinType : String
deriving DecidableEq, Repr

structure MetricEntry where
  name : String
  conceptIri : Option String
  expressionSql : String
  aggregation : String
  unit : Option String
  grain : String
deriving DecidableEq, Repr

inductive MatchKind where
  | exact_
  | synonym
deriving DecidableEq, Repr

structure MatchedTerm (K : Type*) where
  mention : String
  standardTerm : String
  matchKind : MatchKind
  confidence : K
deriving DecidableEq

structure SchemaContext where
  tables : List TableEntry := []
  columns : List ColumnEntry := []
  relationships : List Relationship := []
  codeValues : List Json := []
  profiles : List Json := []
deriving DecidableEq, Repr

structure Evidence (K : Type*) where
  artifactId : String
  payloadSha256 : String
  snapshotId : String
  score : K
  termHits : List String
  embeddingSimilarity : K
deriving DecidableEq

structure Readiness where
  state : ReadinessState
  blockers : List Blocker
deriving DecidableEq, Repr

/-- The answer; `evidence` is absent where it is an empty object. -/
structure Bundle (K : Type*) where
  metaVersion : String
  matchedTerms : List (MatchedTerm K)
  ambiguities : List Json
  glossary : Glossary
  schemaContext : SchemaContext
  fewShots : List Json
  semanticViews : List Payload
  metricCatalog : List MetricEntry
  evidence : Option (List (Evidence K))
  readiness : Readiness
  executionContext : Option Json
deriving DecidableEq

def bundleMetaVersion : String := "2"

/-! ## Schema context -/

/-- The columns of the first primary key. -/
def SnapshotObject.pk (obj : SnapshotObject) : List String :=
  ((obj.constraints.find? fun c => c.constraintType = some "PK").map Constraint.columns).getD []

/-- The tables and columns that `_schema_context_from_snapshot` lists. -/
def schemaContextFromSnapshot (snapshot : Snapshot) (allowedTables : List String) :
    List TableEntry × List ColumnEntry :=
  let objects := snapshot.objects.filter fun obj => obj.objectName ∈ allowedTables
  (objects.map fun obj => {
      logicalDatabase := snapshot.logicalDatabase
      schemaName := obj.schemaName
      tableName := obj.objectName
      comment := obj.comment
      pkColumns := obj.pk },
    objects.flatMap fun obj => obj.columns.map fun column => {
      logicalDatabase := snapshot.logicalDatabase
      schemaName := obj.schemaName
      tableName := obj.objectName
      columnName := column.columnName
      dataType := column.dataType
      isNullable := column.isNullable
      comment := column.comment })

def Payload.boundTables (payload : Payload) : List String :=
  payload.bindings.flatMap fun binding =>
    (binding.spec.baseObject.toList.map ObjectRef.objectName) ++
      binding.spec.columnRefs.map fun ref => ref.objectName

def JoinColumn.fqn (c : JoinColumn) : String :=
  c.logicalDatabase ++ "." ++ c.schemaName ++ "." ++ c.objectName ++ "." ++ c.columnName

/-- `x or default`. -/
def orElse (text : Option String) (default : String) : String := (nonempty text).getD default

def Binding.relationships (binding : Binding) : List Relationship :=
  binding.spec.joinConditions.map fun join => {
    kind := "logical_join"
    left := join.left.fqn
    right := join.right.fqn
    joinType := orElse binding.spec.joinType "INNER" }

/-- `_relationships_from_artifacts`: of relationships with the same sides the
    first. -/
def relationshipsFromArtifacts (payloads : List Payload) : List Relationship :=
  (payloads.flatMap fun payload => payload.bindings.flatMap Binding.relationships).foldl
    (fun relationships r =>
      if ∃ r' ∈ relationships, r'.left = r.left ∧ r'.right = r.right then relationships
      else relationships ++ [r]) []

/-- `_metric_catalog`: of metrics of the same name the first. -/
def metricCatalog (payloads : List Payload) : List MetricEntry :=
  ((payloads.flatMap Payload.bindings).filter fun b => b.bindingType = .metric).foldl
    (fun catalog b =>
      if b.name ∈ catalog.map MetricEntry.name then catalog
      else catalog ++ [{
        name := b.name
        conceptIri := b.concept.bind Concept.iri
        expressionSql := orElse b.spec.expressionSql ""
        aggregation := orElse b.spec.aggregation "NONE"
        unit := b.spec.unit
        grain := orElse b.spec.grain "" }]) []

section
variable {K : Type*} [Field K]

def matchedTerms (question : String) (glossary : Glossary) : List (MatchedTerm K) :=
  let terms := (glossary.terms.filterMap fun term => nonempty term.standardTerm).filter
    fun surface => occursIn surface question
  let exact_ : List (MatchedTerm K) := terms.map fun surface => ⟨surface, surface, .exact_, 1⟩
  glossary.synonyms.foldl
    (fun matched synonym => match nonempty synonym.synonym with
      | some surface =>
        if occursIn surface question ∧ surface ∉ matched.map MatchedTerm.mention then
          matched ++ [⟨surface, orElse synonym.standardTerm surface, .synonym, 19 / 20⟩]
        else matched
      | none => matched) exact_

def assembleBundle (question : String) (selection : SelectionResult K) (snapshots : Dict String Snapshot)
    (glossary : Glossary) (executionContext : Option Json) (profiles codeValues fewShots : List Json) :
    Bundle K :=
  if selection.selected = [] then {
    metaVersion := bundleMetaVersion
    matchedTerms := matchedTerms question glossary
    ambiguities := []
    glossary := glossary
    schemaContext := {}
    fewShots := []
    semanticViews := []
    metricCatalog := []
    evidence := none
    readiness := ⟨.blocked, selection.blockers⟩
    executionContext := executionContext }
  else
    let records := selection.selected.map SelectedArtifact.record
    let payloads := records.map Record.payload
    let allowedTables := payloads.flatMap Payload.boundTables
    let contexts := (sortedStrings (records.map Record.snapshotId).dedup).filterMap fun snapshotId =>
      (snapshots.get? snapshotId).map fun snapshot => schemaContextFromSnapshot snapshot allowedTables
    { metaVersion := bundleMetaVersion
      matchedTerms := matchedTerms question glossary
      ambiguities := []
      glossary := glossary
      schemaContext := {
        tables := contexts.flatMap Prod.fst
        columns := contexts.flatMap Prod.snd
        relationships := relationshipsFromArtifacts payloads
        codeValues := codeValues
        profiles := profiles }
      fewShots := fewShots
      semanticViews := payloads
      metricCatalog := metricCatalog payloads
      evidence := some (selection.selected.map fun s => {
        artifactId := s.record.artifactId
        payloadSha256 := s.record.payloadSha256
        snapshotId := s.record.snapshotId
        score := s.score
        termHits := s.termHits
        embeddingSimilarity := s.embeddingSimilarity })
      readiness := ⟨.ready, []⟩
      executionContext := executionContext }

/-- The parts of a bundle that tell anything of artifacts are empty. -/
structure Bundle.Bare (bundle : Bundle K) : Prop where
  semanticViews : bundle.semanticViews = []
  metricCatalog : bundle.metricCatalog = []
  fewShots : bundle.fewShots = []
  tables : bundle.schemaContext.tables = []
  columns : bundle.schemaContext.columns = []
  relationships : bundle.schemaContext.relationships = []

theorem assembleBundle_readiness (question : String) (selection : SelectionResult K)
    (snapshots : Dict String Snapshot) (glossary : Glossary) (executionContext : Option Json)
    (profiles codeValues fewShots : List Json) :
    (assembleBundle question selection snapshots glossary executionContext profiles codeValues
      fewShots).readiness = if selection.selected = [] then ⟨.blocked, selection.blockers⟩ else ⟨.ready, []⟩ := by
  unfold assembleBundle
  split_ifs <;> rfl

theorem assembleBundle_bare (question : String) {selection : SelectionResult K} (h : selection.selected = [])
    (snapshots : Dict String Snapshot) (glossary : Glossary) (executionContext : Option Json)
    (profiles codeValues fewShots : List Json) :
    (assembleBundle question selection snapshots glossary executionContext profiles codeValues
      fewShots).Bare := by
  unfold assembleBundle
  rw [if_pos h]
  exact ⟨rfl, rfl, rfl, rfl, rfl, rfl⟩

end

/-! ## Fail-closed selection -/

section
variable {K : Type*} [Field K] [LinearOrder K] (N : Numerics K) (args : SelectionArgs K)

/-- What a selection and the bundle made of it owe the artifacts supplied. -/
structure FailClosed (artifacts : List Record) (topK : ℕ) (selection : SelectionResult K) (bundle : Bundle K) :
    Prop where
  ready_iff : bundle.readiness.state = .ready ↔ ∃ r ∈ artifacts, Qualifies args r
  /-- Selected are the first of all that qualify, in the order of the keys. -/
  selected : ∃ ranked : List (SelectedArtifact K),
    ranked.Perm ((artifacts.filter fun r => Qualifies args r).map (candidate N args)) ∧
      ranked.Pairwise SelectedArtifact.Before ∧ selection.selected = ranked.take topK
  blocked : bundle.readiness.state ≠ .ready → bundle.readiness.state = .blocked ∧ bundle.Bare
  noArtifact : bundle.readiness.state ≠ .ready → artifacts = [] →
    bundle.readiness.blockers = [noArtifact]
  /-- Each artifact has its blocker. -/
  blockers : bundle.readiness.state ≠ .ready → artifacts ≠ [] →
    bundle.readiness.blockers ≠ [] ∧
      List.Forall₂ (fun b r => b.reference = some r.artifactId ∧
          (rejectReason args r).map SelectCode.text = some b.code)
        bundle.readiness.blockers artifacts

/-- **Fail-closed selection.**  The bundle is ready iff an artifact qualifies;
    otherwise it is bare and tells of every artifact why it was rejected. -/
theorem failClosed {topK : ℕ} (hk : 1 ≤ topK) (artifacts : List Record) (snapshots : Dict String Snapshot)
    (executionContext : Option Json) (profiles codeValues fewShots : List Json) :
    FailClosed N args artifacts topK (selectArtifacts N args artifacts topK)
      (assembleBundle args.question (selectArtifacts N args artifacts topK) snapshots args.glossary
        executionContext profiles codeValues fewShots) := by
  have hstate : (assembleBundle args.question (selectArtifacts N args artifacts topK) snapshots args.glossary
      executionContext profiles codeValues fewShots).readiness.state = .ready ↔
      ∃ r ∈ artifacts, Qualifies args r := by
    rw [assembleBundle_readiness, ← selectArtifacts_selected_ne_nil N args hk]
    split_ifs with hnil <;> simp [hnil]
  have hnone : (assembleBundle args.question (selectArtifacts N args artifacts topK) snapshots args.glossary
      executionContext profiles codeValues fewShots).readiness.state ≠ .ready →
      selectArtifacts N args artifacts topK =
        ⟨[], if artifacts = [] then [noArtifact] else rejected args artifacts⟩ := fun h =>
    selectArtifacts_of_none N args topK fun r hr hq => h (hstate.2 ⟨r, hr, hq⟩)
  refine {
    ready_iff := hstate
    selected := selectArtifacts_selected N args artifacts topK
    blocked := fun h => ?_
    noArtifact := fun h hempty => ?_
    blockers := fun h hne => ?_ }
  · have hselected : (selectArtifacts N args artifacts topK).selected = [] := by rw [hnone h]
    refine ⟨?_, assembleBundle_bare _ hselected _ _ _ _ _ _⟩
    rw [assembleBundle_readiness, if_pos hselected]
  · rw [assembleBundle_readiness, hnone h, if_pos rfl, if_pos hempty]
  · have hall : ∀ r ∈ artifacts, ¬ Qualifies args r := fun r hr hq => h (hstate.2 ⟨r, hr, hq⟩)
    rw [assembleBundle_readiness, hnone h, if_pos rfl, if_neg hne]
    have hforall := forall₂_rejected args hall
    refine ⟨fun (hnil : rejected args artifacts = []) => ?_, hforall.imp ?_⟩
    · rw [hnil] at hforall
      cases hforall
      exact hne rfl
    · rintro b r ⟨reason, hreason, rfl⟩
      exact ⟨rejection_reference r reason, by rw [hreason, rejection_code]; rfl⟩

end

/-- An artifact that answers for rainfall. -/
def rainfall : Record where
  artifactId := "art-rainfall"
  tenantId := some "kwater"
  status := some .published
  readiness := some .ready
  snapshotId := "snap-1"
  payload := { bindings := [{ bindingType := .metric, name := "metric.rainfall" }] }
  payloadSha256 := "0"

def rainfallArgs : SelectionArgs ℚ where
  tenantId := "kwater"
  roles := ["CONSUMER"]
  now := "2026-07-13T02:00:00Z"
  knownSnapshotIds := ["snap-1"]
  question := "rainfall of September"
  questionEmbedding := []
  embeddingModel := "fixture"
  artifactEmbeddings := []
  glossary := { terms := [{ standardTerm := some "rainfall" }] }

/-- Numbers that need no rounding. -/
def wholeNumerics : Numerics ℚ where
  sqrt x := x
  round x _ := x
  text _ := "0"

theorem failClosed_rainfall :
    FailClosed wholeNumerics rainfallArgs [rainfall] 3 (selectArtifacts wholeNumerics rainfallArgs [rainfall] 3)
      (assembleBundle rainfallArgs.question (selectArtifacts wholeNumerics rainfallArgs [rainfall] 3) []
        rainfallArgs.glossary none [] [] []) :=
  failClosed wholeNumerics rainfallArgs (by decide) [rainfall] [] none [] [] []

end RoboMeta
