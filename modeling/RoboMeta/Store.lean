/-
  The stores of `/v2/data_decision` (`services/v2_store.py`).

  A request reads a store five times (`V2Store`).  `InMemoryV2Store` keeps the
  collections themselves, `PostgresV2Store` the rows of the tables that its
  queries read; `reads` is what either answers.  The embeddings are vectors
  over `K`.
-/
import RoboMeta.Artifact

namespace RoboMeta

/-! ## Records -/

inductive ReadinessState where
  | ready
  | blocked
  | other (name : String)
deriving DecidableEq, Repr

inductive ArtifactStatus where
  | published
  | other (name : String)
deriving DecidableEq, Repr

/-- A stored artifact; `readiness` is the state that its readiness tells. -/
structure Record where
  artifactId : String
  tenantId : Option String
  status : Option ArtifactStatus
  readiness : Option ReadinessState
  validFrom : Option String := none
  validTo : Option String := none
  snapshotId : String
  payload : Payload
  payloadSha256 : String
deriving DecidableEq, Repr

structure EmbeddingRow (K : Type*) where
  embeddingModel : String
  embedding : List K

structure SnapshotColumn where
  columnName : String
  dataType : String
  isNullable : Bool := true
  comment : Option String := none
deriving DecidableEq, Repr

structure Constraint where
  constraintType : Option String
  columns : List String
deriving DecidableEq, Repr

structure SnapshotObject where
  schemaName : String
  objectName : String
  comment : Option String := none
  constraints : List Constraint := []
  columns : List SnapshotColumn := []
deriving DecidableEq, Repr

structure Snapshot where
  tenantId : Option String
  logicalDatabase : String := ""
  objects : List SnapshotObject := []
deriving DecidableEq, Repr

structure Term where
  standardTerm : Option String
  rest : Dict String Json := []
deriving DecidableEq, Repr

structure Synonym where
  synonym : Option String
  standardTerm : Option String
  rest : Dict String Json := []
deriving DecidableEq, Repr

structure Glossary where
  terms : List Term := []
  synonyms : List Synonym := []
deriving DecidableEq, Repr

/-! ## Stores -/

/-- The five reads.  Sets of ids are lists read by membership. -/
structure V2Store (K : Type*) where
  listPublishedArtifacts : String → List Record
  artifactEmbeddings : String → Dict String (List (EmbeddingRow K))
  snapshotPayloads : String → List String → Dict String Snapshot
  knownSnapshotIds : String → List String
  glossary : String → Glossary

structure InMemoryV2Store (K : Type*) where
  artifacts : List Record
  embeddings : Dict String (List (EmbeddingRow K))
  snapshots : Dict String Snapshot
  glossary : Glossary

namespace InMemoryV2Store

variable {K : Type*} (store : InMemoryV2Store K) (tenantId : String)

def listPublishedArtifacts : List Record := store.artifacts.filter fun a => a.tenantId = some tenantId

def artifactEmbeddings : Dict String (List (EmbeddingRow K)) :=
  store.embeddings.filter fun item =>
    item.1 ∈ (store.listPublishedArtifacts tenantId).map Record.artifactId

/-- The snapshots of a tenant, those without an owner included. -/
def tenantSnapshots : Dict String Snapshot :=
  store.snapshots.filter fun item => item.2.tenantId = some tenantId ∨ item.2.tenantId = none

def snapshotPayloads (snapshotIds : List String) : Dict String Snapshot :=
  (store.tenantSnapshots tenantId).filter fun item => item.1 ∈ snapshotIds

def knownSnapshotIds : List String := (store.tenantSnapshots tenantId).map Prod.fst

def reads : V2Store K where
  listPublishedArtifacts := store.listPublishedArtifacts
  artifactEmbeddings := store.artifactEmbeddings
  snapshotPayloads := store.snapshotPayloads
  knownSnapshotIds := store.knownSnapshotIds
  glossary _ := store.glossary

end InMemoryV2Store

/-! ## The tables of the metadata store -/

/-- A point of the calendar, in UTC. -/
structure Timestamp where
  year : ℕ
  month : ℕ
  day : ℕ
  hour : ℕ
  minute : ℕ
  second : ℕ
deriving DecidableEq, Repr

/-- The decimal digits of a number, padded with zeros. -/
def padded (width n : ℕ) : String :=
  String.ofList ((toString n).toList.leftpad width '0')

/-- `to_char(_, 'YYYY-MM-DD"T"HH24:MI:SS"Z"')`. -/
def Timestamp.iso (t : Timestamp) : String :=
  padded 4 t.year ++ "-" ++ padded 2 t.month ++ "-" ++ padded 2 t.day ++ "T" ++
    padded 2 t.hour ++ ":" ++ padded 2 t.minute ++ ":" ++ padded 2 t.second ++ "Z"

/-- A row of `t2s_semantic_artifacts`. -/
structure ArtifactRow where
  artifactId : String
  tenantId : String
  status : ArtifactStatus
  readiness : Option ReadinessState
  validFrom : Option Timestamp
  validTo : Option Timestamp
  snapshotId : String
  payload : Payload
  payloadSha256 : String

def ArtifactRow.record (row : ArtifactRow) : Record where
  artifactId := row.artifactId
  tenantId := some row.tenantId
  status := some row.status
  readiness := row.readiness
  validFrom := row.validFrom.map Timestamp.iso
  validTo := row.validTo.map Timestamp.iso
  snapshotId := row.snapshotId
  payload := row.payload
  payloadSha256 := row.payloadSha256

/-- A row of `t2s_physical_snapshots`. -/
structure SnapshotRow where
  snapshotId : String
  tenantId : String
  canonicalPayload : Snapshot

/-- A row of `t2s_terms`. -/
structure TermRow where
  id : ℕ
  term : String
  hasStableId : Bool
  rest : Dict String Json

structure PostgresV2Store (K : Type*) where
  semanticArtifacts : List ArtifactRow
  /-- `t2s_artifact_embeddings` -/
  artifactEmbeddingRows : List (String × EmbeddingRow K)
  physicalSnapshots : List SnapshotRow
  terms : List TermRow
  /-- `t2s_synonyms`: a synonym and the id of its term -/
  synonyms : List (String × ℕ)

namespace PostgresV2Store

variable {K : Type*} (store : PostgresV2Store K) (tenantId : String)

def listPublishedArtifacts : List Record :=
  (store.semanticArtifacts.filter fun row => row.tenantId = tenantId ∧ row.status = .published).map
    ArtifactRow.record

/-- The rows of the join, grouped by artifact. -/
def artifactEmbeddings : Dict String (List (EmbeddingRow K)) :=
  let rows := store.artifactEmbeddingRows.flatMap fun row =>
    (store.semanticArtifacts.filter fun a => a.artifactId = row.1 ∧ a.tenantId = tenantId).map fun _ => row
  rows.foldl (fun grouped row => grouped.set row.1 ((grouped.get? row.1).getD [] ++ [row.2])) []

def snapshotPayloads (snapshotIds : List String) : Dict String Snapshot :=
  (store.physicalSnapshots.filter fun row => row.tenantId = tenantId ∧ row.snapshotId ∈ snapshotIds).foldl
    (fun result row => result.set row.snapshotId row.canonicalPayload) []

def knownSnapshotIds : List String :=
  (store.physicalSnapshots.filter fun row => row.tenantId = tenantId).map SnapshotRow.snapshotId

def glossary : Glossary where
  terms := (store.terms.filter TermRow.hasStableId).map fun row => {
    standardTerm := some row.term
    rest := row.rest ++ [("unit", "null")] }
  synonyms := store.synonyms.flatMap fun row =>
    (store.terms.filter fun t => t.id = row.2).map fun t => {
      synonym := some row.1
      standardTerm := some t.term }

def reads : V2Store K where
  listPublishedArtifacts := store.listPublishedArtifacts
  artifactEmbeddings := store.artifactEmbeddings
  snapshotPayloads := store.snapshotPayloads
  knownSnapshotIds := store.knownSnapshotIds
  glossary _ := store.glossary

end PostgresV2Store

end RoboMeta
