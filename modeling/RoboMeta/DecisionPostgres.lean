/-
  The live `/data_decision` (`services/decision_postgres.py`).

  The tables of an answer come from three sources: the search, the tables that
  a value mapping hits and the search did not find, and the neighbours of the
  mapped tables along foreign keys.  They are inserted into one list, of which
  every table is kept once, ranked by score and cut (`rankedTables`).  The
  candidates then get one join group with every bridge between them.
-/
import RoboMeta.EntityResolution
import RoboMeta.MetadataRepository
import RoboMeta.Schemas

namespace RoboMeta

variable {K : Type} [LinearOrder K] [Field K]

/-- The settings of a decision; `minimum_similarity` is the repository's. -/
structure DecisionRuntime (K : Type) where
  tableTopK : ℕ
  columnTopM : ℤ
  verifiedJoinConfidence : K
  conventionJoinConfidence : K

def effectiveTopK (runtime : DecisionRuntime K) (tableLimit : Option ℤ) : ℕ :=
  match tableLimit with
  | some limit => (max 1 (min 50 limit)).toNat
  | none => runtime.tableTopK

/-- `column_top_m or runtime.decision.column_top_m`. -/
def effectiveTopM (runtime : DecisionRuntime K) : Option ℤ → ℤ
  | some m => if m = 0 then runtime.columnTopM else m
  | none => runtime.columnTopM

/-! ## Tables -/

/-- `xs.insert(i, x)`. -/
def insertAt {α : Type*} (i : ℕ) (xs : List α) (x : α) : List α := xs.take i ++ x :: xs.drop i

def mappedTableIds (mappings : List MappingRow) : Finset ℤ :=
  (mappings.filterMap MappingRow.tableId).toFinset

def tableIds (tables : List (ScoredTable K)) : List ℤ := tables.map fun t => t.table.id

/-- A loop that inserts fetched tables under one score. -/
def insertTables (i : ℕ) (score : K) (fetched : List CatalogTable) (tables : List (ScoredTable K)) :
    List (ScoredTable K) :=
  fetched.foldl (fun tables t => insertAt i tables ⟨t, score⟩) tables

section
variable (repository : MetadataRepository K) (query : String) (k : ℕ)

/-- `mapped_table_ids`. -/
def mappedIds : Finset ℤ := mappedTableIds (repository.findValueMappings query)

/-- The mapped tables that the search did not find. -/
def mappedTables : List CatalogTable :=
  repository.fetchTablesByIds
    (mappedIds repository query \ (tableIds (repository.searchTables query k)).toFinset)

/-- `tables` after the first loop. -/
def tablesWithMapped : List (ScoredTable K) :=
  insertTables 0 1 (mappedTables repository query k) (repository.searchTables query k)

def neighborTables : List CatalogTable :=
  repository.fetchTablesByIds (repository.fkNeighborTableIds (mappedIds repository query) \
    (tableIds (tablesWithMapped repository query k)).toFinset)

/-- `tables` after the second loop. -/
def gatheredTables : List (ScoredTable K) :=
  insertTables 1 (99 / 100) (neighborTables repository query k) (tablesWithMapped repository query k)

/-- The score of a neighbour. -/
abbrev neighborScore : K := 99 / 100

/-- The body of the loop that keeps the best row of every table. -/
def keepBest (d : Dict ℤ (ScoredTable K)) (t : ScoredTable K) : Dict ℤ (ScoredTable K) :=
  match d.get? t.table.id with
  | none => d.set t.table.id t
  | some current => if current.score < t.score then d.set t.table.id t else d

def deduplicated (tables : List (ScoredTable K)) : Dict ℤ (ScoredTable K) := tables.foldl keepBest []

/-- `tables` after the cut. -/
def rankedTables : List (ScoredTable K) :=
  (ranked ScoredTable.score ((deduplicated (gatheredTables repository query k)).map Prod.snd)).take k

end

/-! ## Candidates -/

/-- A `MatchedColumn` of `_candidate`. -/
def ScoredColumn.matched (row : ScoredColumn K) : MatchedColumn K where
  columnName := row.column.name
  score := row.score
  constraints := if row.column.isPrimaryKey then [.pk] else []
  columnNameKr := nonempty row.column.description
  dataType := nonempty row.column.dtype
  description := (nonempty row.column.analyzedDescription).or (nonempty row.column.description)

/-- `_candidate`. -/
def postgresCandidate (t : ScoredTable K) (columns : List (ScoredColumn K)) (source : String) : Candidate K where
  db := some (t.table.db.getD "")
  schemaName := t.table.schemaName.getD ""
  tableName := ((nonempty t.table.originalName).or (nonempty t.table.name)).getD ""
  score := t.score
  source := source
  targetClass := .source
  subjectArea := .unknown
  matchedColumns := columns.map ScoredColumn.matched

def postgresCandidates (mapped : Finset ℤ) (columns : Dict ℤ (List (ScoredColumn K))) (tables : List (ScoredTable K)) :
    List (Candidate K) :=
  tables.map fun t => postgresCandidate t ((columns.get? t.table.id).getD [])
    (if t.table.id ∈ mapped then "name_rule" else "vector")

/-! ## Bridges -/

/-- An `Optional[str]` in an f-string. -/
def formatOptional (s : Option String) : String := s.getD "None"

/-- `f"{schema}.{table}.{column}"`. -/
def columnText (schema table : Option String) (column : String) : String :=
  formatOptional schema ++ "." ++ formatOptional table ++ "." ++ column

def BridgeRow.fromText (row : BridgeRow) : String := columnText row.fromSchema row.fromTable row.fromColumn

def BridgeRow.toText (row : BridgeRow) : String := columnText row.toSchema row.toTable row.toColumn

def BridgeRow.bridge (row : BridgeRow) (via : BridgeVia) (confidence : K) : JoinBridge K where
  from_ := row.fromText
  to_ := row.toText
  via := via
  confidence := confidence

/-- The bridges of an answer: the foreign keys, and the conventions that no foreign key repeats. -/
def bridgesOf (runtime : DecisionRuntime K) (fkRows conventionRows : List BridgeRow) : List (JoinBridge K) :=
  let fkBridges := fkRows.map fun row => row.bridge .fk runtime.verifiedJoinConfidence
  let existingBridgeKeys := fkBridges.map fun b => (b.from_, b.to_)
  fkBridges ++ (conventionRows.filter fun row => !existingBridgeKeys.contains (row.fromText, row.toText)).map
    fun row => row.bridge .convention runtime.conventionJoinConfidence

/-- The one group of all candidates. -/
def joinGroupsOf (candidates : List (Candidate K)) (bridges : List (JoinBridge K)) :
    List (JoinGroup K) :=
  if bridges = [] then []
  else [{
    members := candidates.map fun c => c.toTableKey
    recommendedStrategy := "simple_join"
    bridges := bridges
    groupScore := ((bridges.map JoinBridge.confidence).max?).getD 0
    rationale := "물리 FK 또는 승인된 논리 join 힌트와 동일 식별자 컬럼 연결 후보" }]

/-! ## Entities -/

/-- The key under which `_resolved_entities` groups a row. -/
structure MappingKey where
  naturalValue : String
  db : String
  schemaName : String
  tableName : String
deriving DecidableEq, Repr

def MappingRow.key (row : MappingRow) : MappingKey where
  naturalValue := row.naturalValue.getD ""
  db := row.db.getD ""
  schemaName := row.schemaName.getD ""
  tableName := row.tableName.getD ""

def MappingRow.value (row : MappingRow) : ResolvedValue where
  code := row.codeValue.getD ""
  label := none

/-- The entity of a group, labelled from its first row. -/
def mappingEntity (key : MappingKey) (rows : List MappingRow) : ResolvedEntity :=
  let columnName := (rows.head?.bind MappingRow.columnName).getD ""
  { mention := key.naturalValue
    entityType := "code"
    db := nonempty (some key.db)
    schemaName := nonempty (some key.schemaName)
    table := key.tableName
    nameColumn := columnName
    codeColumn := nonempty (some columnName)
    values := rows.map MappingRow.value
    source := "value_examples" }

/-- `_resolved_entities`. -/
def resolvedEntities (mappings : List MappingRow) : List ResolvedEntity :=
  (groupBy MappingRow.key id mappings).map fun group => mappingEntity group.1 group.2

/-! ## The answer -/

structure DecisionResponse (K : Type) where
  target : String
  confidence : K
  candidates : List (Candidate K)
  joinGroups : List (JoinGroup K)
  resolvedEntities : List ResolvedEntity
  resolutionStatus : String

/-- `decide`. -/
def MetadataRepository.decide (repository : MetadataRepository K) (runtime : DecisionRuntime K)
    (query : String) (includeMatchedColumns : Bool) (columnTopM : Option ℤ) (autoResolveEntities : Bool)
    (tableLimit : Option ℤ) : DecisionResponse K :=
  let k := effectiveTopK runtime tableLimit
  let mappings := repository.findValueMappings query
  let tables := rankedTables repository query k
  let columns := if includeMatchedColumns then
      repository.searchColumns query (tableIds tables) (effectiveTopM runtime columnTopM)
    else []
  let found := postgresCandidates (mappedTableIds mappings) columns tables
  let bridges := bridgesOf runtime (repository.fkBridges (tableIds tables))
    (repository.conventionBridges (tableIds tables))
  let entities := if autoResolveEntities then resolvedEntities mappings else []
  { target := if found = [] then "none" else "source"
    confidence := (found.head?.map fun c => c.score).getD 0
    candidates := found
    joinGroups := joinGroupsOf found bridges
    resolvedEntities := entities
    resolutionStatus := if entities = [] then "partial" else "complete" }

end RoboMeta
