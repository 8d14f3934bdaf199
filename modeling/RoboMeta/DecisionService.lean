/-
  The decision over the graph (`services/decision_service.py`).

  A question, and the hint of the language model to it, are searched for in the
  vector index; where that finds nothing, the words of the question are looked
  for in the texts of the tables.  What is found is merged and pruned, joined by
  the relations of the graph, selected once more and cut, and returned as
  candidates with their join groups.

  * `decide`: all of it;
  * `decideKeyword`: the search by words.
-/
import RoboMeta.GraphFetches
import RoboMeta.HydeText
import RoboMeta.JoinExpansion
import RoboMeta.JoinGroups
import RoboMeta.MatchedColumns
import RoboMeta.MergedCandidates
import RoboMeta.ResolveEntities
import RoboMeta.SubjectAreas
import RoboMeta.VectorSearch

namespace RoboMeta

inductive TargetTop where
  | analytic
  | source
  | collect
  | none
deriving DecidableEq, Repr

/-- The class of the same name. -/
def TargetTop.toClass? : TargetTop → Option TargetClass
  | analytic => some .analytic
  | source => some .source
  | collect => some .collect
  | none => Option.none

namespace DecisionService

variable {K : Type}

/-! ## What is asked -/

structure Settings (K : Type) where
  openaiEnabled : Bool
  decisionTopk : ℕ
  decisionTableMax : ℤ
  decisionColumnTopM : ℤ
  decisionScoreGapRatio : K
  decisionScoreMinStep : K
  decisionScoreTopRadius : K
  decisionJoinExpand : Bool
  decisionJoinExpandVia : List String
  decisionMatchColumns : Bool
  decisionAnalyticThreshold : K
  decisionSourceThreshold : K
  decisionSchemaAllowlist : List String
  metaDbLabel : String
  entityResolutionEnabled : Bool
  weights : MergeWeights K
  join : JoinSettings K
  fetch : FetchSettings

/-- The client of the language model and that of the embeddings. -/
structure LanguageModel (K : Type) where
  readable : Text → Bool
  validate : Text → Option HydeSchemaOut
  complete : String → Except String String
  elapsed : String
  embedBatch : List String → Except String (List (List K))

/-- The `db` of the one row of each query of `_resolve_db_label`, if there is a row. -/
structure LabelRows where
  byTable : String → String → String → Option (Option String)
  bySchema : String → Option (Option String)

structure ProbeDeps where
  settings : ProbeSettings
  pool : Option SourceDb
  registry : Option (List ProbeSpec)
  /-- `_entity_keywords`. -/
  entityKeywords : String → Option HydeSchemaOut → List String

structure Deps (K : Type) where
  store : VectorStore K
  graph : PoolGraph K
  columns : MetaGraph
  labels : LabelRows
  model : LanguageModel K
  probe : ProbeDeps
  /-- How the process enumerates sets. -/
  order : SetOrder
  caseFold : CaseFold

structure Request where
  query : String
  includeMatchedColumns : Bool := true
  columnTopM : Option ℤ := none
  tableLimit : Option ℤ := none
  autoResolveEntities : Bool := true

/-! ## Policy -/

structure Policy (K : Type) where
  topk : ℕ
  tableMax : ℕ
  tableLimit : Option ℕ
  scoreGapRatio : K
  scoreMinStep : K
  scoreTopRadius : K

/-- `max(1, min(50, int(n)))`. -/
def clampOne (n : ℤ) : ℕ := (max 1 (min 50 n)).toNat

/-- `_resolve_decision_policy`. -/
def resolveDecisionPolicy (settings : Settings K) (tableLimit : Option ℤ) : Policy K :=
  match tableLimit with
  | some limit => {
      topk := clampOne limit
      tableMax := clampOne limit
      tableLimit := some (clampOne limit)
      scoreGapRatio := settings.decisionScoreGapRatio
      scoreMinStep := settings.decisionScoreMinStep
      scoreTopRadius := settings.decisionScoreTopRadius }
  | none => {
      topk := clampOne settings.decisionTopk
      tableMax := (max 0 (min 50 settings.decisionTableMax)).toNat
      tableLimit := none
      scoreGapRatio := settings.decisionScoreGapRatio
      scoreMinStep := settings.decisionScoreMinStep
      scoreTopRadius := settings.decisionScoreTopRadius }

def Policy.prune (policy : Policy K) : PruneParams K where
  maxK := policy.topk
  gapRatio := policy.scoreGapRatio
  minStep := policy.scoreMinStep
  topRadius := policy.scoreTopRadius

/-- `effective_col_m`. -/
def effectiveColM (settings : Settings K) (columnTopM : Option ℤ) : ℤ :=
  max 1 (min 50 (columnTopM.getD settings.decisionColumnTopM))

/-! ## Search by words -/

section
variable (U : Unicode) (store : VectorStore K)

/-- `tokens`. -/
def keywordTokens (query : String) : List String :=
  (((questionTokens query).filter fun t => t ∉ stopwords).map U.lower).take 10

/-- `hits`. -/
def tokenHits (tokens : List String) (t : TableVertex K) : List String :=
  tokens.filter fun kw => occursIn kw (store.toLower (t.name.getD "")) ∨
    occursIn kw (store.toLower (t.description.getD "")) ∨ occursIn kw (store.toLower (t.analyzedDescription.getD ""))

variable [Field K] [LinearOrder K]

/-- `_decide_keyword`, ordered by score, and by name, nulls last. -/
def decideKeyword (limit : ℕ) (query : String) : List (SearchedTable K) :=
  let tokens := keywordTokens U query
  if tokens = [] then []
  else
    let found := (store.tables.filter fun t => t.dbExists.getD true && tokenHits store tokens t ≠ []).map fun t =>
      (t, ((tokenHits store tokens t).length : K) / (tokens.length : K))
    ((found.insertionSort fun a b =>
      (toLex (OrderDual.toDual a.2, (a.1.name : WithTop String)) : Kᵒᵈ ×ₗ WithTop String) ≤
        toLex (OrderDual.toDual b.2, (b.1.name : WithTop String))).take limit).map fun hit => hit.1.row hit.2

end

/-! ## Candidates -/

/-- `_subject_area_to_target_class`. -/
def subjectAreaToTargetClass : SubjectArea → TargetClass
  | .agg => .analytic
  | .raw | .master | .code => .source
  | .hist | .link => .collect
  | .unknown => .unknown

/-- The area that is written as the text. -/
def areaOfText : String → Option SubjectArea
  | "agg" => some .agg
  | "raw" => some .raw
  | "code" => some .code
  | "hist" => some .hist
  | "master" => some .master
  | "link" => some .link
  | _ => none

/-- `_candidate_subject_area`. -/
def candidateSubjectArea (U : Unicode) (F : CaseFold) (t : SearchedTable K) : SubjectArea :=
  (areaOfText (U.lower (stripString t.subjectArea))).getD (classify F subjectAreaRules t.schema t.name 0 false)

/-- `_table_description_text`. -/
def tableDescriptionText (t : SearchedTable K) : Option String × Option String :=
  let comment := nonempty (some (stripString t.description))
  (comment, (nonempty (some (stripString t.analyzedDescription))).or comment)

/-- `_resolve_db_label`. -/
def resolveDbLabel (labels : LabelRows) (metaDbLabel schemaName tableName datasource : String) : String :=
  if schemaName = "" ∨ tableName = "" then metaDbLabel
  else match (labels.byTable schemaName tableName datasource).bind nonempty with
    | some db => db
    | none => match (labels.bySchema schemaName).bind nonempty with
      | some db => db
      | none => metaDbLabel

/-- The candidate of a table, its columns still missing. -/
def candidateOf (U : Unicode) (settings : Settings K) (deps : Deps K) (t : SearchedTable K) : Candidate K where
  db := resolveDbLabel deps.labels settings.metaDbLabel t.schema t.name t.datasource
  schemaName := t.schema
  tableName := t.name
  score := t.score
  source := "vector"
  targetClass := subjectAreaToTargetClass (candidateSubjectArea U deps.caseFold t)
  subjectArea := candidateSubjectArea U deps.caseFold t
  matchedColumns := []
  tableComment := (tableDescriptionText t).1
  description := (tableDescriptionText t).2

section
variable [Field K] [LinearOrder K]

/-- `_classify_target`. -/
def classifyTarget (settings : Settings K) : List (Candidate K) → TargetTop × K
  | [] => (.none, 0)
  | top :: rest =>
    let areas := (top :: rest).map fun c => c.subjectArea
    let aggN := areas.count .agg
    let rawN := areas.count .raw + areas.count .master + areas.count .code
    if 1 ≤ aggN ∧ settings.decisionAnalyticThreshold ≤ top.score then (.analytic, top.score)
    else if 1 ≤ rawN ∧ settings.decisionSourceThreshold ≤ top.score then (.source, top.score)
    else (.collect, top.score)

end

/-- The body of the loop of `_collect_secondary`. -/
def addSecondary (top : TargetTop) (seen : List TargetClass) (c : Candidate K) : List TargetClass :=
  if c.targetClass ∉ [.analytic, .source, .collect] ∨ top.toClass? = some c.targetClass then seen
  else if c.targetClass ∉ seen then seen ++ [c.targetClass] else seen

/-- `_collect_secondary`. -/
def collectSecondary (top : TargetTop) (cands : List (Candidate K)) : List TargetClass :=
  cands.foldl (addSecondary top) []

/-! ## How the groups were found -/

/-- The text up to the first `+`, and so on. -/
def splitPlus : Text → List Text
  | [] => [[]]
  | c :: s => if c = '+' then [] :: splitPlus s else match splitPlus s with
    | [] => [[c]]
    | part :: parts => (c :: part) :: parts

/-- `_append_join_mode`. -/
def appendJoinMode (current segment : String) : String :=
  if current = "empty" then segment
  else if segment.toList ∈ splitPlus current.toList then current
  else current ++ "+" ++ segment

section
variable (U : Unicode) [Field K] (fuel : ℕ) (settings : JoinSettings K) (fetch : Fetches K)

/-- What a later stage appends to the mode: its segment, if it fetched something. -/
def fallbackMode (enabled : Bool) (segment : String) (fetchRels : List String → List (Rel K)) (fqns : List String)
    (g : JoinGraph K) (mode : String) : Option String :=
  if enabled then do
    let (isolated, _) ← isolatedFqns U fuel g fqns
    return if 2 ≤ isolated.length ∧ fetchRels isolated ≠ [] then appendJoinMode mode segment else mode
  else return mode

/-- `join_groups_mode` behind the stages. -/
def joinMode (joinPool : List (TableCandidate K)) : Option String :=
  let fqns := tableFqns joinPool
  let keys := poolKeys U joinPool
  let g : JoinGraph K := { keys, parent := UnionFind.singletons keys, bridges := [] }
  if fqns = [] then return "empty" else do
    let mode := if fetch.fkRelationships fqns = [] then "empty" else "fk_graph"
    let g ← fkStage U fuel settings fetch fqns g
    let mode ← fallbackMode U fuel settings.joinOntologyEnabled "ontology" fetch.ontologyRelationships fqns g mode
    let g ← ontologyStage U fuel settings fetch fqns g
    fallbackMode U fuel settings.joinConventionEnabled "convention" fetch.conventionJoins fqns g mode

end

/-! ## The decision -/

/-- What is searched for and how it went: the tables in the pool and those that are left of them. -/
structure Search (K : Type) where
  hydeOut : Option HydeSchemaOut
  hydeStatus : Option String
  mode : String
  hydeResults : ℕ
  questionResults : ℕ
  fallback : Option String
  mergedFull : List (SearchedTable K)
  merged : List (SearchedTable K)

structure ThresholdUsed (K : Type) where
  analytic : K
  source : K
  topk : ℕ
  tableLimit : Option ℕ
  scoreGapRatio : K
  scoreMinStep : K
  scoreTopRadius : K
  joinExpand : Bool
  joinExpandVia : List String
  tableMax : Option ℕ
  mergedFull : ℕ
  mergedPruned : ℕ
  mergedFinal : Option ℕ
  columnTopM : ℤ
  matchedColumnsMode : String
  hydeWeight : K
  questionWeight : K
  mode : String
  hydeStatus : Option String
  hydeResults : ℕ
  questionResults : ℕ
  merged : ℕ
  fallback : Option String
  joinGroupsMode : String

structure Response (K : Type) where
  target : TargetTop
  secondaryTargets : List TargetClass
  confidence : K
  candidates : List (Candidate K)
  joinGroups : List (JoinGroup K)
  thresholdUsed : ThresholdUsed K
  resolvedEntities : List ResolvedEntity
  suggestedProbes : List SuggestedProbe
  resolutionStatus : String

section
variable (U : Unicode) (settings : Settings K) (deps : Deps K) (request : Request)

/-- `texts`: that of the hint, if there is one, and the question. -/
def embeddingTexts (hydeOut : Option HydeSchemaOut) : List String :=
  ((hydeOut.map fun out => buildHydeEmbeddingText U out 8000).toList.filter fun et => et ≠ "") ++ [request.query]

/-- `hyde_embedding`, `question_embedding`. -/
def embeddingsOf (hydeOut : Option HydeSchemaOut) : Option (List K) × Option (List K) :=
  let vecs := match deps.model.embedBatch (embeddingTexts U request hydeOut) with
    | .ok vecs => vecs
    | .error _ => []
  if hydeOut.isSome ∧ 2 ≤ vecs.length then (vecs.head?, vecs.getLast?) else (none, vecs.getLast?)

/-- `hyde_out`, `hyde_status`. -/
def hydeOf : Option HydeSchemaOut × Option String :=
  if settings.openaiEnabled then
    let (out, status) :=
      generate U deps.model.readable deps.model.validate deps.model.complete deps.model.elapsed request.query
    (out, some status)
  else (none, none)

variable [Field K] [LinearOrder K]

/-- One of the two searches, if there is an embedding. -/
def searchBy (policy : Policy K) (embedding : Option (List K)) : List (SearchedTable K) :=
  match embedding with
  | some v => (searchTablesByVector U deps.store v policy.topk settings.decisionSchemaAllowlist).1
  | none => []

/-- The tables of both searches by vector. -/
def vectorTables (policy : Policy K) : List (SearchedTable K) × List (SearchedTable K) :=
  if settings.openaiEnabled then
    let (hydeEmbedding, questionEmbedding) := embeddingsOf U deps request (hydeOf U settings deps request).1
    (searchBy U settings deps policy hydeEmbedding, searchBy U settings deps policy questionEmbedding)
  else ([], [])

/-- What is merged of both searches by vector. -/
def vectorPool (policy : Policy K) : List (SearchedTable K) :=
  mergeCandidates U settings.weights (vectorTables U settings deps request policy).1
    (vectorTables U settings deps request policy).2 policy.topk

/-- The searches by vector and, if these find nothing, by words. -/
def search (policy : Policy K) : Search K :=
  let mergedFull := vectorPool U settings deps request policy
  let pruned := pruneByScoreGap policy.prune mergedFull
  let words := decideKeyword U deps.store settings.decisionTopk request.query
  { hydeOut := (hydeOf U settings deps request).1
    hydeStatus := (hydeOf U settings deps request).2
    mode := if settings.openaiEnabled then "internal_hyde+vector" else "keyword_only"
    hydeResults := (vectorTables U settings deps request policy).1.length
    questionResults := (vectorTables U settings deps request policy).2.length
    fallback := if pruned = [] then some "keyword_cypher" else none
    mergedFull := if pruned = [] then words else mergedFull
    merged := if pruned = [] then pruneByScoreGap policy.prune words else pruned }

/-- `join_pool`. -/
def Search.joinPool (found : Search K) : List (SearchedTable K) :=
  if found.mergedFull = [] then found.merged else found.mergedFull

/-- The tables that are returned, given the join graph. -/
def finalMerged (policy : Policy K) (found : Search K) (g : JoinGraph K) : List (SearchedTable K) :=
  if tableFqns (found.joinPool.map SearchedTable.toTableCandidate) = [] then found.merged
  else cutTables policy.tableMax (selectFinalCandidates U settings.decisionJoinExpandVia deps.order policy.prune
    settings.decisionJoinExpand (g.bridges.map RecordedBridge.entry) found.joinPool found.merged)

/-- The candidates of the tables, with their columns if these are asked for. -/
def candidatesOf (hydeOut : Option HydeSchemaOut) (tables : List (SearchedTable K)) : List (Candidate K) :=
  if request.includeMatchedColumns ∧ settings.decisionMatchColumns ∧ tables ≠ [] then
    let colMap := attachMatchedColumns U deps.columns tables (extractKeywords U hydeOut request.query)
      (effectiveColM settings request.columnTopM)
    tables.map fun t => { candidateOf U settings deps t with matchedColumns := matchedColumnsOf colMap t }
  else tables.map (candidateOf U settings deps)

/-- `columns_mode`. -/
def columnsMode (tables : List (SearchedTable K)) : String :=
  if request.includeMatchedColumns ∧ settings.decisionMatchColumns ∧ tables ≠ [] then "neo4j_anchor"
  else if ¬ request.includeMatchedColumns then "disabled_request"
  else if ¬ settings.decisionMatchColumns then "disabled_env"
  else "skipped"

/-- The entities, if these are to be resolved. -/
def resolutionOf (hydeOut : Option HydeSchemaOut) : Except PyError Resolution :=
  if request.autoResolveEntities ∧ settings.entityResolutionEnabled then
    resolveEntities U deps.probe.settings deps.probe.pool deps.probe.registry
      (deps.probe.entityKeywords request.query hydeOut)
  else .ok { status := "skipped" }

/-- `threshold_used`. -/
def thresholdUsed (policy : Policy K) (found : Search K) (tables : List (SearchedTable K)) (joinGroupsMode : String) :
    ThresholdUsed K where
  analytic := settings.decisionAnalyticThreshold
  source := settings.decisionSourceThreshold
  topk := policy.topk
  tableLimit := policy.tableLimit
  scoreGapRatio := policy.scoreGapRatio
  scoreMinStep := policy.scoreMinStep
  scoreTopRadius := policy.scoreTopRadius
  joinExpand := settings.decisionJoinExpand
  joinExpandVia := settings.decisionJoinExpandVia
  tableMax := if policy.tableMax = 0 then none else some policy.tableMax
  mergedFull := found.mergedFull.length
  mergedPruned := found.merged.length
  mergedFinal := if tableFqns (found.joinPool.map SearchedTable.toTableCandidate) = [] then none else some tables.length
  columnTopM := effectiveColM settings request.columnTopM
  matchedColumnsMode := columnsMode settings request tables
  hydeWeight := settings.weights.hydeWeight
  questionWeight := settings.weights.questionWeight
  mode := found.mode
  hydeStatus := found.hydeStatus
  hydeResults := found.hydeResults
  questionResults := found.questionResults
  merged := found.merged.length
  fallback := found.fallback
  joinGroupsMode := joinGroupsMode

/-- `decide`, with fuel for the union-find; `none` where it runs out. -/
def decide (fuel : ℕ) : Option (Except PyError (Response K)) := do
  let policy := resolveDecisionPolicy settings request.tableLimit
  let found := search U settings deps request policy
  let joinPool := found.joinPool.map SearchedTable.toTableCandidate
  let fetch := deps.graph.fetches U settings.fetch
  let g ← joinGraph U fuel settings.join fetch joinPool
  let mode ← joinMode U fuel settings.join fetch joinPool
  let tables := finalMerged U settings deps policy found g
  let cands := candidatesOf U settings deps request found.hydeOut tables
  let (target, confidence) := classifyTarget settings cands
  let groups ← joinGroups U fuel g (cands.map Candidate.toDecisionCandidate)
  return do
    let groups ← groups
    let resolution ← resolutionOf U settings deps request found.hydeOut
    return {
      target := target
      secondaryTargets := collectSecondary target cands
      confidence := confidence
      candidates := cands
      joinGroups := groups
      thresholdUsed := thresholdUsed settings request policy found tables (if groups = [] then "empty" else mode)
      resolvedEntities := resolution.resolved
      suggestedProbes := resolution.probes
      resolutionStatus := resolution.status }

end

end DecisionService

end RoboMeta
