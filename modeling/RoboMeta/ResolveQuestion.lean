/-
  The resolution of a question (`services/neo4j_client/api.py`).

  A question, and the hint of the language model to it, are searched for in the
  vector index; the tables of both searches are merged, and returned with their
  schemas, their foreign keys and the values of their text columns that match the
  words of the question.

  * `resolveQuestion`: all of it;
  * `resolveQuestion_admissible`: what a response owes the graph and the source;
  * `resolveQuestion_schemas`: each table selected has its schema in the response;
  * `resolveQuestion_schemaless`: foreign keys of tables without a schema are missed.
-/
import RoboMeta.HydeText
import RoboMeta.JoinGraph
import RoboMeta.MergeAxes
import RoboMeta.QueryRuns
import RoboMeta.ResolveEntities
import RoboMeta.TableSchemas

namespace RoboMeta

namespace ResolveQuestion

variable {K : Type}

structure Request where
  question : String
  schemaFilter : Option String := none
  topK : ℤ := 5
  enableDbProbe : Bool := true

/-- The graph, the clients of the language model and of the embeddings, and the source database, if there is one. -/
structure Deps (K : Type) where
  graph : QuestionGraph K
  readable : Text → Bool
  validate : Text → Option HydeSchemaOut
  complete : String → Except String String
  elapsed : String
  embedBatch : List String → Except Exc (List (List K))
  pool : Option SourceDb
  probe : ProbeSettings
  round : K → ℕ → K

/-- How the probe went. -/
inductive ProbeStep where
  | disabled
  | skipped
  | noMatches
  | matched (keywords : List String) (probeColumns found : ℕ)

/-- `debug`, without the times. -/
structure Debug where
  hydeStatus : String
  embedTextLen : ℕ
  vectorsGenerated : ℕ
  hydeMode : String
  questionMode : String
  hydeResults : ℕ
  questionResults : ℕ
  merged : ℕ
  tables : ℕ
  fkRelationships : ℕ
  dbProbe : ProbeStep

structure Response (K : Type) where
  question : String
  hyde : Option HydeSchemaOut
  /-- Datasource and subject area are empty. -/
  selectedTables : List (SearchedTable K)
  tableSchemas : List TableSchema
  fkRelationships : List PoolGraph.FkMatch
  dbProbeResults : Option (Dict String (Dict String (List String)))
  debug : Debug

/-- `[s.strip() for s in (req.schema_filter or "").split(",") if s.strip()]`. -/
def schemaFilter (req : Request) : List String :=
  (((req.schemaFilter.getD "").toList.splitOn ',').map fun s => stripString (String.ofList s)).filter fun s => s ≠ ""

section
variable (U : Unicode)

/-! ## The probe -/

/-- `_extract_keywords_from_hyde`. -/
def extractKeywordsFromHyde (hydeOut : Option HydeSchemaOut) (question : String) : List String :=
  extractKeywords U hydeOut question

def textTypes : List String := ["varchar", "text", "char", "character varying", "nvarchar", "bpchar"]

/-- The candidate of a column, if it has a name and is of a text type. -/
def probeColumn (tbl : TableSchema) (col : Option SchemaColumn) : Option ColumnCandidate :=
  let name := (col.bind fun c => c.name).getD ""
  if name = "" ∨ normalizeDtype U (col.bind fun c => c.dtype) ∉ textTypes then none
  else some ⟨tbl.schema, tbl.name, name⟩

/-- `_select_probe_columns`. -/
def selectProbeColumns (tableSchemas : List TableSchema) : List ColumnCandidate :=
  (tableSchemas.flatMap fun tbl => tbl.columns.filterMap (probeColumn U tbl)).take 100

def probe (deps : Deps K) (req : Request) (keywords : List String) (columns : List ColumnCandidate) :
    Option (Dict String (Dict String (List String))) × ProbeStep :=
  if ¬ req.enableDbProbe then (none, .disabled)
  else if keywords = [] ∨ columns = [] then (none, .skipped)
  else
    let raw := match deps.pool with
      | some db => batchDbProbe U deps.probe db keywords columns
      | none => []
    if raw = [] then (none, .noMatches)
    else (some raw, .matched keywords columns.length (raw.foldl (fun n item => n + item.2.length) 0))

/-! ## The resolution -/

/-- The default weights of `_merge_table_candidates`. -/
def axisWeights [Field K] : MergeWeights K := ⟨0.6, 0.4⟩

/-- `fetch_fk_relationships`, with its default limit. -/
def fkRelationships (graph : QuestionGraph K) (tableFqns : List String) : List PoolGraph.FkMatch :=
  if tableFqns = [] then []
  else ((graph.pool.fkRows (PoolGraph.askedNames U tableFqns)).insertionSort fun m m' => m.sortKey ≤ m'.sortKey).take 30

variable [Field K] [LinearOrder K] (deps : Deps K) (req : Request)

/-- `tables_hyde`, `mode_hyde`; an embedding without entries is not searched for. -/
def searchHyde (embedding : Option (List K)) : List (SearchedTable K) × String :=
  match embedding with
  | none | some [] => ([], "")
  | some (x :: xs) => searchTablesByVector U deps.graph.store (x :: xs) req.topK (schemaFilter req)

def mergedOf (hydeEmbedding : Option (List K)) (questionEmbedding : List K) : List (SearchedTable K) :=
  mergeTableCandidates U axisWeights (searchHyde U deps req hydeEmbedding).1
    (searchTablesByVector U deps.graph.store questionEmbedding req.topK (schemaFilter req)).1 req.topK

/-- `table_fqns`: the schema is followed by a dot even where it is empty. -/
def dottedFqns (merged : List (SearchedTable K)) : List String :=
  (merged.filter fun t => t.name ≠ "").map fun t => t.schema ++ "." ++ t.name

/-- Steps 3 to 6, behind the embeddings. -/
def respond (question : String) (hyde : Option HydeSchemaOut × String) (embedText : String) (vectors : ℕ)
    (hydeEmbedding : Option (List K)) (questionEmbedding : List K) : Response K :=
  let merged := mergedOf U deps req hydeEmbedding questionEmbedding
  let schemas := deps.graph.fetchTableSchemas U merged
  let fks := fkRelationships U deps.graph (dottedFqns merged)
  let probed := probe U deps req (extractKeywordsFromHyde U hyde.1 question) (selectProbeColumns U schemas)
  { question := question
    hyde := hyde.1
    selectedTables := merged.map fun t => { t with score := deps.round t.score 4 }
    tableSchemas := schemas
    fkRelationships := fks
    dbProbeResults := probed.1
    debug := {
      hydeStatus := hyde.2
      embedTextLen := embedText.length
      vectorsGenerated := vectors
      hydeMode := (searchHyde U deps req hydeEmbedding).2
      questionMode := (searchTablesByVector U deps.graph.store questionEmbedding req.topK (schemaFilter req)).2
      hydeResults := (searchHyde U deps req hydeEmbedding).1.length
      questionResults :=
        (searchTablesByVector U deps.graph.store questionEmbedding req.topK (schemaFilter req)).1.length
      merged := merged.length
      tables := schemas.length
      fkRelationships := fks.length
      dbProbe := probed.2 } }

def resolveQuestion : Except CallError (Response K) :=
  let question := stripString req.question
  if question = "" then .error (.http ⟨400, none, "question is required"⟩)
  else
    let hyde := generate U deps.readable deps.validate deps.complete deps.elapsed question
    let embedText := (hyde.1.map fun out => buildHydeEmbeddingText U out 8000).getD ""
    match deps.embedBatch (if embedText = "" then [question] else [embedText, question]) with
    | .error exc => .error (.raised exc)
    | .ok embeddings => match embeddings.getLast? with
      | none => .error (.raised ⟨"IndexError", "list index out of range"⟩)
      | some questionEmbedding => .ok (respond U deps req question hyde embedText embeddings.length
          (if embedText = "" then none else embeddings.head?) questionEmbedding)

end

/-! ## What is selected -/

section
variable {U : Unicode} {graph : QuestionGraph K}

theorem mem_fkRelationships {tableFqns : List String} {m : PoolGraph.FkMatch}
    (h : m ∈ fkRelationships U graph tableFqns) :
    m ∈ graph.pool.fkMatches ∧ graph.pool.asked (PoolGraph.askedNames U tableFqns) m.t1 = true ∧
      graph.pool.asked (PoolGraph.askedNames U tableFqns) m.t2 = true := by
  unfold fkRelationships at h
  split_ifs at h
  · cases h
  · obtain ⟨hm, hasked⟩ := List.mem_filter.1 ((List.perm_insertionSort _ _).mem_iff.1 (List.mem_of_mem_take h))
    exact ⟨hm, Bool.and_eq_true_iff.1 hasked⟩

variable [Field K] [LinearOrder K] {deps : Deps K} {req : Request} {hydeEmbedding : Option (List K)}
  {questionEmbedding : List K}

theorem sliceTo_sublist {α : Type*} (xs : List α) (k : ℤ) : (sliceTo xs k).Sublist xs := by
  unfold sliceTo
  split_ifs
  · exact List.take_sublist _ _
  · exact List.take_sublist _ _

theorem mem_mergeTableCandidates {weights : MergeWeights K} {hydeTables questionTables : List (SearchedTable K)}
    {topK : ℤ} {t : SearchedTable K} (h : t ∈ mergeTableCandidates U weights hydeTables questionTables topK) :
    ∃ row ∈ hydeTables ++ questionTables, t.schema = row.schema ∧ t.name = row.name := by
  rw [mergeTableCandidates_eq] at h
  obtain ⟨t', ht', rfl⟩ := List.mem_map.1 h
  have hentry := (perm_tablesByScore _).mem_iff.1 (mem_of_mem_sliceTo ht')
  obtain ⟨row, hrow, rfl⟩ := List.mem_map.1 hentry
  have hrow := mem_of_mem_firsts hrow
  rw [axisRows, List.mem_append] at hrow
  rcases hrow with hrow | hrow
  · obtain ⟨t, ht, rfl⟩ := List.mem_map.1 hrow
    exact ⟨t, List.mem_append_left _ ht, rfl, rfl⟩
  · obtain ⟨t, ht, rfl⟩ := List.mem_map.1 hrow
    exact ⟨t, List.mem_append_right _ ht, rfl, rfl⟩

/-- What is merged are tables of the graph that pass the filter. -/
theorem mem_mergedOf (hsound : deps.graph.store.Sound) {row : SearchedTable K}
    (h : row ∈ mergedOf U deps req hydeEmbedding questionEmbedding) :
    ∃ t ∈ deps.graph.tables,
      t.toTableVertex.eligible deps.graph.toLower (schemaFilterLower U (schemaFilter req)) = true ∧
        row.schema = t.schema.getD "" ∧ row.name = t.name.getD "" := by
  obtain ⟨found, hfound, hschema, hname⟩ := mem_mergeTableCandidates h
  have hsearched : ∃ embedding : List K,
      found ∈ (searchTablesByVector U deps.graph.store embedding req.topK (schemaFilter req)).1 := by
    rcases List.mem_append.1 hfound with hfound | hfound
    · unfold searchHyde at hfound
      split at hfound
      · cases hfound
      · cases hfound
      · exact ⟨_, hfound⟩
    · exact ⟨questionEmbedding, hfound⟩
  obtain ⟨embedding, hsearched⟩ := hsearched
  obtain ⟨vertex, hvertex, heligible, rfl⟩ :=
    search_eligible _ hsound embedding req.topK (schemaFilter req) found hsearched
  obtain ⟨t, ht, rfl⟩ := List.mem_map.1 hvertex
  exact ⟨t, ht, heligible, hschema, hname⟩

/-- No two tables selected have one name, up to case. -/
theorem nodup_mergedOf : ((mergedOf U deps req hydeEmbedding questionEmbedding).map
    fun t => U.lower (fqnOf t.schema t.name)).Nodup := by
  unfold mergedOf
  rw [mergeTableCandidates_eq, List.map_map]
  refine List.Nodup.sublist ((sliceTo_sublist _ _).map _) ?_
  refine ((perm_tablesByScore _).map _).nodup_iff.2 ?_
  rw [entriesBy, List.map_map]
  exact nodup_map_firsts (fun row : K × SearchedTable K => row.2.loweredFqn U) _

theorem length_mergedOf (h : 0 ≤ req.topK) :
    ((mergedOf U deps req hydeEmbedding questionEmbedding).length : ℤ) ≤ req.topK := by
  unfold mergedOf
  rw [mergeTableCandidates_eq, List.length_map, sliceTo, if_pos h, List.length_take]
  omega

/-- The scores fall. -/
theorem pairwise_mergedOf : (mergedOf U deps req hydeEmbedding questionEmbedding).Pairwise
    fun a b => b.score ≤ a.score := by
  unfold mergedOf
  rw [mergeTableCandidates_eq]
  exact List.pairwise_map.2 (List.Pairwise.sublist (sliceTo_sublist _ _) (pairwise_ranked _ _))

end

/-! ## What the probe finds -/

section
variable {U : Unicode} {settings : ProbeSettings} {db : SourceDb} {columns : List ColumnCandidate}

/-- The values of a column that match a word; there are some. -/
def ColumnHit (U : Unicode) (settings : ProbeSettings) (db : SourceDb) (kw : String) (probed : ColumnCandidate → Prop)
    (item : String × List String) : Prop :=
  ∃ col, probed col ∧ item = (col.columnFqn, limitedDbProbe U settings db kw col) ∧ item.2 ≠ []

theorem columnHit_of_mem {kw : String} {item : String × List String}
    (h : item ∈ probeColumns U settings db kw columns) : ColumnHit U settings db kw (· ∈ columns) item := by
  unfold probeColumns at h
  induction columns using List.reverseRecOn with
  | nil => cases h
  | append_singleton columns col ih =>
    rw [List.foldl_append, List.foldl_cons, List.foldl_nil] at h
    have hold (hitem : item ∈ probeColumns U settings db kw columns) :
        ColumnHit U settings db kw (· ∈ columns ++ [col]) item := by
      obtain ⟨col', hcol', heq, hne⟩ := ih hitem
      exact ⟨col', List.mem_append_left _ hcol', heq, hne⟩
    dsimp only at h
    split_ifs at h with hempty
    · exact hold h
    · rcases Dict.mem_or_eq_of_mem_set h with h | rfl
      · exact hold h
      · exact ⟨col, by simp, rfl, hempty⟩

/-- The columns of a word, of which there are some. -/
def WordHit (U : Unicode) (settings : ProbeSettings) (db : SourceDb) (keywords : List String)
    (probed : ColumnCandidate → Prop) (item : String × Dict String (List String)) : Prop :=
  item.1 ≠ "" ∧ item.2 ≠ [] ∧ (∃ keyword ∈ keywords, stripString keyword = item.1) ∧
    ∀ hit ∈ item.2, ColumnHit U settings db item.1 probed hit

theorem WordHit.imp {keywords : List String} {probed probed' : ColumnCandidate → Prop}
    (himp : ∀ col, probed col → probed' col) {item : String × Dict String (List String)}
    (h : WordHit U settings db keywords probed item) : WordHit U settings db keywords probed' item := by
  obtain ⟨hword, hne, hkeyword, hhits⟩ := h
  refine ⟨hword, hne, hkeyword, fun hit hhit => ?_⟩
  obtain ⟨col, hcol, heq⟩ := hhits hit hhit
  exact ⟨col, himp col hcol, heq⟩

theorem wordHit_of_mem {keywords : List String} {item : String × Dict String (List String)}
    (h : item ∈ batchDbProbe U settings db keywords columns) : WordHit U settings db keywords (· ∈ columns) item := by
  unfold batchDbProbe at h
  induction keywords using List.reverseRecOn with
  | nil => cases h
  | append_singleton keywords keyword ih =>
    rw [List.foldl_append, List.foldl_cons, List.foldl_nil] at h
    have hold (hitem : item ∈ batchDbProbe U settings db keywords columns) :
        WordHit U settings db (keywords ++ [keyword]) (· ∈ columns) item := by
      obtain ⟨hword, hne, ⟨keyword', hkeyword', heq⟩, hhits⟩ := ih hitem
      exact ⟨hword, hne, ⟨keyword', List.mem_append_left _ hkeyword', heq⟩, hhits⟩
    dsimp only at h
    split_ifs at h with hempty
    · exact hold h
    · rcases Dict.mem_or_eq_of_mem_set h with h | rfl
      · exact hold h
      · obtain ⟨hword, hcolumns⟩ := not_or.1 hempty
        exact ⟨hword, hcolumns, ⟨keyword, by simp, rfl⟩, fun hit hhit => columnHit_of_mem hhit⟩

/-- A column of a schema that has a name and is of a text type. -/
def TextColumn (U : Unicode) (schemas : List TableSchema) (col : ColumnCandidate) : Prop :=
  ∃ tbl ∈ schemas, ∃ c : SchemaColumn, some c ∈ tbl.columns ∧ ∃ name, c.name = some name ∧ name ≠ "" ∧
    normalizeDtype U c.dtype ∈ textTypes ∧ col = ⟨tbl.schema, tbl.name, name⟩

theorem textColumn_of_mem {schemas : List TableSchema} {col : ColumnCandidate}
    (h : col ∈ selectProbeColumns U schemas) : TextColumn U schemas col := by
  obtain ⟨tbl, htbl, hcol⟩ := List.mem_flatMap.1 (List.mem_of_mem_take h)
  obtain ⟨c?, hmem, hc⟩ := List.mem_filterMap.1 hcol
  unfold probeColumn at hc
  dsimp only at hc
  split_ifs at hc with hskip
  obtain ⟨hname, htype⟩ := not_or.1 hskip
  obtain rfl := Option.some.inj hc
  cases c? with
  | none => exact absurd rfl hname
  | some c =>
    cases hcname : c.name with
    | none =>
      rw [Option.bind_some, hcname] at hname
      exact absurd rfl hname
    | some name =>
      rw [Option.bind_some, hcname] at hname
      refine ⟨tbl, htbl, c, hmem, name, hcname, hname, not_not.1 htype, ?_⟩
      rw [Option.bind_some, hcname]
      rfl

end

/-! ## Responses -/

section
variable (U : Unicode) (deps : Deps K) (req : Request)

/-- What a response owes the graph and the source. -/
structure Response.Admissible [Field K] [LinearOrder K] (response : Response K) : Prop where
  /-- Tables of the graph with a vector, that exist and pass the schema filter. -/
  selected : ∀ row ∈ response.selectedTables, ∃ t ∈ deps.graph.tables,
    t.toTableVertex.eligible deps.graph.toLower (schemaFilterLower U (schemaFilter req)) = true ∧
      row.schema = t.schema.getD "" ∧ row.name = t.name.getD ""
  distinct : (response.selectedTables.map fun t => U.lower (fqnOf t.schema t.name)).Nodup
  scores : response.selectedTables.Pairwise fun a b => b.score ≤ a.score
  count : 0 ≤ req.topK → (response.selectedTables.length : ℤ) ≤ req.topK
  /-- Schemas of tables that are asked for under the names selected, with the columns of such tables. -/
  schemas : ∀ s ∈ response.tableSchemas,
    (∃ t ∈ deps.graph.tables, deps.graph.Asked U response.selectedTables t ∧ t.heading = s.toHeading) ∧
      ∀ c, some c ∈ s.columns → ∃ t ∈ deps.graph.tables, deps.graph.Asked U response.selectedTables t ∧
        t.heading = s.toHeading ∧ c ∈ deps.graph.columnsOf t
  /-- Foreign keys of the graph between tables with the names selected. -/
  fks : ∀ m ∈ response.fkRelationships, m ∈ deps.graph.pool.fkMatches ∧ ∀ t ∈ [m.t1, m.t2],
    deps.graph.pool.asked (PoolGraph.askedNames U (dottedFqns response.selectedTables)) t = true
  /-- Words of the question or the hint, with the text columns of the schemas where they have values. -/
  probes : ∀ results ∈ response.dbProbeResults, req.enableDbProbe = true ∧ results ≠ [] ∧ ∃ db ∈ deps.pool,
    ∀ item ∈ results, WordHit U deps.probe db (extractKeywordsFromHyde U response.hyde response.question)
      (TextColumn U response.tableSchemas) item

variable {U deps req}

theorem fetchTableSchemas_rescored {graph : QuestionGraph K} (merged : List (SearchedTable K)) (round : K → ℕ → K) :
    graph.fetchTableSchemas U (merged.map fun t => { t with score := round t.score 4 }) =
      graph.fetchTableSchemas U merged := by
  unfold QuestionGraph.fetchTableSchemas
  rw [List.filterMap_map]
  rfl

theorem dottedFqns_rescored (merged : List (SearchedTable K)) (round : K → ℕ → K) :
    dottedFqns (merged.map fun t => { t with score := round t.score 4 }) = dottedFqns merged := by
  unfold dottedFqns
  rw [List.filter_map, List.map_map]
  rfl

theorem probe_eq_some {keywords : List String} {columns : List ColumnCandidate}
    {results : Dict String (Dict String (List String))} (h : (probe U deps req keywords columns).1 = some results) :
    req.enableDbProbe = true ∧ results ≠ [] ∧
      ∃ db ∈ deps.pool, results = batchDbProbe U deps.probe db keywords columns := by
  unfold probe at h
  by_cases henabled : ¬ req.enableDbProbe = true
  · rw [if_pos henabled] at h
    cases h
  by_cases hskip : keywords = [] ∨ columns = []
  · rw [if_neg henabled, if_pos hskip] at h
    cases h
  rw [if_neg henabled, if_neg hskip] at h
  dsimp only at h
  split_ifs at h with hnone
  obtain rfl := Option.some.inj h
  cases hpool : deps.pool with
  | none =>
    rw [hpool] at hnone
    exact absurd rfl hnone
  | some db =>
    rw [hpool] at hnone
    exact ⟨not_not.1 henabled, hnone, db, rfl, rfl⟩

variable [Field K] [LinearOrder K]

section
variable {question : String} {hyde : Option HydeSchemaOut × String} {embedText : String} {vectors : ℕ}
  {hydeEmbedding : Option (List K)} {questionEmbedding : List K}

theorem selectedTables_respond :
    (respond U deps req question hyde embedText vectors hydeEmbedding questionEmbedding).selectedTables =
      (mergedOf U deps req hydeEmbedding questionEmbedding).map fun t => { t with score := deps.round t.score 4 } := rfl

/-- The schemas are those of the tables selected. -/
theorem tableSchemas_respond :
    (respond U deps req question hyde embedText vectors hydeEmbedding questionEmbedding).tableSchemas =
      deps.graph.fetchTableSchemas U
        (respond U deps req question hyde embedText vectors hydeEmbedding questionEmbedding).selectedTables := by
  rw [selectedTables_respond, fetchTableSchemas_rescored]
  rfl

/-- The foreign keys are those among the tables selected. -/
theorem fkRelationships_respond :
    (respond U deps req question hyde embedText vectors hydeEmbedding questionEmbedding).fkRelationships =
      fkRelationships U deps.graph (dottedFqns
        (respond U deps req question hyde embedText vectors hydeEmbedding questionEmbedding).selectedTables) := by
  rw [selectedTables_respond, dottedFqns_rescored]
  rfl

/-- The probe is made of the words of the hint and the question, in the text columns of the schemas. -/
theorem dbProbeResults_respond :
    (respond U deps req question hyde embedText vectors hydeEmbedding questionEmbedding).dbProbeResults =
      (probe U deps req (extractKeywordsFromHyde U hyde.1 question) (selectProbeColumns U
        (respond U deps req question hyde embedText vectors hydeEmbedding questionEmbedding).tableSchemas)).1 := rfl

end

theorem respond_of_ok {response : Response K} (h : resolveQuestion U deps req = .ok response) :
    stripString req.question ≠ "" ∧ ∃ hyde embedText vectors hydeEmbedding questionEmbedding,
      response = respond U deps req (stripString req.question) hyde embedText vectors hydeEmbedding
        questionEmbedding := by
  unfold resolveQuestion at h
  by_cases hquestion : stripString req.question = ""
  · rw [if_pos hquestion] at h
    cases h
  rw [if_neg hquestion] at h
  refine ⟨hquestion, ?_⟩
  dsimp only at h
  split at h
  · cases h
  split at h
  · cases h
  · exact ⟨_, _, _, _, _, (Except.ok.inj h).symm⟩

/-- **Responses are admissible**, if the index answers with tables of the graph and rounding keeps the order. -/
theorem resolveQuestion_admissible (hsound : deps.graph.store.Sound) (hround : Monotone fun x => deps.round x 4)
    {response : Response K} (h : resolveQuestion U deps req = .ok response) : response.Admissible U deps req := by
  obtain ⟨-, hyde, embedText, vectors, hydeEmbedding, questionEmbedding, rfl⟩ := respond_of_ok h
  refine ⟨fun row hrow => ?_, ?_, ?_, fun htopK => ?_, fun s hs => ⟨?_, fun c hc => ?_⟩, fun m hm => ?_,
    fun results hresults => ?_⟩
  · rw [selectedTables_respond] at hrow
    obtain ⟨row, hmerged, rfl⟩ := List.mem_map.1 hrow
    obtain ⟨t, ht, heligible, hschema, hname⟩ := mem_mergedOf hsound hmerged
    exact ⟨t, ht, heligible, hschema, hname⟩
  · rw [selectedTables_respond, List.map_map]
    exact nodup_mergedOf
  · rw [selectedTables_respond]
    exact List.pairwise_map.2 (pairwise_mergedOf.imp fun hle => hround hle)
  · rw [selectedTables_respond, List.length_map]
    exact length_mergedOf htopK
  · rw [tableSchemas_respond] at hs
    exact QuestionGraph.heading_mem_iff.1 ⟨s, hs, rfl⟩
  · rw [tableSchemas_respond] at hs
    exact QuestionGraph.mem_columns_iff.1 ⟨s, hs, rfl, hc⟩
  · rw [fkRelationships_respond] at hm
    obtain ⟨hmatch, hleft, hright⟩ := mem_fkRelationships hm
    exact ⟨hmatch, by simp [hleft, hright]⟩
  · rw [Option.mem_def, dbProbeResults_respond] at hresults
    obtain ⟨henabled, hne, db, hdb, heq⟩ := probe_eq_some hresults
    refine ⟨henabled, hne, db, hdb, fun item hitem => ?_⟩
    rw [heq] at hitem
    exact (wordHit_of_mem hitem).imp fun col hcol => textColumn_of_mem hcol

/-! ## No schema is missing -/

/-- The graph and the service fold case alike, and names stand without blanks. -/
def Folds (U : Unicode) (graph : QuestionGraph K) : Prop :=
  ∀ t ∈ graph.tables, (∀ n ∈ t.name, graph.toLower n = U.lower (stripString n)) ∧
    ∀ s ∈ t.schema, graph.toLower s = U.lower (stripString s)

omit [Field K] [LinearOrder K] in
/-- A table answers the request for its own row. -/
theorem accepts_of_folds {graph : QuestionGraph K} (hfolds : Folds U graph) {t : SchemaVertex K}
    (ht : t ∈ graph.tables) {row : SearchedTable K} (hschema : row.schema = t.schema.getD "")
    (hname : row.name = t.name.getD "") (hne : stripString row.name ≠ "") :
    ∃ req, requestOf U row = some req ∧ req.accepts graph.toLower t.graphTable = true := by
  obtain ⟨hfoldName, hfoldSchema⟩ := hfolds t ht
  refine ⟨_, if_neg hne, ?_⟩
  rw [TableRequest.accepts, Bool.and_eq_true, Bool.or_eq_true]
  constructor
  · left
    cases htname : t.name with
    | none =>
      rw [hname, htname] at hne
      exact absurd rfl hne
    | some n =>
      rw [SchemaVertex.graphTable, htname, Option.any_some, decide_eq_true_eq, hname, htname]
      exact hfoldName n htname
  · cases htschema : t.schema with
    | none =>
      rw [hschema, htschema]
      rfl
    | some s =>
      rw [hschema, htschema, Option.getD_some]
      by_cases hs : stripString s = ""
      · rw [hs]
        rfl
      · have hnonempty : nonempty (some (stripString s)) = some (stripString s) := by simp [nonempty, hs]
        rw [hnonempty, SchemaVertex.graphTable, htschema]
        simpa using hfoldSchema s htschema

/-- **No schema is missing.**  Where case is folded alike, each table selected has its schema in the response, with
its columns. -/
theorem resolveQuestion_schemas (hsound : deps.graph.store.Sound) (hfolds : Folds U deps.graph)
    {response : Response K} (h : resolveQuestion U deps req = .ok response) {row : SearchedTable K}
    (hrow : row ∈ response.selectedTables) (hne : stripString row.name ≠ "") :
    ∃ t ∈ deps.graph.tables, row.schema = t.schema.getD "" ∧ row.name = t.name.getD "" ∧
      (∃ s ∈ response.tableSchemas, s.toHeading = t.heading) ∧
      ∀ c ∈ deps.graph.columnsOf t, ∃ s ∈ response.tableSchemas, s.toHeading = t.heading ∧ some c ∈ s.columns := by
  obtain ⟨-, hyde, embedText, vectors, hydeEmbedding, questionEmbedding, rfl⟩ := respond_of_ok h
  rw [tableSchemas_respond]
  rw [selectedTables_respond] at hrow ⊢
  obtain ⟨merged, hmerged, rfl⟩ := List.mem_map.1 hrow
  obtain ⟨t, ht, heligible, hschema, hname⟩ := mem_mergedOf hsound hmerged
  have hexists : t.dbExists.getD true = true := by
    rw [TableVertex.eligible, Bool.and_eq_true, Bool.and_eq_true] at heligible
    exact heligible.1.2
  obtain ⟨request, hrequest, haccepts⟩ := accepts_of_folds hfolds ht hschema hname hne
  have hasked : deps.graph.Asked U ((mergedOf U deps req hydeEmbedding questionEmbedding).map
      fun t => { t with score := deps.round t.score 4 }) t := ⟨hexists, _, hrow, request, hrequest, haccepts⟩
  exact ⟨t, ht, hschema, hname, QuestionGraph.heading_mem_iff.2 ⟨t, ht, hasked, rfl⟩, fun c hc =>
    QuestionGraph.mem_columns_iff.2 ⟨t, ht, hasked, rfl, hc⟩⟩

/-! ## Tables without a schema -/

omit [Field K] [LinearOrder K] in
/-- A name that is asked for has a dot. -/
theorem dot_mem_askedNames (hlower : ∀ s : String, '.' ∈ s.toList → '.' ∈ (U.lower s).toList)
    {merged : List (SearchedTable K)} {name : String} (h : name ∈ PoolGraph.askedNames U (dottedFqns merged)) :
    '.' ∈ name.toList := by
  obtain ⟨fqn, hfqn, rfl⟩ := List.mem_map.1 h
  obtain ⟨t, -, rfl⟩ := List.mem_map.1 (List.mem_filter.1 hfqn).1
  refine hlower _ ?_
  rw [stripString, String.toList_ofList]
  exact mem_strip (by decide) (by simp)

/-- **Foreign keys missed.**  Where no name of a table has a dot, a response has no foreign key of a table without a
schema: such a table is asked for with a dot in front. -/
theorem resolveQuestion_schemaless (hlower : ∀ s : String, '.' ∈ s.toList → '.' ∈ (U.lower s).toList)
    (hdots : ∀ t ∈ deps.graph.tables, ∀ n ∈ t.name, '.' ∉ (deps.graph.toLower n).toList)
    {response : Response K} (h : resolveQuestion U deps req = .ok response) :
    ∀ m ∈ response.fkRelationships, ∀ t ∈ [m.t1, m.t2], nonempty t.schema ≠ none := by
  intro m hm t ht
  obtain ⟨-, hyde, embedText, vectors, hydeEmbedding, questionEmbedding, rfl⟩ := respond_of_ok h
  rw [fkRelationships_respond] at hm
  obtain ⟨hmatch, hleft, hright⟩ := mem_fkRelationships hm
  obtain ⟨r, -, fk, -, r', -, -, -, -, ht1, -, -, ht2⟩ := PoolGraph.mem_fkMatches.1 hmatch
  have hasked : deps.graph.pool.asked (PoolGraph.askedNames U (dottedFqns
      (respond U deps req (stripString req.question) hyde embedText vectors hydeEmbedding
        questionEmbedding).selectedTables)) t = true := by
    rcases List.mem_pair.1 ht with rfl | rfl
    · exact hleft
    · exact hright
  have htable : t ∈ deps.graph.pool.tables := by
    rcases List.mem_pair.1 ht with rfl | rfl
    · exact (PoolGraph.mem_of_table? ht1).1
    · exact (PoolGraph.mem_of_table? ht2).1
  obtain ⟨vertex, hvertex, rfl⟩ := List.mem_map.1 htable
  intro hnone
  cases hname : vertex.name with
  | none =>
    rw [PoolGraph.asked, PoolTable.fqn, hname] at hasked
    cases hasked
  | some name =>
    rw [PoolGraph.asked, PoolTable.fqn, hname, Option.map_some, Option.any_some, hnone, decide_eq_true_eq] at hasked
    exact hdots vertex hvertex name hname (dot_mem_askedNames hlower hasked)

end

/-! ## A question about two sites -/

/-- `flow` refers to `site`; `depot` has no schema, and its foreign key is missed. -/
def siteGraph : QuestionGraph ℚ where
  tables := [{ id := 1, schema := some "mart", name := some "flow", vector := some [1] },
    { id := 2, schema := some "mart", name := some "site", vector := some [1 / 2] },
    { id := 3, name := some "depot", vector := some [1 / 4] }]
  columns := [{ id := 11, name := some "site_id", dtype := some "int" },
    { id := 12, name := some "site_id", dtype := some "int" },
    { id := 13, name := some "SITE_NAME", dtype := some "VARCHAR(20)" },
    { id := 14, name := some "site_id", dtype := some "int" }]
  hasColumn := [⟨21, 1, 11⟩, ⟨22, 2, 12⟩, ⟨23, 2, 13⟩, ⟨24, 3, 14⟩]
  fkTo := [⟨31, 11, 12⟩, ⟨32, 14, 12⟩]
  toLower := asciiLower
  cosine v w := v.headD 0 * w.headD 0
  queryNodes _ _ := .error "no such vector schema index"
  order rows := rows
  order_perm rows := List.Perm.refl rows

/-- The language model is out of reach. -/
def siteDeps : Deps ℚ where
  graph := siteGraph
  readable _ := false
  validate _ := none
  complete _ := .error "timeout"
  elapsed := "0"
  embedBatch texts := .ok (texts.map fun _ => [1])
  pool := some {
    values := fun kw _ _ => if kw = "dam" then some [some "Dam A", none] else some []
    codes := fun _ _ _ => none }
  probe := {}
  round x _ := x

def siteRequest : Request where
  question := " dam flow "

def siteResponse : Response ℚ :=
  respond .ascii siteDeps siteRequest "dam flow" (none, "llm_error: timeout") "" 1 none [1]

theorem sites_resolved : resolveQuestion .ascii siteDeps siteRequest = .ok siteResponse := by
  rfl

theorem sound_siteGraph : siteGraph.store.Sound := by
  rintro k embedding hits h
  cases h

theorem resolveQuestion_admissible_sites : siteResponse.Admissible .ascii siteDeps siteRequest :=
  resolveQuestion_admissible sound_siteGraph (fun _ _ h => h) sites_resolved

/-- The table without a schema, as it is selected. -/
def depotRow : SearchedTable ℚ where
  schema := ""
  name := "depot"
  score := 1 / 10

theorem resolveQuestion_schemas_sites :
    ∃ t ∈ siteGraph.tables, depotRow.schema = t.schema.getD "" ∧ depotRow.name = t.name.getD "" ∧
      (∃ s ∈ siteResponse.tableSchemas, s.toHeading = t.heading) ∧
      ∀ c ∈ siteGraph.columnsOf t, ∃ s ∈ siteResponse.tableSchemas, s.toHeading = t.heading ∧ some c ∈ s.columns :=
  resolveQuestion_schemas sound_siteGraph (by unfold Folds; decide +kernel) sites_resolved
    (show depotRow ∈ siteResponse.selectedTables by decide +kernel) (by decide +kernel)

theorem dot_mem_asciiLower (s : String) (h : '.' ∈ s.toList) : '.' ∈ (Unicode.ascii.lower s).toList := by
  change '.' ∈ (asciiLower s).toList
  rw [asciiLower, String.toList_ofList]
  exact List.mem_map.2 ⟨'.', h, by decide⟩

/-- The foreign key of `depot` is not among those in the response. -/
theorem resolveQuestion_schemaless_sites : depotRow ∈ siteResponse.selectedTables ∧
    siteResponse.fkRelationships ≠ [] ∧
    ∀ m ∈ siteResponse.fkRelationships, ∀ t ∈ [m.t1, m.t2], nonempty t.schema ≠ none :=
  ⟨by decide +kernel, by decide +kernel,
    resolveQuestion_schemaless dot_mem_asciiLower (by decide +kernel) sites_resolved⟩

end ResolveQuestion

end RoboMeta
