/-
  `resolve_entities` (`services/entity_resolution.py`), with the probe of
  `services/neo4j_client/db_probe.py`.

  Every keyword is probed in every label column of the registry.  For a pair of
  a keyword and a column with matching labels the codes of the labels are
  looked up, first by the labels and then by the keyword, and the codes found
  are appended to the result (`resolvePair`).

  * `StatusMeaning`: what `complete` is to mean;
  * `resolvePairs_ok`: a run of the loop, pair by pair;
  * `statusMeaning_iff`.
-/
import RoboMeta.EntityResolution

namespace RoboMeta

/-! ## The database -/

/-- A row of a code lookup. -/
structure CodeRow where
  code : Option String
  label : Option String
deriving DecidableEq, Repr

/-- What a query answers for a keyword and a column, `none` if it fails. -/
structure SourceDb where
  values : String → ColumnCandidate → String → Option (List (Option String))
  codes : String → ColumnCandidate → String → Option (List CodeRow)

structure ProbeSettings where
  /-- `settings.source_pg_schema`. -/
  sourcePgSchema : String := "RWIS"
  /-- `SOURCE_PG_SCHEMA` in the environment. -/
  envPgSchema : Option String := none
  dbProbeValueLimit : ℕ := 10
  entityResolutionEnabled : Bool := true

/-! ## The probe -/

def ColumnCandidate.tableFqn (col : ColumnCandidate) : String :=
  if col.tableSchema = "" then col.tableName else col.tableSchema ++ "." ++ col.tableName

def ColumnCandidate.columnFqn (col : ColumnCandidate) : String :=
  if col.tableFqn = "" then col.name else col.tableFqn ++ "." ++ col.name

def safeIdent (part : String) : String := String.ofList (part.toList.filter identChar)

section
variable (U : Unicode) (settings : ProbeSettings)

def qualifiedTableIdent (tableName : String) : String :=
  let envSchema := safeIdent ((nonempty settings.envPgSchema).getD "RWIS")
  let schemaId :=
    if "fct_".toList.isPrefixOf (U.lower tableName).toList then "mart"
    else if envSchema = "" then "RWIS" else envSchema
  if safeIdent tableName = "" then ""
  else "\"" ++ schemaId ++ "\".\"" ++ safeIdent tableName ++ "\""

def labelProbeSql (kw : String) (col : ColumnCandidate) : String :=
  let colIdent := "\"" ++ safeIdent col.name ++ "\""
  "SELECT DISTINCT " ++ colIdent ++ " AS value FROM " ++ qualifiedTableIdent U settings col.tableName ++
    " WHERE " ++ colIdent ++ " IS NOT NULL AND " ++ spaceInsensitiveMatchSql colIdent (doubleQuotes kw) ++
    " LIMIT " ++ toString settings.dbProbeValueLimit

/-- The labels of a column that match a keyword. -/
def limitedDbProbe (db : SourceDb) (keyword : String) (col : ColumnCandidate) : List String :=
  let kw := stripString keyword
  if kw = "" then []
  else if safeIdent col.tableName = "" ∨ safeIdent col.name = "" then []
  else match db.values kw col (labelProbeSql U settings kw col) with
    | none => []
    | some rows => (rows.take settings.dbProbeValueLimit).filterMap fun v =>
        v.bind fun s => nonempty (some (stripString s))

/-- The columns of a keyword with their labels. -/
def probeColumns (db : SourceDb) (kw : String) (columns : List ColumnCandidate) : Dict String (List String) :=
  columns.foldl (fun kwMap col =>
    let vals := limitedDbProbe U settings db kw col
    if vals = [] then kwMap else kwMap.set col.columnFqn vals) []

def batchDbProbe (db : SourceDb) (keywords : List String) (columns : List ColumnCandidate) :
    Dict String (Dict String (List String)) :=
  keywords.foldl (fun results keyword =>
    let kw := stripString keyword
    let kwMap := probeColumns U settings db kw columns
    if kw = "" ∨ kwMap = [] then results else results.set kw kwMap) []

end

/-! ## The lookups -/

def normalizeCode (value : Option String) : String := stripString (value.getD "")

/-- `_rows_to_code_label_pairs`; the first component are the keys already seen. -/
def rowsToCodeLabelPairs (rows : List CodeRow) : List (String × String) :=
  (rows.foldl (fun (acc : List String × List (String × String)) row =>
    let code := normalizeCode row.code
    let label := normalizeCode row.label
    if code = "" ∨ label = "" ∨ code ++ "|" ++ label ∈ acc.1 then acc
    else ((code ++ "|" ++ label) :: acc.1, acc.2 ++ [(code, label)])) ([], [])).2

section
variable (U : Unicode) (settings : ProbeSettings) (db : SourceDb)

/-- What both lookups select, from the table of a column. -/
def lookupSql (col : ColumnCandidate) (codeCol pgSchema condition : String) (limit : ℕ) : String :=
  "SELECT rtrim(" ++ quotedIdent codeCol ++ "::text) AS code, " ++ quotedIdent col.name ++
    "::text AS label FROM " ++ qualifiedTableRef U settings.sourcePgSchema col.tableName pgSchema ++
    " WHERE " ++ condition ++ " ORDER BY " ++ quotedIdent codeCol ++ " LIMIT " ++ toString limit

/-- Whether the identifiers of a lookup are there. -/
def lookupIdents (col : ColumnCandidate) (codeCol pgSchema : String) : Prop :=
  qualifiedTableRef U settings.sourcePgSchema col.tableName pgSchema ≠ "" ∧ quotedIdent col.name ≠ "" ∧
    quotedIdent codeCol ≠ ""

instance (col : ColumnCandidate) (codeCol pgSchema : String) :
    Decidable (lookupIdents U settings col codeCol pgSchema) := by unfold lookupIdents; infer_instance

/-- The pairs of the rows that a lookup answers; a lookup that fails finds none. -/
def fetchPairs (kw : String) (col : ColumnCandidate) (sql : String) : List (String × String) :=
  match db.codes kw col sql with
  | none => []
  | some rows => rowsToCodeLabelPairs rows

def lookupCodeLabelPairs (kw : String) (col : ColumnCandidate) (codeCol pgSchema : String) (limit : ℕ) :
    List (String × String) :=
  if lookupIdents U settings col codeCol pgSchema then
    fetchPairs db kw col (lookupSql U settings col codeCol pgSchema
      (quotedIdent col.name ++ " IS NOT NULL AND " ++
        spaceInsensitiveMatchSql (quotedIdent col.name) (doubleQuotes kw)) limit)
  else []

def lookupCodeLabelPairsForValues (kw : String) (col : ColumnCandidate) (codeCol pgSchema : String)
    (names : List String) (limit : ℕ) : List (String × String) :=
  let cleaned := names.filterMap fun n => nonempty (some (stripString n))
  let inList := ", ".intercalate ((cleaned.take limit).map fun n => "'" ++ doubleQuotes n ++ "'")
  if lookupIdents U settings col codeCol pgSchema ∧ cleaned ≠ [] then
    fetchPairs db kw col (lookupSql U settings col codeCol pgSchema
      (quotedIdent col.name ++ "::text IN (" ++ inList ++ ")") limit)
  else []

end

/-! ## The loop -/

def probeSpecsToColumns (specs : List ProbeSpec) : List ColumnCandidate :=
  specs.flatMap fun spec => spec.labelColumns.map fun label =>
    { tableSchema := spec.neo4jSchema, tableName := spec.table, name := label }

def specForColumn (U : Unicode) (specs : List ProbeSpec) (tableName labelColumn : String) : Option ProbeSpec :=
  specs.find? fun spec => U.upper spec.table = U.upper (stripString tableName) ∧
    U.lower (stripString labelColumn) ∈ spec.labelColumns.map U.lower

/-- A keyword, a column and the labels of the column that match. -/
structure MatchedPair where
  kw : String
  columnFqn : String
  values : List String
deriving DecidableEq, Repr

def matchedPairs (results : Dict String (Dict String (List String))) : List MatchedPair :=
  results.flatMap fun (kw, colMap) => colMap.map fun (fqn, values) => ⟨kw, fqn, values⟩

section
variable (U : Unicode) (settings : ProbeSettings) (db : SourceDb) (specs : List ProbeSpec)

/-- `code_values`. -/
def foundCodes (pair : MatchedPair) (col : ColumnCandidate) (spec : ProbeSpec) : List ResolvedValue :=
  let byValues := lookupCodeLabelPairsForValues U settings db pair.kw col spec.codeColumn spec.pgSchema
    pair.values 10
  let pairs := if byValues = [] then
    lookupCodeLabelPairs U settings db pair.kw col spec.codeColumn spec.pgSchema 10 else byValues
  (pairs.take maxResolvedValues).map fun (code, label) => ⟨code, some label⟩

/-- The column, the table and the codes of a pair; a pair without one of them is passed over. -/
def pairCodes (pair : MatchedPair) : Option (ColumnCandidate × ProbeSpec × List ResolvedValue) := do
  guard (pair.values ≠ [])
  let col ← (probeSpecsToColumns specs).find? fun col => col.columnFqn = pair.columnFqn
  let spec ← specForColumn U specs col.tableName col.name
  guard (foundCodes U settings db pair col spec ≠ [])
  return (col, spec, foundCodes U settings db pair col spec)

/-- The body of the loop. -/
def resolvePair (acc : List ResolvedEntity × List SuggestedProbe) (pair : MatchedPair) :
    Except PyError (List ResolvedEntity × List SuggestedProbe) :=
  match pairCodes U settings db specs pair with
  | none => .ok acc
  | some (col, spec, codeValues) => appendResolution U settings.sourcePgSchema acc.1 acc.2 pair.kw col (some spec)
      spec.codeColumn codeValues spec.pgSchema

def resolvePairs (pairs : List MatchedPair) : Except PyError (List ResolvedEntity × List SuggestedProbe) :=
  pairs.foldlM (resolvePair U settings db specs) ([], [])

end

/-- `resolution_status` of a run that reached the loop. -/
def statusOf (resolved : List ResolvedEntity) (probes : List SuggestedProbe) : String :=
  if resolved ≠ [] ∧ probes = [] then "complete"
  else if resolved ≠ [] ∨ probes ≠ [] then "partial"
  else "failed"

structure Resolution where
  resolved : List ResolvedEntity := []
  probes : List SuggestedProbe := []
  status : String
deriving DecidableEq, Repr

section
variable (U : Unicode) (settings : ProbeSettings) (pool : Option SourceDb) (registry : Option (List ProbeSpec))
  (keywords : List String)

/-- The database and the tables of a run that reaches the loop. -/
def reached : Option (SourceDb × List ProbeSpec) := do
  if ¬ settings.entityResolutionEnabled ∨ keywords = [] then none
  let db ← pool
  let specs ← registry
  if probeSpecsToColumns specs = [] then none
  return (db, specs)

/-- The status of a run that ends before. -/
def earlyStatus : String :=
  if ¬ settings.entityResolutionEnabled ∨ keywords = [] then "skipped"
  else if pool.isNone ∨ registry.isNone then "failed"
  else "skipped"

/-- `resolve_entities`, `keywords` being those of the question, `pool` none without a connection
and `registry` none if it cannot be loaded. -/
def resolveEntities : Except PyError Resolution :=
  match reached settings pool registry keywords with
  | none => .ok { status := earlyStatus settings pool registry keywords }
  | some (db, specs) => do
    let results := batchDbProbe U settings db keywords (probeSpecsToColumns specs)
    let (resolved, probes) ← resolvePairs U settings db specs (matchedPairs results)
    return { resolved := resolved, probes := probes, status := statusOf resolved probes }

end

/-! ## What a pair adds -/

theorem values_resolvedEntity {kw codeCol : String} {col : ColumnCandidate} {spec : Option ProbeSpec}
    {codeValues : List ResolvedValue} {entity : ResolvedEntity}
    (h : resolvedEntity kw col spec codeCol codeValues = .ok entity) : entity.values = codeValues := by
  simp only [resolvedEntity] at h
  split_ifs at h
  rw [← Except.ok.inj h]

theorem appendResolution_eq (U : Unicode) (sourcePgSchema : String) (resolved : List ResolvedEntity)
    (probes : List SuggestedProbe) (kw : String) (col : ColumnCandidate) (spec : Option ProbeSpec)
    (codeCol : String) {codeValues : List ResolvedValue} (pgSchema : String)
    (h : codeValues.length ≤ maxResolvedValues) :
    appendResolution U sourcePgSchema resolved probes kw col spec codeCol codeValues pgSchema =
      (resolvedEntity kw col spec codeCol codeValues).map fun entity => (resolved ++ [entity],
        probes ++ if codeValues.length = 1 then [] else [suggestedProbe U sourcePgSchema kw col codeCol pgSchema
          ("multiple matches (" ++ toString codeValues.length ++ ") for mention=" ++ kw)]) := by
  unfold appendResolution
  by_cases hone : codeValues.length = 1
  · rw [if_pos hone, if_pos hone, List.append_nil]
    cases resolvedEntity kw col spec codeCol codeValues <;> rfl
  · rw [if_neg hone, if_pos h, if_neg hone]
    cases resolvedEntity kw col spec codeCol codeValues <;> rfl

section
variable {U : Unicode} {settings : ProbeSettings} {db : SourceDb} {specs : List ProbeSpec} {pair : MatchedPair}

theorem pairCodes_length {col : ColumnCandidate} {spec : ProbeSpec} {codeValues : List ResolvedValue}
    (h : pairCodes U settings db specs pair = some (col, spec, codeValues)) :
    codeValues ≠ [] ∧ codeValues.length ≤ maxResolvedValues := by
  simp only [pairCodes, Option.bind_eq_bind, Option.bind_eq_some_iff, Option.guard_eq_some', Option.pure_def,
    Option.some.injEq, Prod.mk.injEq] at h
  obtain ⟨-, -, _, -, _, -, -, hcodes, rfl, rfl, rfl⟩ := h
  refine ⟨hcodes, ?_⟩
  rw [foundCodes, List.length_map]
  exact List.length_take_le _ _

/-- What the body of the loop adds does not depend on what is there. -/
theorem resolvePair_eq (acc : List ResolvedEntity × List SuggestedProbe) (pair : MatchedPair) :
    resolvePair U settings db specs acc pair =
      (resolvePair U settings db specs ([], []) pair).map fun d => (acc.1 ++ d.1, acc.2 ++ d.2) := by
  unfold resolvePair
  cases hcodes : pairCodes U settings db specs pair with
  | none => simp [Except.map]
  | some found =>
    obtain ⟨col, spec, codeValues⟩ := found
    have hlength := (pairCodes_length hcodes).2
    simp only [appendResolution_eq _ _ _ _ _ _ _ _ _ hlength]
    cases resolvedEntity pair.kw col (some spec) spec.codeColumn codeValues <;> simp [Except.map]

/-- A pair adds one entity with its codes, and a probe unless there is one code. -/
theorem resolvePair_ok {d : List ResolvedEntity × List SuggestedProbe}
    (h : resolvePair U settings db specs ([], []) pair = .ok d) :
    match pairCodes U settings db specs pair with
    | none => d = ([], [])
    | some (_, _, codeValues) => (∃ entity, d.1 = [entity] ∧ entity.values = codeValues) ∧
        (d.2 = [] ↔ codeValues.length = 1) := by
  unfold resolvePair at h
  cases hcodes : pairCodes U settings db specs pair with
  | none =>
    simp only [hcodes] at h
    exact (Except.ok.inj h).symm
  | some found =>
    obtain ⟨col, spec, codeValues⟩ := found
    simp only [hcodes, appendResolution_eq _ _ _ _ _ _ _ _ _ (pairCodes_length hcodes).2] at h
    obtain ⟨entity, hentity, rfl⟩ := Except.map_eq_ok.1 h
    refine ⟨⟨entity, rfl, ?_⟩, ?_⟩
    · exact values_resolvedEntity hentity
    · by_cases hone : codeValues.length = 1 <;> simp [hone]

/-! ## A run of the loop -/

/-- The pair is given codes. -/
def HasCode (U : Unicode) (settings : ProbeSettings) (db : SourceDb) (specs : List ProbeSpec)
    (pair : MatchedPair) : Prop :=
  (pairCodes U settings db specs pair).isSome

/-- The pair is given several codes. -/
def Ambiguous (U : Unicode) (settings : ProbeSettings) (db : SourceDb) (specs : List ProbeSpec)
    (pair : MatchedPair) : Prop :=
  ∃ found ∈ pairCodes U settings db specs pair, found.2.2.length ≠ 1

/-- The body of the loop gives the pair an entity. -/
def Produces (U : Unicode) (settings : ProbeSettings) (db : SourceDb) (specs : List ProbeSpec)
    (pair : MatchedPair) : Prop :=
  ∃ entity probes, resolvePair U settings db specs ([], []) pair = .ok ([entity], probes)

section
variable {d : List ResolvedEntity × List SuggestedProbe} (h : resolvePair U settings db specs ([], []) pair = .ok d)
include h

theorem entities_eq_nil_iff : d.1 = [] ↔ ¬ HasCode U settings db specs pair := by
  have hok := resolvePair_ok h
  unfold HasCode
  cases hcodes : pairCodes U settings db specs pair with
  | none =>
    simp only [hcodes] at hok
    simp [hok]
  | some found =>
    simp only [hcodes] at hok
    obtain ⟨⟨entity, hentity, -⟩, -⟩ := hok
    simp [hentity]

theorem probes_eq_nil_iff : d.2 = [] ↔ ¬ Ambiguous U settings db specs pair := by
  have hok := resolvePair_ok h
  unfold Ambiguous
  cases hcodes : pairCodes U settings db specs pair with
  | none =>
    simp only [hcodes] at hok
    simp [hok]
  | some found =>
    simp only [hcodes] at hok
    simp [hok.2]

theorem single_iff : (∀ entity ∈ d.1, entity.values.length = 1) ↔ ¬ Ambiguous U settings db specs pair := by
  have hok := resolvePair_ok h
  unfold Ambiguous
  cases hcodes : pairCodes U settings db specs pair with
  | none =>
    simp only [hcodes] at hok
    simp [hok]
  | some found =>
    simp only [hcodes] at hok
    obtain ⟨⟨entity, hentity, hvalues⟩, -⟩ := hok
    simp [hentity, hvalues]

theorem produces_iff_hasCode : Produces U settings db specs pair ↔ HasCode U settings db specs pair := by
  rw [← not_iff_not, ← entities_eq_nil_iff h]
  have hok := resolvePair_ok h
  constructor
  · intro hnot
    cases hcodes : pairCodes U settings db specs pair with
    | none =>
      simp only [hcodes] at hok
      rw [hok]
    | some found =>
      simp only [hcodes] at hok
      obtain ⟨⟨entity, hentity, -⟩, -⟩ := hok
      exact absurd ⟨entity, d.2, by rw [h, ← hentity]⟩ hnot
  · rintro hnil ⟨entity, probes, hrun⟩
    rw [h] at hrun
    rw [Except.ok.inj hrun] at hnil
    cases hnil

end

/-- The results of the pairs, put together. -/
theorem foldl_append_eq (ds : List (List ResolvedEntity × List SuggestedProbe))
    (acc : List ResolvedEntity × List SuggestedProbe) :
    ds.foldl (fun acc d => (acc.1 ++ d.1, acc.2 ++ d.2)) acc =
      (acc.1 ++ ds.flatMap Prod.fst, acc.2 ++ ds.flatMap Prod.snd) := by
  induction ds generalizing acc with
  | nil => simp
  | cons d ds ih =>
    rw [List.foldl_cons, ih]
    simp

section
variable {pairs : List MatchedPair} {resolved : List ResolvedEntity} {probes : List SuggestedProbe}
  (h : resolvePairs U settings db specs pairs = .ok (resolved, probes))
include h

/-- A run adds, pair by pair, what the pairs add by themselves. -/
theorem resolvePairs_ok : ∃ ds, pairs.mapM (resolvePair U settings db specs ([], [])) = .ok ds ∧
    resolved = ds.flatMap Prod.fst ∧ probes = ds.flatMap Prod.snd := by
  rw [resolvePairs, Except.foldlM_eq_map resolvePair_eq] at h
  obtain ⟨ds, hds, hfold⟩ := Except.map_eq_ok.1 h
  rw [foldl_append_eq, Prod.mk.injEq] at hfold
  exact ⟨ds, hds, by simpa using hfold.1.symm, by simpa using hfold.2.symm⟩

theorem produces_iff {pair : MatchedPair} (hpair : pair ∈ pairs) :
    Produces U settings db specs pair ↔ HasCode U settings db specs pair := by
  obtain ⟨ds, hds, -⟩ := resolvePairs_ok h
  obtain ⟨d, -, hd⟩ := Except.exists_of_mapM_eq_ok hds hpair
  exact produces_iff_hasCode hd

theorem resolved_eq_nil : resolved = [] ↔ ∀ pair ∈ pairs, ¬ HasCode U settings db specs pair := by
  obtain ⟨ds, hds, rfl, -⟩ := resolvePairs_ok h
  rw [List.flatMap_eq_nil_iff]
  exact Except.forall_mem_mapM_iff entities_eq_nil_iff hds

theorem probes_eq_nil : probes = [] ↔ ∀ pair ∈ pairs, ¬ Ambiguous U settings db specs pair := by
  obtain ⟨ds, hds, -, rfl⟩ := resolvePairs_ok h
  rw [List.flatMap_eq_nil_iff]
  exact Except.forall_mem_mapM_iff probes_eq_nil_iff hds

theorem values_single_iff : (∀ entity ∈ resolved, entity.values.length = 1) ↔
    ∀ pair ∈ pairs, ¬ Ambiguous U settings db specs pair := by
  obtain ⟨ds, hds, rfl, -⟩ := resolvePairs_ok h
  rw [List.forall_mem_flatMap]
  exact Except.forall_mem_mapM_iff single_iff hds

end

end

/-! ## The meaning of the status -/

section
variable (U : Unicode) (settings : ProbeSettings) (pool : Option SourceDb) (registry : Option (List ProbeSpec))
  (keywords : List String)

/-- Every pair that the probe matches, in a run that reaches the loop. -/
def AllMatched (P : SourceDb → List ProbeSpec → MatchedPair → Prop) : Prop :=
  ∀ db specs, reached settings pool registry keywords = some (db, specs) →
    ∀ pair ∈ matchedPairs (batchDbProbe U settings db keywords (probeSpecsToColumns specs)), P db specs pair

/-- The body of the loop gives the pair an entity with one value. -/
def ProducesOne (db : SourceDb) (specs : List ProbeSpec) (pair : MatchedPair) : Prop :=
  ∃ entity probes, resolvePair U settings db specs ([], []) pair = .ok ([entity], probes) ∧
    entity.values.length = 1

/-- What `resolution_status` is to tell. -/
structure StatusMeaning (result : Resolution) : Prop where
  complete_iff : result.status = "complete" ↔ result.resolved ≠ [] ∧
    AllMatched U settings pool registry keywords (Produces U settings) ∧
      ∀ entity ∈ result.resolved, entity.values.length = 1
  incomplete : ¬ AllMatched U settings pool registry keywords (ProducesOne U settings) →
    result.status = "partial" ∨ result.status = "failed"

variable {U settings pool registry keywords} {result : Resolution}

theorem statusOf_eq_complete {resolved : List ResolvedEntity} {probes : List SuggestedProbe} :
    statusOf resolved probes = "complete" ↔ resolved ≠ [] ∧ probes = [] := by
  unfold statusOf
  split_ifs with h h' <;> simp_all

theorem statusOf_cases (resolved : List ResolvedEntity) (probes : List SuggestedProbe) :
    statusOf resolved probes = "complete" ∨ statusOf resolved probes = "partial" ∨
      statusOf resolved probes = "failed" := by
  unfold statusOf
  split_ifs <;> simp

theorem earlyStatus_ne_complete : earlyStatus settings pool registry keywords ≠ "complete" := by
  unfold earlyStatus
  split_ifs <;> decide

theorem producesOne_of_produces {db : SourceDb} {specs : List ProbeSpec} {pair : MatchedPair}
    (h : Produces U settings db specs pair) (hsingle : ¬ Ambiguous U settings db specs pair) :
    ProducesOne U settings db specs pair := by
  obtain ⟨entity, probes, hrun⟩ := h
  exact ⟨entity, probes, hrun, (single_iff hrun).2 hsingle entity List.mem_cons_self⟩

/-- In a run that reaches the loop the matched pairs are those of the loop. -/
theorem allMatched_iff {db : SourceDb} {specs : List ProbeSpec}
    (hreached : reached settings pool registry keywords = some (db, specs))
    {P : SourceDb → List ProbeSpec → MatchedPair → Prop} : AllMatched U settings pool registry keywords P ↔
      ∀ pair ∈ matchedPairs (batchDbProbe U settings db keywords (probeSpecsToColumns specs)), P db specs pair := by
  refine ⟨fun hP => hP db specs hreached, fun hP db' specs' hsome => ?_⟩
  obtain ⟨rfl, rfl⟩ := Prod.mk.inj (Option.some.inj (hreached.symm.trans hsome))
  exact hP

/-- **The status tells what it is to** iff all matched pairs are given a code, or none is, or one is given several. -/
theorem statusMeaning_iff (h : resolveEntities U settings pool registry keywords = .ok result) :
    StatusMeaning U settings pool registry keywords result ↔
      AllMatched U settings pool registry keywords (HasCode U settings) ∨
      AllMatched U settings pool registry keywords (fun db specs pair => ¬ HasCode U settings db specs pair) ∨
      ¬ AllMatched U settings pool registry keywords (fun db specs pair => ¬ Ambiguous U settings db specs pair) := by
  unfold resolveEntities at h
  cases hreached : reached settings pool registry keywords with
  | none =>
    simp only [hreached, Except.ok.injEq] at h
    subst h
    have hall : ∀ P, AllMatched U settings pool registry keywords P := fun P db specs hsome => by
      simp [hreached] at hsome
    refine iff_of_true ⟨?_, fun hnot => absurd (hall _) hnot⟩ (Or.inl (hall _))
    exact iff_of_false earlyStatus_ne_complete fun hcomplete => hcomplete.1 rfl
  | some found =>
    obtain ⟨db, specs⟩ := found
    simp only [hreached] at h
    obtain ⟨⟨resolved, probes⟩, hrun, h⟩ := Except.bind_eq_ok.1 h
    obtain rfl := Except.ok.inj h
    have hproduces : AllMatched U settings pool registry keywords (Produces U settings) ↔
        AllMatched U settings pool registry keywords (HasCode U settings) := by
      rw [allMatched_iff hreached, allMatched_iff hreached]
      exact forall₂_congr fun pair hpair => produces_iff hrun hpair
    have hcomplete : (statusOf resolved probes = "complete" ↔ resolved ≠ [] ∧
        AllMatched U settings pool registry keywords (Produces U settings) ∧
          ∀ entity ∈ resolved, entity.values.length = 1) ↔
        (AllMatched U settings pool registry keywords (HasCode U settings) ∨
          AllMatched U settings pool registry keywords (fun db specs pair => ¬ HasCode U settings db specs pair) ∨
          ¬ AllMatched U settings pool registry keywords
            (fun db specs pair => ¬ Ambiguous U settings db specs pair)) := by
      rw [statusOf_eq_complete, values_single_iff hrun, hproduces, ne_eq, resolved_eq_nil hrun, probes_eq_nil hrun,
        allMatched_iff hreached, allMatched_iff hreached, allMatched_iff hreached]
      tauto
    refine ⟨fun hmeaning => hcomplete.1 hmeaning.complete_iff, fun hcond => ⟨hcomplete.2 hcond, fun hnot => ?_⟩⟩
    refine (statusOf_cases resolved probes).resolve_left fun hstatus => hnot ?_
    -- a complete status leaves every pair with one code
    obtain ⟨-, hproduced, -⟩ := (hcomplete.2 hcond).1 hstatus
    have hsingle := (probes_eq_nil hrun).1 (statusOf_eq_complete.1 hstatus).2
    rw [allMatched_iff hreached] at hproduced ⊢
    intro pair hpair
    exact producesOne_of_produces (hproduced pair hpair) (hsingle pair hpair)

end

/-! ### A mention without a code -/

/-- A source where every keyword matches a name, and the code of the dam alone is found. -/
def damDb : SourceDb where
  values kw _ _ := some [some (kw ++ " A")]
  codes kw _ _ := if kw = "Dam" then some [⟨some "1", some "Dam A"⟩] else none

def facilitySpec : ProbeSpec where
  table := "RDISAUP_TB"
  entityType := "facility"
  codeColumn := "SUJ_CODE"
  labelColumns := ["SUJ_NAME"]
  pgSchema := "RWIS"
  neo4jSchema := "rwis"

def damResolution : Resolution where
  resolved := [{
    mention := "Dam"
    entityType := "facility"
    schemaName := some "rwis"
    table := "RDISAUP_TB"
    nameColumn := "SUJ_NAME"
    codeColumn := some "SUJ_CODE"
    values := [⟨"1", some "Dam A"⟩]
    source := "db_probe" }]
  status := "complete"

theorem statusMeaning_iff_dam : StatusMeaning .ascii {} (some damDb) (some [facilitySpec]) ["Dam"] damResolution ↔
    AllMatched .ascii {} (some damDb) (some [facilitySpec]) ["Dam"] (HasCode .ascii {}) ∨
    AllMatched .ascii {} (some damDb) (some [facilitySpec]) ["Dam"]
      (fun db specs pair => ¬ HasCode .ascii {} db specs pair) ∨
    ¬ AllMatched .ascii {} (some damDb) (some [facilitySpec]) ["Dam"]
      (fun db specs pair => ¬ Ambiguous .ascii {} db specs pair) :=
  statusMeaning_iff (by decide +kernel)

theorem not_forall_statusMeaning :
    ¬ ∀ (U : Unicode) (settings : ProbeSettings) (pool : Option SourceDb) (registry : Option (List ProbeSpec))
      (keywords : List String) (result : Resolution),
      resolveEntities U settings pool registry keywords = .ok result →
        StatusMeaning U settings pool registry keywords result := by
  intro h
  have hmeaning := h .ascii {} (some damDb) (some [facilitySpec]) ["Dam", "Pump"] damResolution (by decide +kernel)
  obtain ⟨-, hproduced, -⟩ := hmeaning.complete_iff.1 rfl
  have hmem : ⟨"Pump", "rwis.RDISAUP_TB.SUJ_NAME", ["Pump A"]⟩ ∈ matchedPairs
      (batchDbProbe .ascii {} damDb ["Dam", "Pump"] (probeSpecsToColumns [facilitySpec])) := by
    decide +kernel
  obtain ⟨entity, probes, hrun⟩ := hproduced damDb [facilitySpec] rfl _ hmem
  have hnone : resolvePair .ascii {} damDb [facilitySpec] ([], [])
      ⟨"Pump", "rwis.RDISAUP_TB.SUJ_NAME", ["Pump A"]⟩ = .ok ([], []) := by
    decide +kernel
  rw [hnone] at hrun
  simp at hrun

end RoboMeta
