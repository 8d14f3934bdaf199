/-
  Entity resolution (`services/entity_resolution.py`,
  `services/entity_probe_registry.py`).

  A mention of the question is looked up in the label columns of the probe
  registry.  What was found for a mention and a column becomes a resolved entity,
  a probe for the consumer to run, or both (`appendResolution`); the identifiers
  of the probe's SQL are reduced to letters, digits and underscores.
-/
import RoboMeta.Lib.Outcome
import RoboMeta.Artifact

namespace RoboMeta

/-- A table of the registry with its code column and its label columns. -/
structure ProbeSpec where
  table : String
  entityType : String
  codeColumn : String
  labelColumns : List String
  pgSchema : String
  neo4jSchema : String
deriving DecidableEq, Repr

structure ColumnCandidate where
  tableSchema : String
  tableName : String
  name : String
deriving DecidableEq, Repr

structure ResolvedValue where
  code : String
  label : Option String
deriving DecidableEq, Repr

/-- The types that `ResolvedEntity` admits. -/
def entityTypes : List String :=
  ["facility", "tag", "code", "metric", "unit", "region", "kepco_tag", "kepco_metric", "unknown"]

structure ResolvedEntity where
  mention : String
  entityType : String
  db : Option String := none
  schemaName : Option String
  table : String
  nameColumn : String
  codeColumn : Option String
  values : List ResolvedValue
  source : String
deriving DecidableEq, Repr

structure SuggestedProbe where
  purpose : String
  sql : String
  expectedColumns : List String
  mapsToFilter : Dict String String
  reason : String
deriving DecidableEq, Repr

def maxResolvedValues : ℕ := 5

/-- `[A-Za-z0-9_]`. -/
def identChar (c : Char) : Bool := c.isAlphanum || c == '_'

def quotedIdent (part : String) : String :=
  let ident := part.toList.filter identChar
  if ident = [] then "" else String.ofList ('"' :: ident ++ ['"'])

/-- `s.replace("'", "''")`. -/
def doubleQuotes (s : String) : String :=
  String.ofList (s.toList.flatMap fun c => if c = '\'' then ['\'', '\''] else [c])

section
variable (U : Unicode) (sourcePgSchema : String)

/-- `_resolve_pg_schema`, `sourcePgSchema` being the setting of that name. -/
def resolvePgSchema (tableName override : String) : String :=
  if override ≠ "" then stripString override
  else if "fct_".toList.isPrefixOf (U.lower tableName).toList then "mart"
  else if sourcePgSchema = "" then "RWIS"
  else if stripString sourcePgSchema = "" then "RWIS"
  else stripString sourcePgSchema

def qualifiedTableRef (tableName pgSchema : String) : String :=
  if quotedIdent tableName = "" then ""
  else if quotedIdent (resolvePgSchema U sourcePgSchema tableName pgSchema) = "" then quotedIdent tableName
  else quotedIdent (resolvePgSchema U sourcePgSchema tableName pgSchema) ++ "." ++ quotedIdent tableName

def spaceInsensitiveMatchSql (colIdent kwEsc : String) : String :=
  "replace(" ++ colIdent ++ "::text, ' ', '') ILIKE '%' || replace('" ++ kwEsc ++ "', ' ', '') || '%'"

def probeSql (kw : String) (col : ColumnCandidate) (codeCol pgSchema : String) : String :=
  "SELECT rtrim(" ++ quotedIdent codeCol ++ "::text) AS code, " ++ quotedIdent col.name ++
    "::text AS label FROM " ++ qualifiedTableRef U sourcePgSchema col.tableName pgSchema ++
    " WHERE " ++ spaceInsensitiveMatchSql (quotedIdent col.name) (doubleQuotes kw) ++ " LIMIT 10"

/-- `ResolvedEntity(...)`, which checks the type of the entity. -/
def resolvedEntity (kw : String) (col : ColumnCandidate) (spec : Option ProbeSpec) (codeCol : String)
    (codeValues : List ResolvedValue) : Except PyError ResolvedEntity :=
  let entityType := (spec.map ProbeSpec.entityType).getD "code"
  if entityType ∉ entityTypes then .error (.validationError "entity_type")
  else .ok {
    mention := kw
    entityType := entityType
    schemaName := (spec.map ProbeSpec.neo4jSchema).getD col.tableSchema
    table := col.tableName
    nameColumn := col.name
    codeColumn := codeCol
    values := codeValues
    source := "db_probe" }

/-- The probe that `_append_resolution` appends for a reason. -/
def suggestedProbe (kw : String) (col : ColumnCandidate) (codeCol pgSchema reason : String) :
    SuggestedProbe where
  purpose := "code_lookup"
  sql := probeSql U sourcePgSchema kw col codeCol pgSchema
  expectedColumns := [col.name, codeCol]
  mapsToFilter := [("column", codeCol), ("op", "=")]
  reason := reason

@[simp] theorem suggestedProbe_sql (kw : String) (col : ColumnCandidate) (codeCol pgSchema reason : String) :
    (suggestedProbe U sourcePgSchema kw col codeCol pgSchema reason).sql =
      probeSql U sourcePgSchema kw col codeCol pgSchema := rfl

def appendResolution (resolved : List ResolvedEntity) (probes : List SuggestedProbe) (kw : String)
    (col : ColumnCandidate) (spec : Option ProbeSpec) (codeCol : String)
    (codeValues : List ResolvedValue) (pgSchema : String) :
    Except PyError (List ResolvedEntity × List SuggestedProbe) :=
  if codeValues.length = 1 then do
    let entity ← resolvedEntity kw col spec codeCol codeValues
    return (resolved ++ [entity], probes)
  else if codeValues.length ≤ maxResolvedValues then do
    let entity ← resolvedEntity kw col spec codeCol codeValues
    return (resolved ++ [entity], probes ++ [suggestedProbe U sourcePgSchema kw col codeCol pgSchema
      ("multiple matches (" ++ toString codeValues.length ++ ") for mention=" ++ kw)])
  else
    return (resolved, probes ++ [suggestedProbe U sourcePgSchema kw col codeCol pgSchema
      ("ambiguous matches for mention=" ++ kw)])

/-- A probe is appended iff the number of codes is not one. -/
theorem appendResolution_probes {resolved resolved' : List ResolvedEntity}
    {probes added : List SuggestedProbe} {kw codeCol pgSchema : String} {col : ColumnCandidate}
    {spec : Option ProbeSpec} {codeValues : List ResolvedValue}
    (h : appendResolution U sourcePgSchema resolved probes kw col spec codeCol codeValues pgSchema =
      .ok (resolved', probes ++ added)) :
    if codeValues.length = 1 then added = []
    else ∃ reason, added = [suggestedProbe U sourcePgSchema kw col codeCol pgSchema reason] := by
  unfold appendResolution at h
  split_ifs at h ⊢
  · obtain ⟨_, _, h⟩ := Except.bind_eq_ok.1 h
    simpa using (Prod.mk.inj (Except.ok.inj h)).2
  · obtain ⟨_, _, h⟩ := Except.bind_eq_ok.1 h
    exact ⟨_, (List.append_cancel_left (Prod.mk.inj (Except.ok.inj h)).2).symm⟩
  · exact ⟨_, (List.append_cancel_left (Prod.mk.inj (Except.ok.inj h)).2).symm⟩

end

end RoboMeta
