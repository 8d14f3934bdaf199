/-
  The tables of the probes (`services/entity_probe_registry.py`, with
  `_qualified_table_ident` of `services/neo4j_client/db_probe.py` and
  `_qualified_table_ref` of `services/entity_resolution.py`).

  The label probe takes the schema of a table from its name and the environment,
  the lookups of the codes take it from the registry.

  * `loadProbeSpecs`: the registry as it is loaded;
  * `physicalTable`: the table that a reference leads to;
  * `sameTable_iff`: when the labels and the codes are looked up in one table.
-/
import RoboMeta.ProbeTokens

namespace RoboMeta

open PgLex

/-! ## The registry -/

/-- An item of `probes`, its values as texts; one that is missing or false is empty. -/
structure RawProbe where
  table : String
  entityType : String
  codeColumn : String
  labelColumns : List String
deriving DecidableEq, Repr

/-- The file of a data source. -/
structure RawRegistry where
  pgSchema : String
  neo4jSchema : String
  /-- `none` stands for an item that is no mapping. -/
  probes : List (Option RawProbe)
deriving DecidableEq, Repr

/-- `s or default`. -/
def orDefault (s default : String) : String := if s = "" then default else s

section
variable (sourcePgSchema ds : String) (raw : RawRegistry)

/-- The spec of an item, if it has a table, a code column and a label column. -/
def loadProbeSpec (item : RawProbe) : Option ProbeSpec :=
  let table := stripString item.table
  let codeCol := stripString item.codeColumn
  let labelCols := item.labelColumns.filterMap fun c => nonempty (some (stripString c))
  if table = "" ∨ codeCol = "" ∨ item.labelColumns = [] then none
  else if labelCols = [] then none
  else some {
    table := table
    entityType := orDefault (stripString (orDefault item.entityType "code")) "code"
    codeColumn := codeCol
    labelColumns := labelCols
    pgSchema := stripString (orDefault (orDefault raw.pgSchema sourcePgSchema) "RWIS")
    neo4jSchema := stripString (orDefault raw.neo4jSchema ds) }

def loadProbeSpecs : List ProbeSpec :=
  raw.probes.filterMap fun item => item.bind (loadProbeSpec sourcePgSchema ds raw)

variable {sourcePgSchema ds raw} {spec : ProbeSpec}

/-- All specs have the schema of the registry. -/
theorem pgSchema_of_mem (h : spec ∈ loadProbeSpecs sourcePgSchema ds raw) :
    spec.pgSchema = stripString (orDefault (orDefault raw.pgSchema sourcePgSchema) "RWIS") := by
  obtain ⟨item, -, hitem⟩ := List.mem_filterMap.1 h
  obtain ⟨probe, rfl, hspec⟩ := Option.bind_eq_some_iff.1 hitem
  simp only [loadProbeSpec] at hspec
  split_ifs at hspec
  obtain rfl := Option.some.inj hspec
  rfl

end

/-- `settings.source_pg_schema`, from `SOURCE_PG_SCHEMA` in the environment. -/
def sourceSchema (env : Option String) : String := (nonempty env).getD "RWIS"

def settingsOf (env : Option String) : ProbeSettings where
  sourcePgSchema := sourceSchema env
  envPgSchema := env

theorem sourceSchema_ne (env : Option String) : sourceSchema env ≠ "" := by
  unfold sourceSchema nonempty
  cases env with
  | none => decide
  | some s =>
    by_cases hs : s = ""
    · simp [Option.filter, hs]
    · simp [Option.filter, hs]

/-! ## Tables -/

structure PgTable where
  schema : String
  table : String
deriving DecidableEq, Repr

/-- PostgreSQL cuts names at 63 characters (of one byte each). -/
def pgName (w : String) : String := String.ofList (w.toList.take 63)

/-- The table that a reference leads to; `path` tells in which schema a name without one is found. -/
def physicalTable (path : String → Option String) (ref : String) : Option PgTable := do
  match ← lex ref with
  | [.quoted schema, .op ".", .quoted table] => some ⟨pgName schema, pgName table⟩
  | [.quoted table] => (path (pgName table)).map fun schema => ⟨schema, pgName table⟩
  | _ => none

/-- The labels and the codes of a table are looked up in one table. -/
def SameTable (U : Unicode) (path : String → Option String) (env : Option String) (spec : ProbeSpec) : Prop :=
  physicalTable path (qualifiedTableIdent U (settingsOf env) spec.table) =
    physicalTable path (qualifiedTableRef U (sourceSchema env) spec.table spec.pgSchema)

/-! ## Identifiers and white space -/

theorem identChar_of_isSpace {c : Char} (h : isSpace c = true) : identChar c = false := by
  have hne : c ≠ '_' := by
    rintro rfl
    exact absurd h (by decide)
  simp [identChar, isAlphanum_of_isSpace h, hne]

theorem filter_dropWhile_isSpace (s : Text) : (s.dropWhile isSpace).filter identChar = s.filter identChar := by
  have hnil : (s.takeWhile isSpace).filter identChar = [] := by
    rw [List.filter_eq_nil_iff]
    intro c hc
    simp [identChar_of_isSpace (List.mem_takeWhile_imp hc)]
  conv_rhs => rw [← List.takeWhile_append_dropWhile (p := isSpace) (l := s), List.filter_append, hnil]
  rfl

/-- White space around a part does not change its identifier. -/
theorem safeIdent_stripString (s : String) : safeIdent (stripString s) = safeIdent s := by
  have hstrip : (strip s.toList).filter identChar = s.toList.filter identChar := by
    rw [strip, rstrip, List.rdropWhile, List.filter_reverse, filter_dropWhile_isSpace, ← List.filter_reverse,
      List.reverse_reverse, filter_dropWhile_isSpace]
  rw [safeIdent, safeIdent, stripString, String.toList_ofList, hstrip]

/-! ## Where the labels and the codes are -/

section
variable (U : Unicode) (path : String → Option String)

/-- The table with the identifiers of two parts. -/
def identifiedTable (schema table : String) : Option PgTable :=
  if safeIdent table = "" then none
  else if safeIdent schema = "" then
    (path (pgName (safeIdent table))).map fun schema => ⟨schema, pgName (safeIdent table)⟩
  else some ⟨pgName (safeIdent schema), pgName (safeIdent table)⟩

variable {path} in
theorem physicalTable_of_lex {ref schema table : String} (h : lex ref = some (tableTokens schema table)) :
    physicalTable path ref = identifiedTable path schema table := by
  rw [physicalTable, h, tableTokens, identifiedTable, Option.bind_eq_bind, Option.bind_some]
  split_ifs <;> rfl

/-- A table of facts, by its name. -/
def IsFact (table : String) : Prop := "fct_".toList.isPrefixOf (U.lower table).toList

instance (table : String) : Decidable (IsFact U table) := inferInstanceAs (Decidable (_ = true))

/-- The schema that a table is documented to be in: `mart`, if it is one of facts, else `SOURCE_PG_SCHEMA`. -/
def homeSchema (env : Option String) (table : String) : String :=
  if IsFact U table then "mart"
  else if safeIdent (sourceSchema env) = "" then "RWIS"
  else safeIdent (sourceSchema env)

/-- The first of the schemas of the registry and of the environment that is not blank. -/
def namedSchema (raw : RawRegistry) (env : Option String) : String :=
  if stripString raw.pgSchema ≠ "" then raw.pgSchema
  else if stripString (sourceSchema env) ≠ "" then sourceSchema env
  else "RWIS"

/-- Neither the registry nor the environment names a schema for the facts. -/
def FactsUnnamed (raw : RawRegistry) (env : Option String) (table : String) : Prop :=
  IsFact U table ∧ stripString raw.pgSchema = "" ∧ (raw.pgSchema ≠ "" ∨ stripString (sourceSchema env) = "")

instance (raw : RawRegistry) (env : Option String) (table : String) : Decidable (FactsUnnamed U raw env table) :=
  inferInstanceAs (Decidable (_ ∧ _ ∧ _))

variable {U path} {env : Option String} {ds : String} {raw : RawRegistry} {spec : ProbeSpec}

theorem physicalTable_label (table : String) :
    physicalTable path (qualifiedTableIdent U (settingsOf env) table) =
      identifiedTable path (homeSchema U env table) table := by
  have hhome : labelSchema U (settingsOf env) table = homeSchema U env table := rfl
  by_cases htable : safeIdent table = ""
  · have hempty : qualifiedTableIdent U (settingsOf env) table = "" := by simp [qualifiedTableIdent, htable]
    have htokens : tableTokens (homeSchema U env table) table = [] := if_pos htable
    refine physicalTable_of_lex ?_
    rw [hempty, htokens]
    rfl
  · have hschema := safeIdent_labelSchema U (settingsOf env) table
    rw [qualifiedTableIdent_eq _ _ _ htable]
    exact physicalTable_of_lex (hhome ▸ (reads_qualified (hschema.1.symm ▸ hschema.2) htable).lex)

theorem physicalTable_code (table pgSchema : String) :
    physicalTable path (qualifiedTableRef U (sourceSchema env) table pgSchema) =
      identifiedTable path (resolvePgSchema U (sourceSchema env) table pgSchema) table :=
  physicalTable_of_lex (reads_qualifiedTableRef U (sourceSchema env) table pgSchema).lex

/-- The schema of the codes. -/
theorem safeIdent_resolvePgSchema (h : spec ∈ loadProbeSpecs (sourceSchema env) ds raw) :
    safeIdent (resolvePgSchema U (sourceSchema env) spec.table spec.pgSchema) =
      if FactsUnnamed U raw env spec.table then "mart" else safeIdent (namedSchema raw env) := by
  have henv := sourceSchema_ne env
  have hsource : safeIdent "RWIS" = "RWIS" := by decide
  have hmart : safeIdent "mart" = "mart" := by decide
  have hempty : stripString "" = "" := by decide
  have hchosen : orDefault (orDefault raw.pgSchema (sourceSchema env)) "RWIS" =
      if raw.pgSchema = "" then sourceSchema env else raw.pgSchema := by
    unfold orDefault
    by_cases hraw : raw.pgSchema = ""
    · simp [hraw, henv]
    · simp [hraw]
  have hresolve : ∀ override, resolvePgSchema U (sourceSchema env) spec.table override =
      if override ≠ "" then stripString override
      else if IsFact U spec.table then "mart"
      else if sourceSchema env = "" then "RWIS"
      else if stripString (sourceSchema env) = "" then "RWIS"
      else stripString (sourceSchema env) := fun _ => rfl
  rw [pgSchema_of_mem h, hchosen, hresolve]
  by_cases hraw : raw.pgSchema = ""
  · by_cases hblank : stripString (sourceSchema env) = ""
    · by_cases hfact : IsFact U spec.table
      · simp [FactsUnnamed, hraw, hblank, hfact, hempty, hmart]
      · simp [FactsUnnamed, namedSchema, hraw, hblank, hfact, hempty, henv]
    · simp [FactsUnnamed, namedSchema, hraw, hblank, hempty, safeIdent_stripString]
  · by_cases hblank : stripString raw.pgSchema = ""
    · by_cases hfact : IsFact U spec.table
      · simp [FactsUnnamed, hraw, hblank, hfact, hmart]
      · by_cases hblank' : stripString (sourceSchema env) = ""
        · simp [FactsUnnamed, namedSchema, hraw, hblank, hblank', hfact, henv]
        · simp [FactsUnnamed, namedSchema, hraw, hblank, hblank', hfact, henv, safeIdent_stripString]
    · simp [FactsUnnamed, namedSchema, hraw, hblank, safeIdent_stripString]

/-- The registry names the schema that the table is documented to be in. -/
def NamesHome (U : Unicode) (path : String → Option String) (raw : RawRegistry) (env : Option String)
    (table : String) : Prop :=
  safeIdent table = "" ∨ FactsUnnamed U raw env table ∨
    if safeIdent (namedSchema raw env) = "" then
      path (pgName (safeIdent table)) = some (pgName (homeSchema U env table))
    else pgName (safeIdent (namedSchema raw env)) = pgName (homeSchema U env table)

/-- **One table** for the labels and the codes, iff the registry names the schema of the table. -/
theorem sameTable_iff (h : spec ∈ loadProbeSpecs (sourceSchema env) ds raw) :
    SameTable U path env spec ↔ NamesHome U path raw env spec.table := by
  have hhome : safeIdent (homeSchema U env spec.table) = homeSchema U env spec.table ∧
      homeSchema U env spec.table ≠ "" := safeIdent_labelSchema U (settingsOf env) spec.table
  rw [SameTable, NamesHome, physicalTable_label, physicalTable_code, identifiedTable, identifiedTable,
    safeIdent_resolvePgSchema h, hhome.1, if_neg hhome.2]
  by_cases htable : safeIdent spec.table = ""
  · simp [htable]
  · by_cases hfacts : FactsUnnamed U raw env spec.table
    · have hmart : homeSchema U env spec.table = "mart" := if_pos hfacts.1
      simp [htable, hfacts, hmart]
    · by_cases hnamed : safeIdent (namedSchema raw env) = ""
      · simp only [htable, hfacts, hnamed, if_true, if_false, false_or]
        cases path (pgName (safeIdent spec.table)) with
        | none => simp
        | some schema => simp [eq_comm]
      · simp [htable, hfacts, hnamed, eq_comm]

end

def facilityRegistry : RawRegistry where
  pgSchema := "RWIS"
  neo4jSchema := "rwis"
  probes := [some ⟨"RDISAUP_TB", "facility", "SUJ_CODE", ["SUJ_NAME"]⟩]

theorem sameTable_iff_facility : SameTable .ascii (fun _ => none) none facilitySpec ↔
    NamesHome .ascii (fun _ => none) facilityRegistry none "RDISAUP_TB" :=
  sameTable_iff (show facilitySpec ∈ loadProbeSpecs (sourceSchema none) "rwis" facilityRegistry by decide +kernel)

/-- With `SOURCE_PG_SCHEMA=rwis` the labels are looked up in `rwis`, the codes in `RWIS`. -/
theorem not_forall_sameTable : ¬ ∀ (U : Unicode) (path : String → Option String) (env : Option String) (ds : String)
    (raw : RawRegistry), ∀ spec ∈ loadProbeSpecs (sourceSchema env) ds raw, SameTable U path env spec := by
  intro h
  have hsame := h .ascii (fun _ => none) (some "rwis") "rwis" facilityRegistry facilitySpec (by decide +kernel)
  have hlabel : physicalTable (fun _ => none) (qualifiedTableIdent .ascii (settingsOf (some "rwis")) "RDISAUP_TB") =
      some ⟨"rwis", "RDISAUP_TB"⟩ := by decide +kernel
  have hcode : physicalTable (fun _ => none)
      (qualifiedTableRef .ascii (sourceSchema (some "rwis")) "RDISAUP_TB" "RWIS") =
      some ⟨"RWIS", "RDISAUP_TB"⟩ := by decide +kernel
  exact absurd (hlabel.symm.trans (hsame.trans hcode)) (by decide)

end RoboMeta
