/-
  The matched columns of the candidates (`services/decision_service.py`,
  `services/neo4j_client/vector_search.py`).

  The columns are asked for by the schema and the name of each candidate in lower
  case, and a table answers by its name or its original name.  What is answered
  carries the spelling of the graph, and the original name if the table has one,
  but not its datasource, and is given to the candidates of exactly that spelling.

  * `MetaGraph`: a graph answers with columns of tables that were asked for;
  * `givenRows_eq`: which rows a candidate is given;
  * `columnsKept_iff`: every row is given to the candidates whose table it is of, and
    to no other, iff these tables, and no others, are spelled as the candidates are.
-/
import RoboMeta.ScoreGap

namespace RoboMeta

/-! ## The graph -/

/-- A `Table` node. -/
structure GraphTable where
  schema : Option String
  name : Option String
  originalName : Option String
  datasource : Option String := none
deriving DecidableEq, Repr

/-- The node that a candidate was found as. -/
def GraphTable.Is {K : Type*} (g : GraphTable) (t : SearchedTable K) : Prop :=
  g.schema.getD "" = t.schema ∧ g.name.getD "" = t.name ∧ g.datasource.getD "" = t.datasource

instance {K : Type*} (g : GraphTable) (t : SearchedTable K) : Decidable (g.Is t) :=
  inferInstanceAs (Decidable (_ ∧ _))

/-- An entry of `requested`. -/
structure TableRequest where
  schema : Option String
  name : String
deriving DecidableEq, Repr

/-- The `WHERE` clause on the table, `toLower` being that of the graph database. -/
def TableRequest.accepts (toLower : String → String) (req : TableRequest) (t : GraphTable) : Bool :=
  ((t.name.any fun n => toLower n = req.name) || t.originalName.any fun n => toLower n = req.name) &&
    req.schema.all fun s => t.schema.any fun s' => toLower s' = s

/-- A row of the query: a column with its table. -/
structure AnchorRow where
  table : GraphTable
  name : Option String
  dtype : Option String
  description : Option String
deriving DecidableEq, Repr

/-- What the query returns for requests, keywords and a limit on the columns of a table. -/
structure MetaGraph where
  toLower : String → String
  anchorRows : List TableRequest → List String → ℤ → List AnchorRow
  requested : ∀ {reqs kws limit row}, row ∈ anchorRows reqs kws limit → ∃ req ∈ reqs, req.accepts toLower row.table

/-! ## The code -/

/-- A `ColumnCandidate` of `fetch_anchor_columns`. -/
structure AnchorColumn (K : Type*) where
  tableSchema : String
  tableName : String
  name : String
  dtype : String
  description : String
  score : K
deriving DecidableEq

/-- `COALESCE(t.schema,'')`. -/
def AnchorRow.tableSchema (row : AnchorRow) : String := row.table.schema.getD ""

/-- `COALESCE(t.original_name, t.name)`. -/
def AnchorRow.tableName (row : AnchorRow) : String := (row.table.originalName.or row.table.name).getD ""

def AnchorRow.column {K : Type*} [Field K] (row : AnchorRow) : AnchorColumn K where
  tableSchema := row.tableSchema
  tableName := row.tableName
  name := row.name.getD ""
  dtype := row.dtype.getD ""
  description := row.description.getD ""
  score := 0.5

def AnchorColumn.matched {K : Type*} (c : AnchorColumn K) : MatchedColumn K where
  columnName := c.name
  score := c.score
  dataType := nonempty (some c.dtype)
  description := nonempty (some c.description)

section
variable {K : Type*} (U : Unicode) (graph : MetaGraph)

/-- The request for a candidate; there is none for one without a name. -/
def requestOf (t : SearchedTable K) : Option TableRequest :=
  if stripString t.name = "" then none
  else some {
    schema := (nonempty (some (stripString t.schema))).map U.lower
    name := U.lower (stripString t.name) }

/-- The rows behind `fetch_anchor_columns`. -/
def fetchAnchorRows (tables : List (SearchedTable K)) (keywordsLower : List String) (perTableLimit : ℤ) :
    List AnchorRow :=
  let requested := tables.filterMap (requestOf U)
  let kws := ((keywordsLower.filter fun k => stripString k ≠ "").map fun k => U.lower (stripString k)).take 20
  if requested = [] ∨ kws = [] then [] else graph.anchorRows requested kws perTableLimit

section
variable [Field K]

def fetchAnchorColumns (tables : List (SearchedTable K)) (keywordsLower : List String) (perTableLimit : ℤ) :
    List (AnchorColumn K) :=
  (fetchAnchorRows U graph tables keywordsLower perTableLimit).map AnchorRow.column

/-- The loop of `_attach_matched_columns`. -/
def columnMap (cols : List (AnchorColumn K)) : Dict (String × String) (List (MatchedColumn K)) :=
  groupBy (fun c => (c.tableSchema, c.tableName)) AnchorColumn.matched cols

def attachMatchedColumns (cands : List (SearchedTable K)) (keywords : List String) (topM : ℤ) :
    Dict (String × String) (List (MatchedColumn K)) :=
  if cands = [] ∨ topM ≤ 0 ∨ keywords = [] then []
  else columnMap (fetchAnchorColumns U graph cands (keywords.map U.lower) topM)

end

/-- `col_map.get(key, [])` for the key of a candidate. -/
def matchedColumnsOf (colMap : Dict (String × String) (List (MatchedColumn K))) (t : SearchedTable K) :
    List (MatchedColumn K) :=
  (colMap.get? (t.schema, t.name)).getD []

/-! ## Whose a row is -/

/-- The rows that are attached. -/
def attachedRows (cands : List (SearchedTable K)) (keywords : List String) (topM : ℤ) : List AnchorRow :=
  if cands = [] ∨ topM ≤ 0 ∨ keywords = [] then [] else fetchAnchorRows U graph cands (keywords.map U.lower) topM

/-- The rows that the loop puts down for a candidate. -/
def givenRows (rows : List AnchorRow) (t : SearchedTable K) : List AnchorRow :=
  ((groupBy (fun row => (row.tableSchema, row.tableName)) id rows).get? (t.schema, t.name)).getD []

/-- Each candidate is given the rows of its table and no other, and has their columns. -/
structure ColumnsKept [Field K] (cands : List (SearchedTable K)) (keywords : List String) (topM : ℤ) : Prop where
  given : ∀ t ∈ cands, givenRows (attachedRows U graph cands keywords topM) t =
    (attachedRows U graph cands keywords topM).filter fun row => row.table.Is t
  columns : ∀ t ∈ cands, matchedColumnsOf (attachMatchedColumns U graph cands keywords topM) t =
    ((attachedRows U graph cands keywords topM).filter fun row => row.table.Is t).map fun row => row.column.matched

variable {U graph} {cands : List (SearchedTable K)} {keywords : List String} {topM : ℤ} {rows : List AnchorRow}
  {t : SearchedTable K}

/-- **A candidate is given** the rows with its very spelling. -/
theorem givenRows_eq : givenRows rows t =
    rows.filter fun row => row.tableSchema = t.schema ∧ row.tableName = t.name := by
  simp only [← Prod.mk.injEq]
  rw [givenRows, get?_groupBy]
  split_ifs with hmem
  · rw [Option.getD_some, List.map_id]
  · -- no row has the spelling
    rw [Option.getD_none, eq_comm]
    exact List.filter_eq_nil_iff.2 fun row hrow heq => hmem (List.mem_map.2 ⟨row, hrow, of_decide_eq_true heq⟩)

theorem attachMatchedColumns_eq [Field K] : attachMatchedColumns U graph cands keywords topM =
    columnMap ((attachedRows U graph cands keywords topM).map AnchorRow.column) := by
  unfold attachMatchedColumns attachedRows fetchAnchorColumns
  split_ifs <;> rfl

/-- What the loop puts down are the columns of the rows. -/
theorem matchedColumnsOf_eq [Field K] : matchedColumnsOf (columnMap (rows.map AnchorRow.column)) t =
    (givenRows rows t).map fun row => row.column.matched := by
  have hkeys : ((rows.map AnchorRow.column).map fun c : AnchorColumn K => (c.tableSchema, c.tableName)) =
      rows.map fun row => (row.tableSchema, row.tableName) := by
    rw [List.map_map]
    rfl
  have hfilter : ((rows.map AnchorRow.column).filter fun c : AnchorColumn K =>
        (c.tableSchema, c.tableName) = (t.schema, t.name)) =
      (rows.filter fun row => (row.tableSchema, row.tableName) = (t.schema, t.name)).map AnchorRow.column := by
    rw [List.filter_map]
    rfl
  rw [matchedColumnsOf, columnMap, givenRows, get?_groupBy, get?_groupBy, hkeys, hfilter]
  split_ifs
  · rw [Option.getD_some, Option.getD_some, List.map_id, List.map_map]
    rfl
  · rfl

/-- The table of a candidate is spelled as the candidate is iff it has no other original name. -/
theorem tableName_eq_iff {row : AnchorRow} (h : row.table.Is t) :
    row.tableSchema = t.schema ∧ row.tableName = t.name ↔ ∀ original ∈ row.table.originalName, original = t.name := by
  obtain ⟨hschema, hname, -⟩ := h
  rw [AnchorRow.tableSchema, AnchorRow.tableName]
  cases row.table.originalName with
  | none => simp [hschema, hname]
  | some original => simp [hschema]

/-- **The columns are kept** iff the table of a candidate has no original name but its name, and no other table is
spelled as the candidate is. -/
theorem columnsKept_iff [Field K] : ColumnsKept U graph cands keywords topM ↔
    ∀ t ∈ cands, ∀ row ∈ attachedRows U graph cands keywords topM,
      (row.table.Is t → ∀ original ∈ row.table.originalName, original = t.name) ∧
        (row.tableSchema = t.schema ∧ row.tableName = t.name → row.table.Is t) := by
  constructor
  · intro hkept t ht row hrow
    have hmem := Eq.to_iff (congrArg (row ∈ ·) (hkept.given t ht))
    rw [givenRows_eq, List.mem_filter, List.mem_filter, decide_eq_true_iff, decide_eq_true_iff,
      and_congr_right_iff] at hmem
    have hspelled := hmem hrow
    exact ⟨fun his => (tableName_eq_iff his).1 (hspelled.2 his), hspelled.1⟩
  · intro hspelled
    have hgiven : ∀ t ∈ cands, givenRows (attachedRows U graph cands keywords topM) t =
        (attachedRows U graph cands keywords topM).filter fun row => row.table.Is t := by
      intro t ht
      rw [givenRows_eq]
      refine List.filter_congr fun row hrow => decide_eq_decide.2 ?_
      obtain ⟨hown, hother⟩ := hspelled t ht row hrow
      exact ⟨hother, fun his => (tableName_eq_iff his).2 (hown his)⟩
    refine ⟨hgiven, fun t ht => ?_⟩
    rw [attachMatchedColumns_eq, matchedColumnsOf_eq, hgiven t ht]

end

/-! ### A table with an original name -/

def flowTable : GraphTable := ⟨some "mart", some "flow_hour", some "FCT_FLOW_HOUR", none⟩

/-- A graph of tables with one column each. -/
def flowGraph (tables : List GraphTable) : MetaGraph where
  toLower := asciiLower
  anchorRows reqs _ _ := (tables.filter fun g => reqs.any fun req => req.accepts asciiLower g).map fun g =>
    ⟨g, some "FLOW", some "numeric", none⟩
  requested h := by
    obtain ⟨g, hg, rfl⟩ := List.mem_map.1 h
    simpa using (List.mem_filter.1 hg).2

def flowCandidate : SearchedTable ℚ := ⟨⟨"mart", "flow_hour", "", 9 / 10⟩, "", "", ""⟩

theorem not_forall_columnsKept :
    ¬ ∀ (U : Unicode) (graph : MetaGraph) (cands : List (SearchedTable ℚ)) (keywords : List String) (topM : ℤ),
      ColumnsKept U graph cands keywords topM := by
  intro h
  have hcolumns := (h .ascii (flowGraph [flowTable]) [flowCandidate] ["flow"] 10).columns flowCandidate (by simp)
  revert hcolumns
  decide +kernel

/-! ### Two tables of one spelling -/

def flowAt (datasource : String) : GraphTable := ⟨some "mart", some "flow", none, some datasource⟩

def flowCandidateAt (datasource : String) : SearchedTable ℚ := ⟨⟨"mart", "flow", datasource, 9 / 10⟩, "", "", ""⟩

/-- Each candidate is given the column of the other one's table, too. -/
example : ¬ ColumnsKept .ascii (flowGraph [flowAt "a", flowAt "b"]) [flowCandidateAt "a", flowCandidateAt "b"]
    ["flow"] 10 := by
  intro h
  have hcolumns := h.columns (flowCandidateAt "a") (by simp)
  revert hcolumns
  decide +kernel

/-- Spellings that differ in case are kept apart, though each request names both tables. -/
example : ColumnsKept .ascii
    (flowGraph [⟨some "mart", some "flow", none, none⟩, ⟨some "MART", some "FLOW", none, none⟩])
    [(⟨⟨"mart", "flow", "", 0⟩, "", "", ""⟩ : SearchedTable ℚ), ⟨⟨"MART", "FLOW", "", 0⟩, "", "", ""⟩] ["flow"] 10 :=
  ⟨by decide +kernel, by decide +kernel⟩

end RoboMeta
