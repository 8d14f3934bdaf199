/-
  The metadata database of the live `/data_decision`
  (`services/metadata_repository.py`).

  A `Catalog` holds the rows of the four tables that the queries read.  What a
  query finds is a function of the catalog; in which order its rows come is the
  database's choice wherever the query leaves it open, so a
  `MetadataRepository` is a catalog with one such choice for each query.
-/
import Mathlib.Data.Finset.Basic
import Mathlib.Data.List.Nodup
import Mathlib.Algebra.Field.Defs
import RoboMeta.Lib.Ranking
import RoboMeta.Python

namespace RoboMeta

/-! ## Rows -/

/-- A row of `t2s_tables`. -/
structure CatalogTable where
  id : ℤ
  db : Option String := none
  schemaName : Option String
  name : Option String
  originalName : Option String := none
deriving DecidableEq, Repr

/-- A row of `t2s_columns`. -/
structure CatalogColumn where
  id : ℤ
  tableId : ℤ
  name : String
  dtype : Option String := none
  description : Option String := none
  analyzedDescription : Option String := none
  isPrimaryKey : Bool := false
deriving DecidableEq, Repr

/-- A row of `t2s_value_mappings`. -/
structure ValueMapping where
  naturalValue : Option String
  codeValue : Option String
  verified : Bool
  columnId : Option ℤ
deriving DecidableEq, Repr

/-- A row of `t2s_fk_constraints`. -/
structure FkConstraint where
  fromColumnId : ℤ
  toColumnId : ℤ
deriving DecidableEq, Repr

/-- A row of `find_value_mappings`. -/
structure MappingRow where
  naturalValue : Option String := none
  codeValue : Option String := none
  columnName : Option String := none
  tableId : Option ℤ := none
  db : Option String := none
  schemaName : Option String := none
  tableName : Option String := none
deriving DecidableEq, Repr

/-- A row of `fk_bridges` or `convention_bridges`. -/
structure BridgeRow where
  fromTableId : ℤ
  fromSchema : Option String
  fromTable : Option String
  fromColumn : String
  toTableId : ℤ
  toSchema : Option String
  toTable : Option String
  toColumn : String
deriving DecidableEq, Repr

/-- A table of a result with its score. -/
structure ScoredTable (K : Type) where
  table : CatalogTable
  score : K
deriving DecidableEq

/-- A row of `search_columns`. -/
structure ScoredColumn (K : Type) where
  column : CatalogColumn
  score : K
deriving DecidableEq

/-! ## The catalog -/

structure Catalog where
  tables : List CatalogTable
  columns : List CatalogColumn
  valueMappings : List ValueMapping
  fkConstraints : List FkConstraint
  nodup_tables : (tables.map CatalogTable.id).Nodup
  nodup_columns : (columns.map CatalogColumn.id).Nodup

/-- `lower` and `upper` of the database. -/
structure Collation where
  lower : String → String
  upper : String → String

def Collation.ascii : Collation where
  lower := asciiLower
  upper := asciiUpper

namespace Catalog

variable (c : Catalog)

def table? (id : ℤ) : Option CatalogTable := c.tables.find? fun t => t.id = id

def column? (id : ℤ) : Option CatalogColumn := c.columns.find? fun col => col.id = id

theorem eq_of_id {c : Catalog} {t t' : CatalogTable} (ht : t ∈ c.tables) (ht' : t' ∈ c.tables)
    (hid : t.id = t'.id) : t = t' :=
  List.inj_on_of_nodup_map c.nodup_tables ht ht' hid

theorem table?_eq_some {c : Catalog} {id : ℤ} {t : CatalogTable} :
    c.table? id = some t ↔ t ∈ c.tables ∧ t.id = id := by
  constructor
  · intro h
    exact ⟨List.mem_of_find?_eq_some h, by simpa using List.find?_some h⟩
  · rintro ⟨ht, rfl⟩
    have hsome : (c.table? t.id).isSome := List.find?_isSome.2 ⟨t, ht, by simp⟩
    obtain ⟨t', ht'⟩ := Option.isSome_iff_exists.1 hsome
    have hid : t'.id = t.id := by simpa using List.find?_some ht'
    rw [ht', eq_of_id (List.mem_of_find?_eq_some ht') ht hid]

/-! ### Value mappings -/

/-- `position(lower(s) in lower(question)) > 0`. -/
def positionIn (C : Collation) (s question : String) : Prop := occursIn (C.lower s) (C.lower question)

instance (C : Collation) (s question : String) : Decidable (positionIn C s question) :=
  inferInstanceAs (Decidable (occursIn _ _))

/-- The two left joins. -/
def mappingRow (vm : ValueMapping) : MappingRow :=
  let column := vm.columnId.bind c.column?
  let table := column.bind fun col => c.table? col.tableId
  { naturalValue := vm.naturalValue
    codeValue := vm.codeValue
    columnName := column.map CatalogColumn.name
    tableId := table.map CatalogTable.id
    db := table.bind CatalogTable.db
    schemaName := table.bind CatalogTable.schemaName
    tableName := table.bind CatalogTable.name }

def valueMappingRows (C : Collation) (question : String) : List MappingRow :=
  (c.valueMappings.filter fun vm =>
    vm.verified ∧ ∃ s ∈ vm.naturalValue, positionIn C s question).map c.mappingRow

/-! ### Foreign keys -/

/-- The columns of a constraint, where both exist. -/
def fkColumns (fk : FkConstraint) : Option (CatalogColumn × CatalogColumn) := do
  let cFrom ← c.column? fk.fromColumnId
  let cTo ← c.column? fk.toColumnId
  return (cFrom, cTo)

/-- The `CASE` of `fk_neighbor_table_ids`, for a row that its `WHERE` lets through. -/
def neighborTableId (tableIds : Finset ℤ) (cFrom cTo : CatalogColumn) : Option ℤ :=
  if cFrom.tableId ∈ tableIds then some cTo.tableId
  else if cTo.tableId ∈ tableIds then some cFrom.tableId
  else none

def fkNeighborTableIds (tableIds : Finset ℤ) : Finset ℤ :=
  if tableIds = ∅ then ∅
  else (c.fkConstraints.filterMap fun fk => do
    let (cFrom, cTo) ← c.fkColumns fk
    neighborTableId tableIds cFrom cTo).toFinset

/-- The row that joins two columns, where their tables exist and are among the ids. -/
def bridgeRow (tableIds : List ℤ) (cFrom cTo : CatalogColumn) : Option BridgeRow := do
  let tFrom ← c.table? cFrom.tableId
  let tTo ← c.table? cTo.tableId
  if tFrom.id ∈ tableIds ∧ tTo.id ∈ tableIds then
    some {
      fromTableId := tFrom.id
      fromSchema := tFrom.schemaName
      fromTable := tFrom.name
      fromColumn := cFrom.name
      toTableId := tTo.id
      toSchema := tTo.schemaName
      toTable := tTo.name
      toColumn := cTo.name }
  else none

def fkBridgeRows (tableIds : List ℤ) : List BridgeRow :=
  if tableIds.length < 2 then []
  else c.fkConstraints.filterMap fun fk => do
    let (cFrom, cTo) ← c.fkColumns fk
    c.bridgeRow tableIds cFrom cTo

/-! ### Conventions -/

/-- `s LIKE '%[_]CODE'`: brackets stand for themselves, `_` for any character. -/
def likeBracketCode (s : String) : Prop := "]CODE".toList <:+ s.toList ∧ s.toList.reverse[6]? = some '['

instance (s : String) : Decidable (likeBracketCode s) := inferInstanceAs (Decidable (_ ∧ _))

/-- `s LIKE '%SN'`. -/
def likeSn (s : String) : Prop := "SN".toList <:+ s.toList

instance (s : String) : Decidable (likeSn s) := inferInstanceAs (Decidable (_ <:+ _))

/-- Columns of one name, one of them an identifier by the conventions. -/
def SharedColumn (C : Collation) (c₁ c₂ : CatalogColumn) : Prop :=
  C.lower c₂.name = C.lower c₁.name ∧ c₁.tableId < c₂.tableId ∧
    (c₁.isPrimaryKey ∨ c₂.isPrimaryKey ∨ likeBracketCode (C.upper c₁.name) ∨ likeSn (C.upper c₁.name))

instance (C : Collation) (c₁ c₂ : CatalogColumn) : Decidable (SharedColumn C c₁ c₂) := by
  unfold SharedColumn; infer_instance

def conventionBridgeRows (C : Collation) (tableIds : List ℤ) : List BridgeRow :=
  if tableIds.length < 2 then []
  else c.columns.flatMap fun c₁ => c.columns.filterMap fun c₂ =>
    if SharedColumn C c₁ c₂ then c.bridgeRow tableIds c₁ c₂ else none

end Catalog

/-! ## The repository -/

section
variable (K : Type) [LinearOrder K] [Field K]

/-- A catalog, how similar its valid tables and its columns are to a question, and the order of
the rows of every query. -/
structure MetadataRepository where
  catalog : Catalog
  collation : Collation
  /-- `1 - (text_to_sql_vector <=> $1)`, of the tables that have a valid vector. -/
  similarity : String → CatalogTable → Option K
  similarity_le_one : ∀ question t s, similarity question t = some s → s ≤ 1
  minimumSimilarity : K
  searchRows : String → List (ScoredTable K)
  searchRows_perm : ∀ question, (searchRows question).Perm
    (catalog.tables.filterMap fun t =>
      ((similarity question t).filter (minimumSimilarity ≤ ·)).map (ScoredTable.mk t))
  searchRows_sorted : ∀ question, (searchRows question).Pairwise fun a b => b.score ≤ a.score
  /-- `1 - (c.vector <=> $1)`, of the columns that have a vector. -/
  columnSimilarity : String → CatalogColumn → Option K
  /-- The columns of a table by `rank_in_table`. -/
  columnRows : String → ℤ → List (ScoredColumn K)
  columnRows_perm : ∀ question tableId, (columnRows question tableId).Perm
    ((catalog.columns.filter fun c => c.tableId = tableId).filterMap fun c =>
      (columnSimilarity question c).map (ScoredColumn.mk c))
  columnRows_sorted : ∀ question tableId, (columnRows question tableId).Pairwise fun a b => b.score ≤ a.score
  findValueMappings : String → List MappingRow
  findValueMappings_perm : ∀ question,
    (findValueMappings question).Perm (catalog.valueMappingRows collation question)
  fetchTablesByIds : Finset ℤ → List CatalogTable
  fetchTablesByIds_perm : ∀ ids,
    (fetchTablesByIds ids).Perm (catalog.tables.filter fun t => t.id ∈ ids)
  fkBridges : List ℤ → List BridgeRow
  fkBridges_perm : ∀ ids, (fkBridges ids).Perm (catalog.fkBridgeRows ids)
  conventionBridges : List ℤ → List BridgeRow
  conventionBridges_perm : ∀ ids, (conventionBridges ids).Perm (catalog.conventionBridgeRows collation ids)

end

namespace MetadataRepository

variable {K : Type} [LinearOrder K] [Field K]

/-- The repository that gives rows in the order of the tables, and hits ranked. -/
def ofCatalog (catalog : Catalog) (C : Collation) (similarity : String → CatalogTable → Option K)
    (h : ∀ question t s, similarity question t = some s → s ≤ 1) (minimumSimilarity : K)
    (columnSimilarity : String → CatalogColumn → Option K := fun _ _ => none) : MetadataRepository K where
  catalog := catalog
  collation := C
  similarity := similarity
  similarity_le_one := h
  minimumSimilarity := minimumSimilarity
  searchRows question := ranked ScoredTable.score (catalog.tables.filterMap fun t =>
    ((similarity question t).filter (minimumSimilarity ≤ ·)).map (ScoredTable.mk t))
  searchRows_perm _ := perm_ranked _ _
  searchRows_sorted _ := pairwise_ranked _ _
  columnSimilarity := columnSimilarity
  columnRows question tableId := ranked ScoredColumn.score
    ((catalog.columns.filter fun c => c.tableId = tableId).filterMap fun c =>
      (columnSimilarity question c).map (ScoredColumn.mk c))
  columnRows_perm _ _ := perm_ranked _ _
  columnRows_sorted _ _ := pairwise_ranked _ _
  findValueMappings := catalog.valueMappingRows C
  findValueMappings_perm _ := List.Perm.refl _
  fetchTablesByIds ids := catalog.tables.filter fun t => t.id ∈ ids
  fetchTablesByIds_perm _ := List.Perm.refl _
  fkBridges := catalog.fkBridgeRows
  fkBridges_perm _ := List.Perm.refl _
  conventionBridges := catalog.conventionBridgeRows C
  conventionBridges_perm _ := List.Perm.refl _

variable (repository : MetadataRepository K) {question : String} {limit : ℕ}

def searchTables (question : String) (limit : ℕ) : List (ScoredTable K) :=
  (repository.searchRows question).take limit

def fkNeighborTableIds (tableIds : Finset ℤ) : Finset ℤ := repository.catalog.fkNeighborTableIds tableIds

/-- The columns of `search_columns` for a table. -/
def columnsOf (question : String) (perTableLimit : ℤ) (tableId : ℤ) : List (ScoredColumn K) :=
  (repository.columnRows question tableId).take perTableLimit.toNat

/-- The rows of the query, ordered by table and score. -/
def searchColumnRows (question : String) (tableIds : List ℤ) (perTableLimit : ℤ) : List (ScoredColumn K) :=
  (tableIds.dedup.insertionSort (· ≤ ·)).flatMap (repository.columnsOf question perTableLimit)

def searchColumns (question : String) (tableIds : List ℤ) (perTableLimit : ℤ) : Dict ℤ (List (ScoredColumn K)) :=
  if tableIds = [] then []
  else groupBy (fun row => row.column.tableId) id (repository.searchColumnRows question tableIds perTableLimit)

variable {repository} {tableIds : List ℤ} {perTableLimit tableId : ℤ}

theorem tableId_columnsOf {row : ScoredColumn K} (h : row ∈ repository.columnsOf question perTableLimit tableId) :
    row.column.tableId = tableId := by
  have hrow := (repository.columnRows_perm question tableId).mem_iff.1 (List.mem_of_mem_take h)
  obtain ⟨c, hc, heq⟩ := List.mem_filterMap.1 hrow
  obtain ⟨s, -, rfl⟩ := Option.map_eq_some_iff.1 heq
  simpa using (List.mem_filter.1 hc).2

/-- The rows of a table are its own columns, whatever other tables are asked for. -/
theorem filter_searchColumnRows (h : tableId ∈ tableIds) :
    (repository.searchColumnRows question tableIds perTableLimit).filter (fun row => row.column.tableId = tableId) =
      repository.columnsOf question perTableLimit tableId := by
  have hnodup : (tableIds.dedup.insertionSort (· ≤ ·)).Nodup :=
    (List.perm_insertionSort _ _).nodup_iff.2 (List.nodup_dedup _)
  have hmem : tableId ∈ tableIds.dedup.insertionSort (· ≤ ·) := by simpa using h
  obtain ⟨before, after, hids⟩ := List.append_of_mem hmem
  rw [searchColumnRows, hids]
  rw [hids] at hnodup
  have hother : ∀ ids : List ℤ, tableId ∉ ids →
      (ids.flatMap (repository.columnsOf question perTableLimit)).filter (fun row => row.column.tableId = tableId) =
        [] := by
    intro ids hids
    refine List.filter_eq_nil_iff.2 fun row hrow heq => ?_
    obtain ⟨id, hid, hrow⟩ := List.mem_flatMap.1 hrow
    rw [decide_eq_true_eq, tableId_columnsOf hrow] at heq
    exact hids (heq ▸ hid)
  have hbefore : tableId ∉ before := fun h => (List.disjoint_of_nodup_append hnodup) h List.mem_cons_self
  have hafter : tableId ∉ after := (List.nodup_cons.1 (hnodup.of_append_right)).1
  rw [List.flatMap_append, List.flatMap_cons, List.filter_append, List.filter_append, hother before hbefore,
    hother after hafter, List.nil_append, List.append_nil]
  exact List.filter_eq_self.2 fun row hrow => decide_eq_true (tableId_columnsOf hrow)

theorem get?_searchColumns (h : tableId ∈ tableIds) :
    ((repository.searchColumns question tableIds perTableLimit).get? tableId).getD [] =
      repository.columnsOf question perTableLimit tableId := by
  rw [searchColumns, if_neg (List.ne_nil_of_mem h), get?_groupBy]
  split_ifs with hmem
  · rw [Option.getD_some, List.map_id, filter_searchColumnRows h]
  · -- a table without rows
    rw [← filter_searchColumnRows h, Option.getD_none, eq_comm]
    refine List.filter_eq_nil_iff.2 fun row hrow heq => hmem ?_
    exact List.mem_map.2 ⟨row, hrow, of_decide_eq_true heq⟩

end MetadataRepository

end RoboMeta
