/-
  Listing and lookup of tables in the graph (`services/meta_service.py`).

  `listBatch` and `getTable` ask for the same flag of a table, the one in the
  `WHERE` of an `OPTIONAL MATCH`, the other in that of a `MATCH`.

  * `CatalogGraph`, `MetaGraphStore`: the nodes and relationships that are read; the
    order of rows, which the queries leave open, and `toLower`;
  * `getTable_isSome_iff`: when a table is found;
  * `listing_agrees_iff`: what is listed is found, and no table is listed that does
    not exist, iff all tables with a schema exist and go by their names.
-/
import Mathlib.Data.List.Dedup
import RoboMeta.Lib.Cypher
import RoboMeta.MetaPostgres

namespace RoboMeta

/-! ## The graph -/

/-- `:Table`; `dbExists` is `text_to_sql_db_exists`. -/
structure TableNode where
  id : ℕ
  name : Option String
  description : Option String := none
  dbExists : Option Bool := none
deriving DecidableEq, Repr

/-- `:Schema`. -/
structure SchemaNode where
  id : ℕ
  db : Option String
  name : Option String
deriving DecidableEq, Repr

/-- `:DataSource`; `label` is its property `id`, and `others` whether it has further ones. -/
structure SourceNode where
  id : ℕ
  name : Option String
  label : Option String := none
  engine : Option String
  others : Bool := false
deriving DecidableEq, Repr

/-- `:Column`. -/
structure ColumnNode where
  id : ℕ
  name : Option String
  dtype : Option String := none
  description : Option String := none
  nullable : Option Bool := none
  isPrimaryKey : Option Bool := none
deriving DecidableEq, Repr

structure CatalogGraph where
  tables : List TableNode
  schemas : List SchemaNode
  sources : List SourceNode
  columns : List ColumnNode
  /-- `belongsTo|HAS_TABLE` between a table and a schema, of either direction. -/
  tableSchema : List GraphEdge
  /-- `HAS_SCHEMA` from a data source. -/
  hasSchema : List GraphEdge
  /-- `hasColumn|HAS_COLUMN` from a table. -/
  hasColumn : List GraphEdge
  /-- `fkTo|FK_TO_COLUMN` from a column. -/
  fkTo : List GraphEdge

/-- A foreign key as the lookup collects it. -/
structure CollectedFk where
  fromColumn : Option String
  refSchemaName : Option String
  refTableName : Option String
  refColumnName : Option String
deriving DecidableEq, Repr

namespace CatalogGraph

variable (g : CatalogGraph)

def table? (id : ℕ) : Option TableNode := g.tables.find? fun t => t.id = id

def schema? (id : ℕ) : Option SchemaNode := g.schemas.find? fun s => s.id = id

def source? (id : ℕ) : Option SourceNode := g.sources.find? fun ds => ds.id = id

def column? (id : ℕ) : Option ColumnNode := g.columns.find? fun c => c.id = id

/-- `(t:Table)-[:belongsTo|HAS_TABLE]-(s:Schema)`. -/
def tableSchemas : List (TableNode × SchemaNode) := ends g.table? g.schema? g.tableSchema

/-- `(ds:DataSource)-[:HAS_SCHEMA]->(s)`. -/
def sourcesOf (s : SchemaNode) : List SourceNode :=
  ((ends g.source? g.schema? g.hasSchema).filter fun p => p.2.id = s.id).map Prod.fst

/-- `(t)-[:hasColumn|HAS_COLUMN]->(c:Column)`. -/
def columnsOf (t : TableNode) : List ColumnNode :=
  ((ends g.table? g.column? g.hasColumn).filter fun p => p.1.id = t.id).map Prod.snd

/-- `(t)-->(c1)-[fk]->(c2)<--(t2:Table)`: the columns and the other table; no relationship is taken twice. -/
def fksOf (t : TableNode) : List (ColumnNode × ColumnNode × TableNode) :=
  (g.hasColumn.filter fun r => r.source = t.id).flatMap fun r =>
    (g.fkTo.filter fun fk => fk.source = r.target).flatMap fun fk =>
      (g.hasColumn.filter fun r' => r'.target = fk.target ∧ r' ≠ r).filterMap fun r' => do
        let c1 ← g.column? r.target
        let c2 ← g.column? fk.target
        let t2 ← g.table? r'.source
        return (c1, c2, t2)

def collectedFks (t : TableNode) : List CollectedFk :=
  (optionalMatch (fun fk => (g.tableSchemas.filter fun p => p.1.id = fk.2.2.id).map Prod.snd) (g.fksOf t)).map
    fun row => {
      fromColumn := row.1.1.name
      refSchemaName := row.2.bind SchemaNode.name
      refTableName := row.1.2.2.name
      refColumnName := row.1.2.1.name }

end CatalogGraph

/-- `COALESCE(t.text_to_sql_db_exists, true) = true`. -/
def TableNode.Exists (t : TableNode) : Prop := t.dbExists.getD true = true

instance (t : TableNode) : Decidable t.Exists := inferInstanceAs (Decidable (_ = _))

/-- A table, its schema and a data source of it. -/
abbrev GraphRow := (TableNode × SchemaNode) × Option SourceNode

/-- A graph with `toLower` and the order in which rows and collected nodes come. -/
structure MetaGraphStore where
  graph : CatalogGraph
  lower : String → String
  /-- `settings.meta_db_label`. -/
  defaultDb : String
  listOrder : List GraphRow → List GraphRow
  listOrder_perm : ∀ rows, (listOrder rows).Perm rows
  lookupOrder : List GraphRow → List GraphRow
  lookupOrder_perm : ∀ rows, (lookupOrder rows).Perm rows
  columnOrder : List ColumnNode → List ColumnNode
  columnOrder_perm : ∀ columns, (columnOrder columns).Perm columns
  fkOrder : List CollectedFk → List CollectedFk
  fkOrder_perm : ∀ fks, (fkOrder fks).Perm fks

/-- Rows come as they are stored. -/
def MetaGraphStore.ofGraph (graph : CatalogGraph) (lower : String → String) (defaultDb : String) : MetaGraphStore where
  graph := graph
  lower := lower
  defaultDb := defaultDb
  listOrder := id
  listOrder_perm := .refl
  lookupOrder := id
  lookupOrder_perm := .refl
  columnOrder := id
  columnOrder_perm := .refl
  fkOrder := id
  fkOrder_perm := .refl

namespace MetaGraphStore

variable (r : MetaGraphStore)

/-- `COALESCE(s.db, ds.engine, $default_db)`. -/
def dbLabel (row : GraphRow) : String := (row.1.2.db.or (row.2.bind SourceNode.engine)).getD r.defaultDb

/-! ## Listing -/

/-- The rows of the listing: a table that does not exist has no data source here. -/
def listRows : List GraphRow :=
  optionalMatch (fun p => if p.1.Exists then r.graph.sourcesOf p.2 else []) r.graph.tableSchemas

/-- `BatchItem(…)`. -/
def batchItem (row : GraphRow) : TableKey where
  db := some (r.dbLabel row)
  schemaName := formatOptional row.1.2.name
  tableName := formatOptional row.1.1.name

def listBatch : List TableKey := (r.listOrder r.listRows).map r.batchItem

/-! ## Lookup -/

/-- The names of the table and the schema, up to case. -/
def Named (schemaName tableName : String) (p : TableNode × SchemaNode) : Prop :=
  (∃ s ∈ p.2.name, r.lower s = r.lower schemaName) ∧ ∃ n ∈ p.1.name, r.lower n = r.lower tableName

instance (schemaName tableName : String) (p : TableNode × SchemaNode) : Decidable (r.Named schemaName tableName p) :=
  inferInstanceAs (Decidable (_ ∧ _))

def lookupRows (db : Option String) (schemaName tableName : String) : List GraphRow :=
  ((optionalMatch (fun p => r.graph.sourcesOf p.2)
    (r.graph.tableSchemas.filter fun p => r.Named schemaName tableName p ∧ p.1.Exists)).filter fun row =>
      ∀ d ∈ db, r.lower (r.dbLabel row) = r.lower d).dedup

/-- `_ds_info`. -/
def dsInfo (source : Option SourceNode) : Option DataSourceInfo :=
  match source with
  | none => none
  | some ds =>
    if ds.name = none ∧ ds.label = none ∧ ds.engine = none ∧ ds.others = false then none
    else some { id := ((nonempty ds.name).or (nonempty ds.label)).getD "unknown", dialect := ds.engine }

def yn (v : Bool) : YN := if v then .yes else .no

def tableInfo (row : GraphRow) (columns : List ColumnNode) (tableName : String) : TableInfo where
  db := r.dbLabel row
  schemaName := formatOptional row.1.2.name
  tableName := (nonempty row.1.1.name).getD tableName
  tableComment := row.1.1.description
  tableIsActive := yn (row.1.1.dbExists.getD true)
  pkColumns := (columns.filter fun c => c.isPrimaryKey = some true).map fun c => formatOptional c.name
  datasource := dsInfo row.2

/-- A column; `fkColumns` are the names of those that a foreign key leaves. -/
def columnMeta (fkColumns : List String) (c : ColumnNode) : ColumnMeta where
  columnName := (nonempty c.name).getD ""
  dataType := c.dtype
  columnComment := c.description
  constraints := (if c.isPrimaryKey = some true then [.pk] else []) ++
    if (nonempty c.name).getD "" ∈ fkColumns then [.fk] else []
  isNull := c.nullable.getD true

def refMeta (fk : CollectedFk) (position : ℕ) : RefMeta where
  columnName := formatOptional fk.fromColumn
  position := position
  refSchemaName := (nonempty fk.refSchemaName).getD ""
  refTableName := (nonempty fk.refTableName).getD ""
  refColumnName := (nonempty fk.refColumnName).getD ""

def response (row : GraphRow) (tableName : String) : MetaTableResponse :=
  let columns := r.columnOrder (r.graph.columnsOf row.1.1).dedup
  let fks := r.fkOrder (r.graph.collectedFks row.1.1).dedup
  let fkColumns := fks.filterMap fun fk => nonempty fk.fromColumn
  { tableInfo := r.tableInfo row columns tableName
    columns := columns.map (columnMeta fkColumns)
    fk := fks.mapIdx fun i fk => refMeta fk (i + 1) }

def getTable (db : Option String) (schemaName tableName : String) : Option MetaTableResponse :=
  (r.lookupOrder (r.lookupRows db schemaName tableName)).head?.map fun row => r.response row tableName

/-! ## What is found -/

/-- The tables with their schemas and data sources. -/
def graphRows : List GraphRow := optionalMatch (fun p => r.graph.sourcesOf p.2) r.graph.tableSchemas

variable {r}

theorem exists_iff {t : TableNode} : t.Exists ↔ t.dbExists ≠ some false := by
  unfold TableNode.Exists
  cases t.dbExists with
  | none => simp
  | some v => cases v <;> simp

theorem mem_lookupRows {db : Option String} {schemaName tableName : String} {row : GraphRow} :
    row ∈ r.lookupRows db schemaName tableName ↔
      row ∈ r.graphRows ∧ (r.Named schemaName tableName row.1 ∧ row.1.1.Exists) ∧
        ∀ d ∈ db, r.lower (r.dbLabel row) = r.lower d := by
  obtain ⟨p, source⟩ := row
  rw [lookupRows, List.mem_dedup, List.mem_filter, mem_optionalMatch, graphRows, mem_optionalMatch, List.mem_filter,
    decide_eq_true_iff, decide_eq_true_iff]
  constructor
  · rintro ⟨⟨⟨hp, hnamed⟩, hsource⟩, hdb⟩
    exact ⟨⟨hp, hsource⟩, hnamed, hdb⟩
  · rintro ⟨⟨hp, hsource⟩, hnamed, hdb⟩
    exact ⟨⟨⟨hp, hnamed⟩, hsource⟩, hdb⟩

/-- **Lookup**: a table is found iff one that exists goes by the names. -/
theorem getTable_isSome_iff {db : Option String} {schemaName tableName : String} :
    (r.getTable db schemaName tableName).isSome ↔ ∃ row ∈ r.graphRows, row.1.1.Exists ∧
      r.Named schemaName tableName row.1 ∧ ∀ d ∈ db, r.lower (r.dbLabel row) = r.lower d := by
  have hperm := r.lookupOrder_perm (r.lookupRows db schemaName tableName)
  rw [getTable, Option.isSome_map, List.isSome_head?]
  constructor
  · intro hne
    obtain ⟨row, hrow⟩ := List.exists_mem_of_ne_nil _ hne
    obtain ⟨hmem, ⟨hnamed, hexists⟩, hdb⟩ := mem_lookupRows.1 (hperm.mem_iff.1 hrow)
    exact ⟨row, hmem, hexists, hnamed, hdb⟩
  · rintro ⟨row, hmem, hexists, hnamed, hdb⟩
    exact List.ne_nil_of_mem (hperm.mem_iff.2 (mem_lookupRows.2 ⟨hmem, ⟨hnamed, hexists⟩, hdb⟩))

/-- A row of the listing: a table that exists has its data sources, one that does not has none. -/
theorem mem_listRows {row : GraphRow} : row ∈ r.listRows ↔
    row.1.1.Exists ∧ row ∈ r.graphRows ∨ ¬ row.1.1.Exists ∧ row.1 ∈ r.graph.tableSchemas ∧ row.2 = none := by
  obtain ⟨p, source⟩ := row
  rw [listRows, mem_optionalMatch, graphRows, mem_optionalMatch]
  by_cases hexists : p.1.Exists
  · simp [hexists]
  · simp [hexists]

/-! ## Agreement -/

variable (r) in
/-- What is listed is found, and a table whose flag is false is in neither. -/
structure ListingAgrees : Prop where
  found : ∀ item ∈ r.listBatch, (r.getTable item.db item.schemaName item.tableName).isSome
  listed : ∀ row ∈ r.listRows, row.1.1.dbExists ≠ some false
  lookedUp : ∀ db schemaName tableName, ∀ row ∈ r.lookupRows db schemaName tableName, row.1.1.dbExists ≠ some false

variable (r) in
/-- All tables with a schema exist, and where a name is missing, a table of the same label goes by the text `None`. -/
structure Listable : Prop where
  exist : ∀ p ∈ r.graph.tableSchemas, p.1.dbExists ≠ some false
  named : ∀ row ∈ r.graphRows, row.1.2.name = none ∨ row.1.1.name = none →
    ∃ row' ∈ r.graphRows, r.Named (formatOptional row.1.2.name) (formatOptional row.1.1.name) row'.1 ∧
      r.lower (r.dbLabel row') = r.lower (r.dbLabel row)

theorem forall_listBatch {P : TableKey → Prop} :
    (∀ item ∈ r.listBatch, P item) ↔ ∀ row ∈ r.listRows, P (r.batchItem row) := by
  rw [listBatch, List.forall_mem_map]
  exact forall_congr' fun row => imp_congr_left (r.listOrder_perm r.listRows).mem_iff

/-- A table goes by its own names. -/
theorem named_self {row : GraphRow} (hschema : row.1.2.name ≠ none) (htable : row.1.1.name ≠ none) :
    r.Named (r.batchItem row).schemaName (r.batchItem row).tableName row.1 := by
  obtain ⟨schemaName, hschema⟩ := Option.ne_none_iff_exists'.1 hschema
  obtain ⟨tableName, htable⟩ := Option.ne_none_iff_exists'.1 htable
  refine ⟨⟨schemaName, hschema, ?_⟩, tableName, htable, ?_⟩
  · rw [batchItem, hschema]
    rfl
  · rw [batchItem, htable]
    rfl

/-- **Listing and lookup** agree iff the graph has no table that does not exist, and none without a name. -/
theorem listing_agrees_iff : r.ListingAgrees ↔ r.Listable := by
  have hgraph : ∀ {row : GraphRow}, row ∈ r.graphRows → row.1 ∈ r.graph.tableSchemas := fun {row} hrow =>
    (mem_optionalMatch.1 (show (row.1, row.2) ∈ r.graphRows from hrow)).1
  constructor
  · intro h
    have hexist : ∀ p ∈ r.graph.tableSchemas, p.1.dbExists ≠ some false := by
      intro p hp
      obtain ⟨source, hrow⟩ : ∃ source, (p, source) ∈ r.listRows := exists_mem_optionalMatch hp
      exact h.listed (p, source) hrow
    refine ⟨hexist, fun row hrow hname => ?_⟩
    have hlisted : row ∈ r.listRows := mem_listRows.2 (Or.inl ⟨exists_iff.2 (hexist row.1 (hgraph hrow)), hrow⟩)
    obtain ⟨row', hrow', -, hnamed, hdb⟩ := getTable_isSome_iff.1 (forall_listBatch.1 h.found row hlisted)
    exact ⟨row', hrow', hnamed, hdb _ rfl⟩
  · intro h
    have hexists : ∀ {row : GraphRow}, row ∈ r.graphRows → row.1.1.Exists := fun hrow =>
      exists_iff.2 (h.exist _ (hgraph hrow))
    have hlisted : ∀ row ∈ r.listRows, row ∈ r.graphRows := by
      intro row hrow
      rcases mem_listRows.1 hrow with ⟨-, hrow⟩ | ⟨hnot, hp, -⟩
      · exact hrow
      · exact absurd (exists_iff.2 (h.exist row.1 hp)) hnot
    refine ⟨forall_listBatch.2 fun row hrow => getTable_isSome_iff.2 ?_, fun row hrow => ?_, fun _ _ _ row hrow => ?_⟩
    · have hrow := hlisted row hrow
      by_cases hname : row.1.2.name = none ∨ row.1.1.name = none
      · obtain ⟨row', hrow', hnamed, hlabel⟩ := h.named row hrow hname
        refine ⟨row', hrow', hexists hrow', hnamed, fun d hd => ?_⟩
        rw [hlabel, Option.some.inj hd]
      · rw [not_or] at hname
        refine ⟨row, hrow, hexists hrow, named_self hname.1 hname.2, fun d hd => ?_⟩
        rw [← Option.some.inj hd]
    · exact h.exist row.1 (hgraph (hlisted row hrow))
    · exact exists_iff.1 (mem_lookupRows.1 hrow).2.1.2

/-! ### A table that does not exist -/

/-- One table with the flag false, in a schema without a data source. -/
def droppedTable : CatalogGraph where
  tables := [{ id := 1, name := some "FLOW_DAY", dbExists := some false }]
  schemas := [{ id := 2, db := some "RWIS", name := some "RWIS" }]
  sources := []
  columns := []
  tableSchema := [⟨1, 1, 2⟩]
  hasSchema := []
  hasColumn := []
  fkTo := []

theorem not_forall_listingAgrees : ¬ ∀ r : MetaGraphStore, r.ListingAgrees := by
  intro h
  have hfound := (h (.ofGraph droppedTable asciiLower "postgres")).found ⟨some "RWIS", "RWIS", "FLOW_DAY"⟩ (by decide)
  revert hfound
  decide

end MetaGraphStore

end RoboMeta
