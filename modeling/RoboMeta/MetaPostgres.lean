/-
  Listing and lookup of tables (`services/meta_postgres.py`).

  `listBatch` returns the names of all tables as they are; `getTable` looks a
  table up by its names up to letter case, takes the first one by id and fetches
  its columns by that id, its foreign keys once more by the names.

  * `MetaCatalog`: the rows that the queries read, all of their columns that
    count;
  * `MetaRepository`: a catalog with the order of the rows of every query, and the
    functions of the database;
  * `listTables`, `fetchTableDetail`, `fetchRefs`: the queries;
  * `listBatch`, `getTable`: the service.
-/
import RoboMeta.DecisionPostgres
import RoboMeta.JsonValue

namespace RoboMeta

/-! ## Rows -/

/-- A row of `t2s_tables`. -/
structure MetaTable extends CatalogTable where
  description : Option String := none
  analyzedDescription : Option String := none
  datasourceId : Option ℤ := none
deriving DecidableEq, Repr

/-- A row of `t2s_columns`. -/
structure MetaColumn extends CatalogColumn where
  dtype : Option String := none
  nullable : Option Bool := none
  description : Option String := none
  analyzedDescription : Option String := none
  metadata : Option JsonValue := none

/-- A row of `t2s_fk_constraints`. -/
structure MetaFk extends FkConstraint where
  metadata : Option JsonValue := none

/-- A row of `t2s_datasources`. -/
structure Datasource where
  id : ℤ
  profileId : Option String
  engine : Option String
deriving DecidableEq, Repr

structure MetaCatalog where
  tables : List MetaTable
  columns : List MetaColumn
  fkConstraints : List MetaFk
  datasources : List Datasource := []
  nodup_tables : (tables.map fun t => t.id).Nodup
  nodup_columns : (columns.map fun c => c.id).Nodup

/-- What a call raises. -/
inductive MetaError where
  /-- A `ValidationError` of the model, with the fields that are no strings. -/
  | validation (model : String) (fields : List String)
  /-- Any other exception of Python. -/
  | python (e : Exc)
  /-- An error of the database. -/
  | database (e : Exc)

/-- `lower`, the text of a JSON value (`->>`) and the cast `::int` of the database. -/
structure MetaSql where
  lower : String → String
  textOf : JsonValue → String
  castInt : String → Except Exc ℤ

/-- A database that knows ASCII letters only. -/
def MetaSql.ascii : MetaSql where
  lower := asciiLower
  textOf := JsonValue.pyStr fun _ => ""
  castInt s := s.toInt?.elim (.error ⟨"InvalidTextRepresentationError", "invalid input syntax for type integer"⟩) .ok

/-- A row of `fetch_refs`. -/
structure RefRow where
  columnName : String
  position : ℤ
  refSchemaName : Option String
  refTableName : Option String
  refColumnName : String
deriving DecidableEq, Repr

/-- A catalog with the order in which rows come, of whatever collation. -/
structure MetaRepository where
  catalog : MetaCatalog
  sql : MetaSql
  tableOrder : List MetaTable → List MetaTable
  tableOrder_perm : ∀ tables, (tableOrder tables).Perm tables
  columnOrder : List MetaColumn → List MetaColumn
  columnOrder_perm : ∀ columns, (columnOrder columns).Perm columns
  refOrder : List RefRow → List RefRow
  refOrder_perm : ∀ rows, (refOrder rows).Perm rows

/-- A catalog whose rows come as they are stored. -/
def MetaRepository.ofCatalog (catalog : MetaCatalog) (sql : MetaSql) : MetaRepository where
  catalog := catalog
  sql := sql
  tableOrder := id
  tableOrder_perm := .refl
  columnOrder := id
  columnOrder_perm := .refl
  refOrder := id
  refOrder_perm := .refl

/-! ## The queries -/

section
variable (S : MetaSql)

/-- `(metadata->>'key')::int`. -/
def MetaSql.intMember (metadata : Option JsonValue) (key : String) : Except MetaError (Option ℤ) :=
  match metadata with
  | some (.obj items) => match Dict.get? items key with
    | none => .ok none
    | some v => if v.isNull then .ok none else ((S.castInt (S.textOf v)).map some).mapError .database
  | _ => .ok none

/-- The table goes by the names up to letter case, with any label if none is given. -/
def MetaTable.Named (db : Option String) (schemaName tableName : String) (t : MetaTable) : Prop :=
  (∀ d ∈ db, ∃ d' ∈ t.db, S.lower d' = S.lower d) ∧ (∃ s ∈ t.schemaName, S.lower s = S.lower schemaName) ∧
    ∃ n ∈ t.originalName, S.lower n = S.lower tableName

instance (db : Option String) (schemaName tableName : String) (t : MetaTable) :
    Decidable (t.Named S db schemaName tableName) :=
  inferInstanceAs (Decidable (_ ∧ _ ∧ _))

end

/-- A row of `list_tables`. -/
structure ListedTable where
  db : Option String
  schemaName : Option String
  tableName : Option String
deriving DecidableEq, Repr

/-- A foreign key with the columns and tables that its joins find. -/
structure JoinedFk where
  fk : MetaFk
  cFrom : MetaColumn
  tFrom : MetaTable
  cTo : MetaColumn
  tTo : MetaTable

namespace MetaCatalog

variable (c : MetaCatalog)

def table? (id : ℤ) : Option MetaTable := c.tables.find? fun t => t.id = id

def column? (id : ℤ) : Option MetaColumn := c.columns.find? fun col => col.id = id

def columnsOf (tableId : ℤ) : List MetaColumn := c.columns.filter fun col => col.tableId = tableId

/-- `EXISTS (SELECT 1 FROM t2s_fk_constraints fk WHERE fk.from_column_id=c.id)`. -/
def isForeignKey (col : MetaColumn) : Bool := c.fkConstraints.any fun fk => fk.fromColumnId = col.id

/-- The joins of `fetch_refs`. -/
def joinedFk (fk : MetaFk) : Option JoinedFk := do
  let cFrom ← c.column? fk.fromColumnId
  let tFrom ← c.table? cFrom.tableId
  let cTo ← c.column? fk.toColumnId
  let tTo ← c.table? cTo.tableId
  return ⟨fk, cFrom, tFrom, cTo, tTo⟩

def joinedFks : List JoinedFk := c.fkConstraints.filterMap c.joinedFk

/-- The first table by id that goes by the names. -/
def firstNamed (S : MetaSql) (db : Option String) (schemaName tableName : String) : Option MetaTable :=
  ((c.tables.filter fun t => t.Named S db schemaName tableName).insertionSort fun t t' => t.id ≤ t'.id).head?

end MetaCatalog

/-- The columns that `fetch_refs` selects. -/
def JoinedFk.row (S : MetaSql) (j : JoinedFk) : Except MetaError RefRow := do
  let position ← S.intMember j.fk.metadata "position"
  return {
    columnName := j.cFrom.name
    position := position.getD 1
    refSchemaName := j.tTo.schemaName
    refTableName := j.tTo.originalName
    refColumnName := j.cTo.name }

/-- What `fetch_table_detail` returns. -/
structure TableDetail where
  table : MetaTable
  datasource : Option Datasource
  columns : List MetaColumn
  refs : List RefRow

namespace MetaRepository

variable (r : MetaRepository)

def listTables : List ListedTable := (r.tableOrder r.catalog.tables).map fun t => ⟨t.db, t.schemaName, t.originalName⟩

/-- The columns of a table; those by whose position they are ordered are cast. -/
def fetchColumns (tableId : ℤ) : Except MetaError (List MetaColumn) := do
  let _ ← (r.catalog.columnsOf tableId).mapM fun col => r.sql.intMember col.metadata "ordinal_position"
  return r.columnOrder (r.catalog.columnsOf tableId)

def fetchRefs (db : Option String) (schemaName tableName : String) : Except MetaError (List RefRow) := do
  let rows ← (r.catalog.joinedFks.filter fun j => j.tFrom.Named r.sql db schemaName tableName).mapM (JoinedFk.row r.sql)
  return r.refOrder rows

def fetchTableDetail (db : Option String) (schemaName tableName : String) : Except MetaError (Option TableDetail) :=
  match r.catalog.firstNamed r.sql db schemaName tableName with
  | none => .ok none
  | some t => do
    let columns ← r.fetchColumns t.id
    let refs ← r.fetchRefs (some (formatOptional t.db)) (formatOptional t.schemaName) (formatOptional t.originalName)
    return some {
      table := t
      datasource := t.datasourceId.bind fun id => r.catalog.datasources.find? fun ds => ds.id = id
      columns := columns
      refs := refs }

end MetaRepository

/-! ## The models of the answers -/

inductive YN where
  | yes
  | no
deriving DecidableEq, Repr

structure CodeLookup where
  refSchemaName : Option String := none
  refTableName : Option String := none
  refColumnName : Option String := none
  via : Option String := none
deriving DecidableEq, Repr

structure TermMapping where
  standardTerm : Option String := none
  physicalName : Option String := none
  synonyms : List String := []
deriving DecidableEq, Repr

structure ColumnMeta where
  columnName : String
  columnNameKr : Option String := none
  dataType : Option String := none
  columnComment : Option String := none
  constraints : List ColumnConstraint := []
  isNull : Bool := true
  columnIsActive : YN := .yes
  codeLookup : Option CodeLookup := none
  termMapping : Option TermMapping := none
  valueExamples : List String := []
deriving DecidableEq, Repr

structure DataSourceInfo where
  id : String
  dialect : Option String := none
  domain : Option String := none
  owner : Option String := none
deriving DecidableEq, Repr

structure LineageBrief where
  upstream : List TableKey := []
  downstream : List TableKey := []
deriving DecidableEq, Repr

structure OntologyAnchor where
  layer : String
  name : String
  relation : String
deriving DecidableEq, Repr

structure TableInfo where
  db : String
  schemaName : String
  tableName : String
  tableNameKr : Option String := none
  tableComment : Option String := none
  subjectArea : SubjectArea := .unknown
  tableIsActive : YN := .yes
  pkColumns : List String := []
  datasource : Option DataSourceInfo := none
  lineageBrief : LineageBrief := {}
  ontologyAnchors : List OntologyAnchor := []
deriving DecidableEq, Repr

structure RefMeta where
  columnName : String
  position : ℤ := 1
  refSchemaName : String
  refTableName : String
  refColumnName : String
deriving DecidableEq, Repr

structure MetaTableResponse where
  metaVersion : String := "0.7"
  tableInfo : TableInfo
  columns : List ColumnMeta
  fk : List RefMeta
deriving DecidableEq, Repr

/-! ## The service -/

/-- The fields of a model that are required and `None`. -/
def missing (fields : List (String × Option String)) : List String :=
  (fields.filter fun field => field.2 = none).map Prod.fst

/-- `BatchItem(**row)`. -/
def ListedTable.batchItem (row : ListedTable) : Except MetaError TableKey :=
  match row.schemaName, row.tableName with
  | some schemaName, some tableName => .ok ⟨row.db, schemaName, tableName⟩
  | schemaName, tableName =>
    .error (.validation "BatchItem" (missing [("schema_name", schemaName), ("table_name", tableName)]))

/-- `RefMeta(**row)`. -/
def RefRow.refMeta (row : RefRow) : Except MetaError RefMeta :=
  match row.refSchemaName, row.refTableName with
  | some refSchemaName, some refTableName =>
    .ok ⟨row.columnName, row.position, refSchemaName, refTableName, row.refColumnName⟩
  | refSchemaName, refTableName =>
    .error (.validation "RefMeta" (missing [("ref_schema_name", refSchemaName), ("ref_table_name", refTableName)]))

namespace MetaCatalog

variable (c : MetaCatalog)

/-- `_constraints`. -/
def constraints (col : MetaColumn) : Except Exc (List ColumnConstraint) := do
  let isUnique ← (col.metadata.getD (.obj [])).get "is_unique"
  return (if col.isPrimaryKey then [.pk] else []) ++ (if c.isForeignKey col then [.fk] else []) ++
    if isUnique.truthy then [.unique] else []

/-- `_column_meta`. -/
def columnMeta (col : MetaColumn) : Except MetaError ColumnMeta := do
  let constraints ← (c.constraints col).mapError .python
  return {
    columnName := col.name
    columnNameKr := nonempty col.description
    dataType := nonempty col.dtype
    columnComment := (nonempty col.analyzedDescription).or (nonempty col.description)
    constraints := constraints
    isNull := col.nullable.getD false }

end MetaCatalog

def TableDetail.tableInfo (detail : TableDetail) : TableInfo where
  db := formatOptional detail.table.db
  schemaName := formatOptional detail.table.schemaName
  tableName := formatOptional detail.table.originalName
  tableNameKr := nonempty detail.table.description
  tableComment := (nonempty detail.table.analyzedDescription).or (nonempty detail.table.description)
  pkColumns := (detail.columns.filter fun col => col.isPrimaryKey).map fun col => col.name
  datasource := some {
    id := formatOptional ((nonempty (detail.datasource.bind Datasource.profileId)).or detail.table.db)
    dialect := nonempty (detail.datasource.bind Datasource.engine) }

namespace MetaRepository

variable (r : MetaRepository)

def listBatch : Except MetaError (List TableKey) := r.listTables.mapM ListedTable.batchItem

def getTable (db : Option String) (schemaName tableName : String) : Except MetaError (Option MetaTableResponse) := do
  let some detail ← r.fetchTableDetail db schemaName tableName | return none
  let columns ← detail.columns.mapM r.catalog.columnMeta
  let fk ← detail.refs.mapM RefRow.refMeta
  return some { tableInfo := detail.tableInfo, columns := columns, fk := fk }

end MetaRepository

end RoboMeta
