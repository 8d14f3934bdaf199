/-
  The schemas of tables (`fetch_table_schemas` in
  `services/neo4j_client/vector_search.py`).

  The query matches the tables that are requested with their columns and groups by
  what it returns beside these, which is not the node: tables that agree in all of
  it make one row, with the columns of each.  A table without columns is listed
  with one column of nulls.

  * `heading_mem_iff`: which tables are listed;
  * `mem_columns_iff`: under the heading of a table stand the columns of the tables
    with that heading, and no others.
-/
import RoboMeta.GraphFetches
import RoboMeta.MatchedColumns
import RoboMeta.VectorSearch

namespace RoboMeta

/-! ## The graph -/

/-- A `Table` node with what this query reads besides. -/
structure SchemaVertex (K : Type) extends TableVertex K where
  originalName : Option String := none
  tableType : Option String := none
deriving DecidableEq

structure SchemaColumn extends ColumnNode where
  fqn : Option String := none
  enumValues : Option Json := none
  cardinality : Option ℤ := none
deriving DecidableEq

/-- The tables with their vectors, columns and foreign keys. -/
structure QuestionGraph (K : Type) where
  tables : List (SchemaVertex K)
  columns : List SchemaColumn
  /-- `hasColumn|HAS_COLUMN` from a table. -/
  hasColumn : List GraphEdge
  /-- `fkTo|FK_TO_COLUMN` from a column. -/
  fkTo : List GraphEdge
  toLower : String → String
  cosine : List K → List K → K
  queryNodes : ℕ → List K → Except String (List (TableVertex K × K))
  /-- The order in which rows come that a query does not sort. -/
  order {α : Type} : List α → List α
  order_perm : ∀ {α : Type} (rows : List α), (order rows).Perm rows

/-- The texts of a table in a schema. -/
structure Heading where
  schema : String
  name : String
  description : String
  tableType : String
  datasource : String
deriving DecidableEq

structure TableSchema extends Heading where
  columns : List (Option SchemaColumn)
deriving DecidableEq

/-- What the query returns beside the columns. -/
structure SchemaKey where
  name : Option String
  schema : Option String
  description : Option String
  tableType : Option String
  datasource : Option String
deriving DecidableEq

def SchemaKey.heading (key : SchemaKey) : Heading where
  schema := key.schema.getD ""
  name := key.name.getD ""
  description := key.description.getD ""
  tableType := key.tableType.getD ""
  datasource := key.datasource.getD ""

/-- `ORDER BY table_schema, table_name`; nulls come last. -/
def SchemaKey.sortKey (key : SchemaKey) : WithTop String ×ₗ WithTop String := toLex (key.schema, key.name)

namespace SchemaVertex

variable {K : Type} (t : SchemaVertex K)

def key : SchemaKey := ⟨t.originalName.or t.name, t.schema, t.description, t.tableType, t.datasource⟩

def heading : Heading := t.key.heading

def graphTable : GraphTable := ⟨t.schema, t.name, t.originalName, t.datasource⟩

end SchemaVertex

namespace QuestionGraph

variable {K : Type} (U : Unicode) (g : QuestionGraph K)

/-- The graph as the vector search reads it. -/
def store : VectorStore K where
  tables := g.tables.map SchemaVertex.toTableVertex
  toLower := g.toLower
  cosine := g.cosine
  queryNodes := g.queryNodes

/-- The graph as the query for foreign keys reads it. -/
def pool : PoolGraph K where
  toLower := g.toLower
  tables := g.tables.map fun t => ⟨t.id, t.schema, t.name⟩
  columns := g.columns.map SchemaColumn.toColumnNode
  hasColumn := g.hasColumn
  fkTo := g.fkTo
  relations := []
  order := g.order
  order_perm := g.order_perm

def table? (id : ℕ) : Option (SchemaVertex K) := g.tables.find? fun t => t.id = id

def column? (id : ℕ) : Option SchemaColumn := g.columns.find? fun c => c.id = id

/-- `(t)-[:hasColumn|HAS_COLUMN]->(c:Column)`. -/
def columnsOf (t : SchemaVertex K) : List SchemaColumn :=
  ((ends g.table? g.column? g.hasColumn).filter fun p => p.1.id = t.id).map Prod.snd

/-! ## The query -/

/-- The `WHERE` clause. -/
def matchesAny (requested : List TableRequest) (t : SchemaVertex K) : Bool :=
  (requested.any fun req => req.accepts g.toLower t.graphTable) && t.dbExists.getD true

/-- `c.name`; nulls come last. -/
def columnName (row : SchemaVertex K × Option SchemaColumn) : WithTop String :=
  match row.2 with
  | some c => c.name
  | none => none

/-- A row for each table and column, `ORDER BY c.name`. -/
def columnRows (requested : List TableRequest) : List (SchemaVertex K × Option SchemaColumn) :=
  (g.order (optionalMatch g.columnsOf (g.tables.filter (g.matchesAny requested)))).insertionSort fun a b =>
    columnName a ≤ columnName b

def schemaRows (requested : List TableRequest) : List (SchemaKey × List (Option SchemaColumn)) :=
  (groupBy (fun row => row.1.key) Prod.snd (g.columnRows requested)).insertionSort fun a b => a.1.sortKey ≤ b.1.sortKey

def fetchTableSchemas (tables : List (SearchedTable K)) : List TableSchema :=
  let requested := tables.filterMap (requestOf U)
  if requested = [] then []
  else (g.schemaRows requested).map fun row => { row.1.heading with columns := row.2 }

/-! ## What is listed -/

/-- The table exists and answers the request for one of the candidates. -/
def Asked (tables : List (SearchedTable K)) (t : SchemaVertex K) : Prop :=
  t.dbExists.getD true = true ∧
    ∃ row ∈ tables, ∃ req, requestOf U row = some req ∧ req.accepts g.toLower t.graphTable = true

variable {U g} {requested : List TableRequest} {tables : List (SearchedTable K)} {t : SchemaVertex K}

theorem matchesAny_iff : g.matchesAny (tables.filterMap (requestOf U)) t = true ↔ g.Asked U tables t := by
  rw [matchesAny, Bool.and_eq_true, List.any_eq_true, and_comm]
  refine and_congr_right fun _ => ?_
  constructor
  · rintro ⟨req, hreq, haccepts⟩
    obtain ⟨row, hrow, hreq⟩ := List.mem_filterMap.1 hreq
    exact ⟨row, hrow, req, hreq, haccepts⟩
  · rintro ⟨row, hrow, req, hreq, haccepts⟩
    exact ⟨req, List.mem_filterMap.2 ⟨row, hrow, hreq⟩, haccepts⟩

theorem mem_columnRows {c : Option SchemaColumn} : (t, c) ∈ g.columnRows requested ↔
    (t ∈ g.tables ∧ g.matchesAny requested t = true) ∧
      ((∃ x ∈ g.columnsOf t, c = some x) ∨ g.columnsOf t = [] ∧ c = none) := by
  rw [columnRows, (List.perm_insertionSort _ _).mem_iff, (g.order_perm _).mem_iff, mem_optionalMatch, List.mem_filter]

theorem mem_schemaRows {key : SchemaKey} {columns : List (Option SchemaColumn)} :
    (key, columns) ∈ g.schemaRows requested ↔ (∃ row ∈ g.columnRows requested, row.1.key = key) ∧
      columns = ((g.columnRows requested).filter fun row => row.1.key = key).map Prod.snd := by
  rw [schemaRows, (List.perm_insertionSort _ _).mem_iff, mem_groupBy, List.mem_map]

/-- Nothing is listed where nothing is requested. -/
theorem fetchTableSchemas_eq : g.fetchTableSchemas U tables =
    (g.schemaRows (tables.filterMap (requestOf U))).map fun row => { row.1.heading with columns := row.2 } := by
  unfold fetchTableSchemas
  dsimp only
  split_ifs with hnone
  · have hrows : g.columnRows [] = [] := List.eq_nil_iff_forall_not_mem.2 fun row hrow => by
      obtain ⟨⟨-, hmatches⟩, -⟩ := mem_columnRows.1 hrow
      cases hmatches
    rw [hnone, schemaRows, hrows]
    rfl
  · rfl

/-- **The tables listed** are those asked for. -/
theorem heading_mem_iff {heading : Heading} :
    (∃ s ∈ g.fetchTableSchemas U tables, s.toHeading = heading) ↔
      ∃ t ∈ g.tables, g.Asked U tables t ∧ t.heading = heading := by
  rw [fetchTableSchemas_eq]
  constructor
  · rintro ⟨s, hs, rfl⟩
    obtain ⟨⟨key, columns⟩, hrow, rfl⟩ := List.mem_map.1 hs
    obtain ⟨⟨⟨t, c⟩, hmem, rfl⟩, -⟩ := mem_schemaRows.1 hrow
    obtain ⟨⟨ht, hmatches⟩, -⟩ := mem_columnRows.1 hmem
    exact ⟨t, ht, matchesAny_iff.1 hmatches, rfl⟩
  · rintro ⟨t, ht, hasked, rfl⟩
    obtain ⟨c, hc⟩ : ∃ c, (t, c) ∈ g.columnRows (tables.filterMap (requestOf U)) := by
      cases hcolumns : g.columnsOf t with
      | nil => exact ⟨none, mem_columnRows.2 ⟨⟨ht, matchesAny_iff.2 hasked⟩, Or.inr ⟨hcolumns, rfl⟩⟩⟩
      | cons x xs =>
        exact ⟨some x, mem_columnRows.2 ⟨⟨ht, matchesAny_iff.2 hasked⟩, Or.inl ⟨x, by simp [hcolumns], rfl⟩⟩⟩
    exact ⟨_, List.mem_map_of_mem (mem_schemaRows.2 ⟨⟨(t, c), hc, rfl⟩, rfl⟩), rfl⟩

/-- **The columns listed** under a heading are those of the tables with that heading. -/
theorem mem_columns_iff {heading : Heading} {c : SchemaColumn} :
    (∃ s ∈ g.fetchTableSchemas U tables, s.toHeading = heading ∧ some c ∈ s.columns) ↔
      ∃ t ∈ g.tables, g.Asked U tables t ∧ t.heading = heading ∧ c ∈ g.columnsOf t := by
  rw [fetchTableSchemas_eq]
  constructor
  · rintro ⟨s, hs, rfl, hc⟩
    obtain ⟨⟨key, columns⟩, hrow, rfl⟩ := List.mem_map.1 hs
    obtain ⟨-, rfl⟩ := mem_schemaRows.1 hrow
    obtain ⟨⟨t, c'⟩, hfilter, hc'⟩ := List.mem_map.1 hc
    obtain rfl : c' = some c := hc'
    obtain ⟨hmem, hkey⟩ := List.mem_filter.1 hfilter
    obtain ⟨⟨ht, hmatches⟩, hcolumn⟩ := mem_columnRows.1 hmem
    refine ⟨t, ht, matchesAny_iff.1 hmatches, ?_, ?_⟩
    · rw [SchemaVertex.heading, of_decide_eq_true hkey]
    · rcases hcolumn with ⟨x, hx, hc⟩ | ⟨-, hc⟩
      · rwa [Option.some.inj hc]
      · cases hc
  · rintro ⟨t, ht, hasked, rfl, hc⟩
    have hmem : (t, some c) ∈ g.columnRows (tables.filterMap (requestOf U)) :=
      mem_columnRows.2 ⟨⟨ht, matchesAny_iff.2 hasked⟩, Or.inl ⟨c, hc, rfl⟩⟩
    refine ⟨_, List.mem_map_of_mem (mem_schemaRows.2 ⟨⟨_, hmem, rfl⟩, rfl⟩), rfl, ?_⟩
    exact List.mem_map.2 ⟨(t, some c), List.mem_filter.2 ⟨hmem, decide_eq_true rfl⟩, rfl⟩

end QuestionGraph

end RoboMeta
