/-
  The vector search for tables (`services/neo4j_client/vector_search.py`).

  The tables nearest to an embedding are asked of a vector index and, if that
  fails, of a scan.  Both have a filter on the schema and on whether the table
  exists.  The scan takes the nearest tables that pass it; the index takes the
  nearest tables of all, and the filter comes behind.

  * `searchTablesByVector`, with the index as a parameter (`VectorStore`);
  * `search_eligible`: what is found has passed the filter, on either way;
  * `index_scan`: the tables of the index are, up to tables of equal score, the
    first of the scan, and all of them iff the filter drops no hit or every
    table that passes it is one.
-/
import Mathlib.Algebra.Field.Rat
import Mathlib.Algebra.Order.Ring.Rat
import Mathlib.Data.Prod.Lex
import Mathlib.Data.String.Basic
import RoboMeta.Lib.Nearest
import RoboMeta.ScoreGap

namespace RoboMeta

variable {K : Type}

/-! ## The graph -/

/-- What the searches read of a `Table` node. -/
structure TableVertex (K : Type) where
  id : ℕ
  schema : Option String := none
  name : Option String := none
  description : Option String := none
  analyzedDescription : Option String := none
  datasource : Option String := none
  subjectArea : Option String := none
  vector : Option (List K) := none
  dbExists : Option Bool := none
deriving DecidableEq

/-- The tables and their vector index: `cosine` is `vector.similarity.cosine`, `queryNodes` the answer of
`db.index.vector.queryNodes` or its error. -/
structure VectorStore (K : Type) where
  tables : List (TableVertex K)
  toLower : String → String
  cosine : List K → List K → K
  queryNodes : ℕ → List K → Except String (List (TableVertex K × K))

/-! ## The queries -/

section
variable (toLower : String → String) (schemas : Option (List String)) (t : TableVertex K)

def TableVertex.vectorized : Bool := t.vector.any fun v => !v.isEmpty

/-- The `WHERE` clause of both queries. -/
def TableVertex.eligible : Bool :=
  t.vectorized && t.dbExists.getD true && schemas.all fun names => toLower (t.schema.getD "") ∈ names

/-- The `RETURN` clause. -/
def TableVertex.row (score : K) : SearchedTable K where
  schema := t.schema.getD ""
  name := t.name.getD ""
  datasource := t.datasource.getD ""
  score := score
  description := t.description.getD ""
  analyzedDescription := t.analyzedDescription.getD ""
  subjectArea := t.subjectArea.getD ""

end

/-- `ORDER BY score DESC, schema ASC, name ASC`. -/
def SearchedTable.sortKey (t : SearchedTable K) : Kᵒᵈ ×ₗ String ×ₗ String :=
  toLex (OrderDual.toDual t.score, toLex (t.schema, t.name))

variable [LinearOrder K]

/-- Both queries, without the limit. -/
def orderedRows (toLower : String → String) (schemas : Option (List String)) (found : List (TableVertex K × K)) :
    List (SearchedTable K) :=
  ((found.filter fun hit => hit.1.eligible toLower schemas).map fun hit => hit.1.row hit.2).insertionSort
    fun a b => a.sortKey ≤ b.sortKey

def rowsOf (toLower : String → String) (schemas : Option (List String)) (k : ℕ) (found : List (TableVertex K × K)) :
    List (SearchedTable K) :=
  (orderedRows toLower schemas found).take k

/-- `schema_filter_lower or None`. -/
def schemaFilterLower (U : Unicode) (schemaFilter : List String) : Option (List String) :=
  let names := (schemaFilter.filter fun s => stripString s ≠ "").map fun s => U.lower (stripString s)
  if names = [] then none else some names

section
variable (U : Unicode) (store : VectorStore K) (embedding : List K)

def TableVertex.similarity (t : TableVertex K) : K := store.cosine (t.vector.getD []) embedding

/-- `cypher_scan`. -/
def scanRows (schemas : Option (List String)) (k : ℕ) : List (SearchedTable K) :=
  rowsOf store.toLower schemas k (store.tables.map fun t => (t, t.similarity store embedding))

def searchTablesByVector (k : ℤ) (schemaFilter : List String) : List (SearchedTable K) × String :=
  let limit := (max 1 k).toNat
  let schemas := schemaFilterLower U schemaFilter
  match store.queryNodes limit embedding with
  | .ok hits => (rowsOf store.toLower schemas limit hits, "text2sql_vec_index")
  | .error _ => (scanRows store embedding schemas limit, "text2sql_vec_scan_fallback")

end

/-! ## What is found -/

section
variable {toLower : String → String} {schemas : Option (List String)} {found : List (TableVertex K × K)}

theorem mem_orderedRows {row : SearchedTable K} (h : row ∈ orderedRows toLower schemas found) :
    ∃ hit ∈ found, hit.1.eligible toLower schemas ∧ row = hit.1.row hit.2 := by
  obtain ⟨hit, hhit, rfl⟩ := List.mem_map.1 ((List.perm_insertionSort _ _).mem_iff.1 h)
  exact ⟨hit, (List.mem_filter.1 hhit).1, (List.mem_filter.1 hhit).2, rfl⟩

/-- The scores fall. -/
theorem pairwise_orderedRows :
    ((orderedRows toLower schemas found).map fun t => t.score).Pairwise fun a b => b ≤ a := by
  have htotal : Std.Total fun a b : SearchedTable K => a.sortKey ≤ b.sortKey := ⟨fun _ _ => le_total _ _⟩
  have htrans : IsTrans (SearchedTable K) fun a b => a.sortKey ≤ b.sortKey := ⟨fun _ _ _ hab hbc => le_trans hab hbc⟩
  refine List.pairwise_map.2 ((List.pairwise_insertionSort _ _).imp fun {a b} hab => ?_)
  rcases Prod.Lex.le_iff.1 hab with hlt | ⟨heq, -⟩
  · exact le_of_lt (OrderDual.toDual_lt_toDual.1 hlt)
  · exact ge_of_eq (OrderDual.toDual.injective heq)

theorem perm_scores_orderedRows : ((orderedRows toLower schemas found).map fun t => t.score).Perm
    ((found.filter fun hit => hit.1.eligible toLower schemas).map Prod.snd) := by
  refine ((List.perm_insertionSort _ _).map _).trans (List.Perm.of_eq ?_)
  rw [List.map_map]
  rfl

end

section
variable (store : VectorStore K)

/-- The hits of the index are tables of the graph with their similarity. -/
def VectorStore.Sound : Prop := ∀ k embedding hits, store.queryNodes k embedding = .ok hits →
  ∀ hit ∈ hits, hit.1 ∈ store.tables ∧ hit.2 = hit.1.similarity store embedding

/-- What the search finds on either way, the filter has let pass. -/
theorem search_eligible {U : Unicode} (hsound : store.Sound) (embedding : List K) (k : ℤ) (schemaFilter : List String) :
    ∀ row ∈ (searchTablesByVector U store embedding k schemaFilter).1, ∃ t ∈ store.tables,
      t.eligible store.toLower (schemaFilterLower U schemaFilter) ∧ row = t.row (t.similarity store embedding) := by
  intro row hrow
  rw [searchTablesByVector] at hrow
  cases hquery : store.queryNodes (max 1 k).toNat embedding with
  | ok hits =>
    rw [hquery] at hrow
    obtain ⟨hit, hhit, heligible, rfl⟩ := mem_orderedRows (List.mem_of_mem_take hrow)
    obtain ⟨hmem, hscore⟩ := hsound _ _ _ hquery hit hhit
    exact ⟨hit.1, hmem, heligible, by rw [hscore]⟩
  | error e =>
    rw [hquery] at hrow
    obtain ⟨hit, hhit, heligible, rfl⟩ := mem_orderedRows (List.mem_of_mem_take hrow)
    obtain ⟨t, ht, rfl⟩ := List.mem_map.1 hhit
    exact ⟨t, ht, heligible, rfl⟩

/-! ## Index and scan -/

/-- The store without its index. -/
def VectorStore.withoutIndex (error : String) : VectorStore K := { store with queryNodes := fun _ _ => .error error }

theorem search_withoutIndex {U : Unicode} (error : String) (embedding : List K) (k : ℤ) (schemaFilter : List String) :
    (searchTablesByVector U (store.withoutIndex error) embedding k schemaFilter).1 =
      scanRows store embedding (schemaFilterLower U schemaFilter) (max 1 k).toNat := rfl

omit [LinearOrder K] in
theorem filter_fst {hits : List (TableVertex K × K)} {sim : TableVertex K → K} (p : TableVertex K → Bool)
    (h : ∀ hit ∈ hits, hit.2 = sim hit.1) :
    (hits.filter fun hit => p hit.1).map Prod.snd = ((hits.map Prod.fst).filter p).map sim := by
  rw [List.filter_map, List.map_map]
  exact List.map_congr_left fun hit hhit => h hit (List.mem_of_mem_filter hhit)

omit [LinearOrder K] in
/-- Tables that pass the filter have a vector. -/
theorem filter_vectorized (toLower : String → String) (schemas : Option (List String)) (tables : List (TableVertex K)) :
    (tables.filter TableVertex.vectorized).filter (TableVertex.eligible toLower schemas) =
      tables.filter (TableVertex.eligible toLower schemas) := by
  rw [List.filter_filter]
  refine List.filter_congr fun t _ => ?_
  simp only [TableVertex.eligible]
  cases t.vectorized <;> simp

/-- The scores that are ranked are those of the tables that pass the filter. -/
theorem perm_scores (toLower : String → String) (schemas : Option (List String)) {hits : List (TableVertex K × K)}
    {sim : TableVertex K → K} (h : ∀ hit ∈ hits, hit.2 = sim hit.1) :
    ((orderedRows toLower schemas hits).map fun t => t.score).Perm
      (((hits.map Prod.fst).filter (TableVertex.eligible toLower schemas)).map sim) :=
  filter_fst (TableVertex.eligible toLower schemas) h ▸ perm_scores_orderedRows

/-- The index finds the nearest of the tables that have a vector. -/
def VectorStore.Exact : Prop := ∀ k embedding hits, store.queryNodes k embedding = .ok hits →
  Nearest (fun t => t.similarity store embedding) k (store.tables.filter TableVertex.vectorized) (hits.map Prod.fst) ∧
    ∀ hit ∈ hits, hit.2 = hit.1.similarity store embedding

/-- The tables with an index that searches all of them. -/
def VectorStore.searched (tables : List (TableVertex K)) (toLower : String → String) (cosine : List K → List K → K) :
    VectorStore K where
  tables := tables
  toLower := toLower
  cosine := cosine
  queryNodes k embedding := .ok (((ranked (fun t => cosine (t.vector.getD []) embedding)
    (tables.filter TableVertex.vectorized)).take k).map fun t => (t, cosine (t.vector.getD []) embedding))

theorem VectorStore.exact_searched {tables : List (TableVertex K)} (hnodup : tables.Nodup) (toLower : String → String)
    (cosine : List K → List K → K) : (VectorStore.searched tables toLower cosine).Exact := by
  intro k embedding hits hquery
  cases hquery
  refine ⟨?_, fun hit hhit => ?_⟩
  swap
  · obtain ⟨t, -, rfl⟩ := List.mem_map.1 hhit
    rfl
  rw [List.map_map]
  refine cast ?_ (nearest_take_ranked (fun t : TableVertex K => cosine (t.vector.getD []) embedding) k
    (hnodup.filter TableVertex.vectorized))
  congr
  exact (List.map_id _).symm

variable {store} [DecidableEq (TableVertex K)]

/-- **Index and scan.**  The scores that the index leads to are the first of those that the scan leads to.  They are
all of them iff every hit passes the filter, or every table that passes it is a hit. -/
theorem index_scan {U : Unicode} (hexact : store.Exact) (hnodup : store.tables.Nodup) (error : String)
    {embedding : List K} {k : ℤ} {hits : List (TableVertex K × K)} (schemaFilter : List String)
    (hquery : store.queryNodes (max 1 k).toNat embedding = .ok hits) :
    let eligible := TableVertex.eligible store.toLower (schemaFilterLower U schemaFilter)
    let indexed := (searchTablesByVector U store embedding k schemaFilter).1.map fun t => t.score
    let scanned := (searchTablesByVector U (store.withoutIndex error) embedding k schemaFilter).1.map fun t => t.score
    indexed <+: scanned ∧
      (indexed = scanned ↔
        (∀ hit ∈ hits, eligible hit.1) ∨ ∀ t ∈ store.tables, eligible t → t ∈ hits.map Prod.fst) := by
  obtain ⟨hnearest, hscore⟩ := hexact _ _ _ hquery
  rw [search_withoutIndex, searchTablesByVector, hquery]
  simp only [scanRows, rowsOf, List.map_take]
  generalize (max 1 k).toNat = limit at hnearest ⊢
  generalize schemaFilterLower U schemaFilter = schemas
  generalize hfound : (store.tables.map fun t => (t, t.similarity store embedding)) = found
  have hall : ∀ hit ∈ found, hit.2 = hit.1.similarity store embedding := by
    rw [← hfound]
    simp
  have hfst : found.map Prod.fst = store.tables := by
    rw [← hfound, List.map_map]
    exact List.map_id _
  -- the scan ranks the tables with a vector that pass the filter
  have hindexed := perm_scores store.toLower schemas hscore
  have hscanned := perm_scores store.toLower schemas hall
  rw [hfst, ← filter_vectorized] at hscanned
  have hlength := hindexed.length_eq.trans (List.length_map _)
  have hlength' := hscanned.length_eq.trans (List.length_map _)
  have hle := List.length_filter_le (TableVertex.eligible store.toLower schemas) (hits.map Prod.fst)
  rw [hnearest.length, ← hlength] at hle
  have hcut := hle.trans (min_le_left _ _)
  have hinitial := hnearest.initial (hnodup.filter _) pairwise_orderedRows hindexed pairwise_orderedRows hscanned
  have hcost := hnearest.length_filter_iff (p := TableVertex.eligible store.toLower schemas) (hnodup.filter _)
  rw [← hlength, ← hlength'] at hcost
  rw [List.take_of_length_le hcut]
  have hstart := List.prefix_take_iff.2 ⟨hinitial, hcut⟩
  refine ⟨hstart, ?_⟩
  calc _ ↔ _ := ⟨fun h => congrArg List.length h, hstart.eq_of_length⟩
    _ ↔ _ := by rw [List.length_take]
    _ ↔ _ := hcost
    _ ↔ _ := by
      simp only [List.forall_mem_map, List.mem_filter, and_imp]
      refine or_congr_right (forall₂_congr fun t _ => ⟨fun h ht => h ?_ ht, fun h _ => h⟩)
      simp only [TableVertex.eligible, Bool.and_eq_true] at ht
      exact ht.1.1

end

/-! ## A hit outside the allowlist -/

/-- Of two tables that have a vector, the nearer one is not in the schema that is searched. -/
def twoSchemas : List (TableVertex ℚ) :=
  [{ id := 0, schema := some "mart", name := some "flow", vector := some [1] },
    { id := 1, schema := some "rwis", name := some "dam", vector := some [1 / 2] }]

def twoSchemaStore : VectorStore ℚ :=
  .searched twoSchemas asciiLower fun v w => v.headD 0 * w.headD 0

theorem index_scan_twoSchemas :
    ((searchTablesByVector .ascii twoSchemaStore [1] 1 ["RWIS"]).1.map fun t => t.score) <+:
        ((searchTablesByVector .ascii (twoSchemaStore.withoutIndex "no such vector schema index") [1] 1
          ["RWIS"]).1.map fun t => t.score) ∧
      (searchTablesByVector .ascii twoSchemaStore [1] 1 ["RWIS"]).1.length = 0 ∧
      (searchTablesByVector .ascii (twoSchemaStore.withoutIndex "no such vector schema index") [1] 1
        ["RWIS"]).1.length = 1 :=
  ⟨(index_scan (VectorStore.exact_searched (by decide +kernel) _ _) (by decide +kernel) _ ["RWIS"] rfl).1,
    by decide +kernel, by decide +kernel⟩

end RoboMeta
