/-
  The relations that the join graph is built of
  (`services/neo4j_client/vector_search.py`).

  Three queries over the graph answer which of the named tables are related: by
  a foreign key between two of their columns, by a relationship between the
  tables themselves, or by columns of one name, of which the longest is taken.

  * `PoolGraph.fetches` are the three fetches, their limits included;
  * `Witnessed`: what a bridge of the join graph says is so in the graph;
  * `joinGraph_witnessed`: every bridge is witnessed;
  * `fetchesAmong_ontology`, `fetchesAmong_convention`: the later fetches answer
    for the tables that they were asked for;
  * `joinGraph_alone`: below the limits, tables that end up alone are not related.
-/
import Mathlib.Data.Prod.Lex
import Mathlib.Data.String.Basic
import Mathlib.Order.WithBot
import RoboMeta.MetaGraph
import RoboMeta.RecordedBridges

namespace RoboMeta

/-! ## Names without blanks -/

theorem stripString_tableFqn {schema name fqn : String} (h : tableFqn schema name = some fqn) :
    stripString fqn = fqn ∧ fqn ≠ "" := by
  unfold tableFqn at h
  split_ifs at h with hname
  have hn : Trimmed (stripString name).toList := trimmed_stripString name
  have hname' : (stripString name).toList ≠ [] := fun hnil => hname (String.toList_eq_nil_iff.1 hnil)
  obtain rfl := Option.some.inj h
  unfold fqnOf
  split_ifs with hschema
  · refine ⟨?_, hname⟩
    rw [stripString, hn.strip_eq, String.ofList_toList]
  · have hs : Trimmed (stripString schema).toList := trimmed_stripString schema
    have hschema' : (stripString schema).toList ≠ [] := fun hnil => hschema (String.toList_eq_nil_iff.1 hnil)
    have hlist : (stripString schema ++ "." ++ stripString name).toList =
        (stripString schema).toList ++ '.' :: (stripString name).toList := by simp
    constructor
    · rw [stripString, hlist, (hs.append_cons hn hschema' hname' '.').strip_eq, ← hlist, String.ofList_toList]
    · intro hempty
      rw [hempty] at hlist
      simp at hlist

/-! ## The graph -/

/-- What the queries read of a `Table` node. -/
structure PoolTable where
  id : ℕ
  schema : Option String := none
  name : Option String := none
deriving DecidableEq, Repr

/-- A relationship between two tables. -/
structure TableRelation (K : Type) extends GraphEdge where
  relType : String
  confidence : Option K := none

structure PoolGraph (K : Type) where
  toLower : String → String
  tables : List PoolTable
  columns : List ColumnNode
  /-- `hasColumn|HAS_COLUMN` from a table. -/
  hasColumn : List GraphEdge
  /-- `fkTo|FK_TO_COLUMN` from a column. -/
  fkTo : List GraphEdge
  relations : List (TableRelation K)
  /-- The order in which rows come that a query does not sort. -/
  order {α : Type} : List α → List α
  order_perm : ∀ {α : Type} (rows : List α), (order rows).Perm rows

/-- The limits and lists of the settings. -/
structure FetchSettings where
  fkLimit : ℕ
  ontologyLimit : ℕ
  conventionLimit : ℕ
  ontologyRelTypes : List String
  minColLen : ℕ
  excludes : List String

/-- `fqn1`, `fqn2`. -/
def PoolTable.fqn (toLower : String → String) (t : PoolTable) : Option String :=
  t.name.map fun name => match nonempty t.schema with
    | some schema => toLower schema ++ "." ++ toLower name
    | none => toLower name

/-- The name that a row of the table leads to. -/
def PoolTable.spelling (t : PoolTable) : String := fqnOf (t.schema.getD "") (t.name.getD "")

/-- The key of a table in the join graph. -/
def PoolTable.key (U : Unicode) (t : PoolTable) : String := U.lower t.spelling

namespace PoolGraph

variable {K : Type} (U : Unicode) (g : PoolGraph K) (s : FetchSettings)

def table? (id : ℕ) : Option PoolTable := g.tables.find? fun t => t.id = id

def column? (id : ℕ) : Option ColumnNode := g.columns.find? fun c => c.id = id

/-- `fqn IN $fqns`. -/
def asked (names : List String) (t : PoolTable) : Bool := (t.fqn g.toLower).any fun fqn => fqn ∈ names

/-! ## Foreign keys -/

/-- A foreign key between the columns of two tables. -/
structure FkMatch where
  t1 : PoolTable
  c1 : ColumnNode
  c2 : ColumnNode
  t2 : PoolTable

/-- `(t1)-->(c1)-[fk]->(c2)<--(t2)`; no relationship is taken twice. -/
def fkMatches : List FkMatch :=
  g.hasColumn.flatMap fun r =>
    (g.fkTo.filter fun fk => fk.source = r.target).flatMap fun fk =>
      (g.hasColumn.filter fun r' => r'.target = fk.target ∧ r' ≠ r).filterMap fun r' => do
        let t1 ← g.table? r.source
        let c1 ← g.column? r.target
        let c2 ← g.column? fk.target
        let t2 ← g.table? r'.source
        return ⟨t1, c1, c2, t2⟩

/-- `ORDER BY from_schema, from_table, to_schema, to_table`; nulls come last. -/
def FkMatch.sortKey (m : FkMatch) : WithTop String ×ₗ WithTop String ×ₗ WithTop String ×ₗ WithTop String :=
  toLex (m.t1.schema, toLex (m.t1.name, toLex (m.t2.schema, m.t2.name)))

def FkMatch.rel (m : FkMatch) : Rel K where
  fromSchema := m.t1.schema
  fromTable := m.t1.name
  toSchema := m.t2.schema
  toTable := m.t2.name

/-- `table_fqns_l`. -/
def askedNames (tableFqns : List String) : List String :=
  (tableFqns.filter fun x => stripString x ≠ "").map fun x => U.lower (stripString x)

/-- The rows in front of the limit. -/
def fkRows (names : List String) : List FkMatch :=
  g.fkMatches.filter fun m => g.asked names m.t1 && g.asked names m.t2

def fetchFkRelationships (tableFqns : List String) : List (Rel K) :=
  if tableFqns = [] then []
  else
    let names := askedNames U tableFqns
    (((g.fkRows names).insertionSort fun m m' => m.sortKey ≤ m'.sortKey).take s.fkLimit).map FkMatch.rel

/-! ## Relationships of tables -/

/-- `(t1:Table)-[r]-(t2:Table)`: a relationship is matched from either end. -/
def relationMatches : List (PoolTable × PoolTable × TableRelation K) :=
  g.relations.flatMap fun r => match g.table? r.source, g.table? r.target with
    | some a, some b => [(a, b, r), (b, a, r)]
    | _, _ => []

/-- Both names are asked for, and in order. -/
def askedPair (names : List String) (t1 t2 : PoolTable) : Bool :=
  g.asked names t1 && g.asked names t2 && match t1.fqn g.toLower, t2.fqn g.toLower with
    | some fqn1, some fqn2 => fqn1 < fqn2
    | _, _ => false

def relationRel [Field K] (m : PoolTable × PoolTable × TableRelation K) : Rel K where
  fromSchema := some (m.1.schema.getD "")
  fromTable := some (m.1.name.getD "")
  toSchema := some (m.2.1.schema.getD "")
  toTable := some (m.2.1.name.getD "")
  relType := some m.2.2.relType
  confidence := some (m.2.2.confidence.getD 0.8)

/-- The rows in front of the limit. -/
def ontologyRows (names : List String) : List (PoolTable × PoolTable × TableRelation K) :=
  g.relationMatches.filter fun m => m.2.2.relType ∈ s.ontologyRelTypes && g.askedPair names m.1 m.2.1

def fetchOntologyRelationships [Field K] (tableFqns : List String) : List (Rel K) :=
  if tableFqns = [] ∨ s.ontologyRelTypes = [] then []
  else ((g.order (g.ontologyRows s (tableFqns.map U.lower))).take s.ontologyLimit).map relationRel

/-! ## Shared columns -/

/-- `(t)-[:hasColumn|HAS_COLUMN]->(c:Column)`. -/
def columnsOf (t : PoolTable) : List ColumnNode :=
  ((ends g.table? g.column? g.hasColumn).filter fun p => p.1.id = t.id).map Prod.snd

/-- The `WHERE` clause on two columns. -/
def admits (c1 c2 : ColumnNode) : Bool :=
  match c1.name, c2.name with
  | some n1, some n2 => g.toLower n1 = g.toLower n2 ∧ s.minColLen ≤ n1.length ∧ g.toLower n1 ∉ s.excludes
  | _, _ => false

def sharedColumns (t1 t2 : PoolTable) : List (ColumnNode × ColumnNode) :=
  ((g.columnsOf t1).flatMap fun c1 => (g.columnsOf t2).map fun c2 => (c1, c2)).filter fun p => g.admits s p.1 p.2

/-- `ORDER BY size(join_column) DESC` and `collect(…)[0]`. -/
def longestShared (t1 t2 : PoolTable) : Option (ColumnNode × ColumnNode) :=
  (ranked (fun p : ColumnNode × ColumnNode => (p.1.name.getD "").length) (g.order (g.sharedColumns s t1 t2))).head?

def conventionRel (t1 t2 : PoolTable) (p : ColumnNode × ColumnNode) : Rel K where
  fromSchema := some (t1.schema.getD "")
  fromTable := some (t1.name.getD "")
  toSchema := some (t2.schema.getD "")
  toTable := some (t2.name.getD "")
  joinColumn := p.1.name
  fromDtype := some (p.1.dtype.getD "")
  toDtype := some (p.2.dtype.getD "")

def pairs : List (PoolTable × PoolTable) := g.tables.flatMap fun t1 => g.tables.map fun t2 => (t1, t2)

/-- The rows in front of the limit, one for each pair of tables. -/
def conventionRows (names : List String) : List (Rel K) :=
  (g.pairs.filter fun p => g.askedPair names p.1 p.2).filterMap fun p =>
    (g.longestShared s p.1 p.2).map (conventionRel p.1 p.2)

/-- `_is_mart_fact_table`. -/
def isMartFactTable (tableName : String) : Bool := "fct_".toList.isPrefixOf (U.lower tableName).toList

def fetchConventionJoins (tableFqns : List String) : List (Rel K) :=
  if tableFqns.length < 2 then []
  else ((g.order (g.conventionRows s (tableFqns.map U.lower))).take s.conventionLimit).filter fun r =>
    !(isMartFactTable U (r.fromTable.getD "") && isMartFactTable U (r.toTable.getD ""))

def fetches [Field K] : Fetches K where
  fkRelationships := g.fetchFkRelationships U s
  ontologyRelationships := g.fetchOntologyRelationships U s
  conventionJoins := g.fetchConventionJoins U s

/-! ## What the fetches find -/

variable {g s}

theorem mem_of_table? {id : ℕ} {t : PoolTable} (h : g.table? id = some t) : t ∈ g.tables ∧ t.id = id :=
  ⟨List.mem_of_find?_eq_some h, by simpa using List.find?_some h⟩

theorem mem_fkMatches {m : FkMatch} : m ∈ g.fkMatches ↔
    ∃ r ∈ g.hasColumn, ∃ fk ∈ g.fkTo, ∃ r' ∈ g.hasColumn, fk.source = r.target ∧ fk.target = r'.target ∧ r' ≠ r ∧
      g.table? r.source = some m.t1 ∧ g.column? r.target = some m.c1 ∧
      g.column? fk.target = some m.c2 ∧ g.table? r'.source = some m.t2 := by
  obtain ⟨t1, c1, c2, t2⟩ := m
  simp only [fkMatches, List.mem_flatMap, List.mem_filter, decide_eq_true_eq, List.mem_filterMap,
    Option.bind_eq_bind, Option.bind_eq_some_iff, Option.pure_def, Option.some.injEq, FkMatch.mk.injEq]
  constructor
  · rintro ⟨r, hr, fk, ⟨hfk, hsource⟩, r', ⟨hr', htarget, hne⟩, a, ha, b, hb, c, hc, d, hd, rfl, rfl, rfl, rfl⟩
    exact ⟨r, hr, fk, hfk, r', hr', hsource, htarget.symm, hne, ha, hb, hc, hd⟩
  · rintro ⟨r, hr, fk, hfk, r', hr', hsource, htarget, hne, ha, hb, hc, hd⟩
    exact ⟨r, hr, fk, ⟨hfk, hsource⟩, r', ⟨hr', htarget.symm, hne⟩, t1, ha, c1, hb, c2, hc, t2, hd, rfl, rfl, rfl, rfl⟩

theorem mem_relationMatches {t1 t2 : PoolTable} {r : TableRelation K} : (t1, t2, r) ∈ g.relationMatches ↔
    r ∈ g.relations ∧ (g.table? r.source = some t1 ∧ g.table? r.target = some t2 ∨
      g.table? r.source = some t2 ∧ g.table? r.target = some t1) := by
  unfold relationMatches
  rw [List.mem_flatMap]
  constructor
  · rintro ⟨r', hr', hmem⟩
    split at hmem
    · rename_i a b ha hb
      simp only [List.mem_cons, Prod.mk.injEq, List.not_mem_nil, or_false] at hmem
      rcases hmem with ⟨rfl, rfl, rfl⟩ | ⟨rfl, rfl, rfl⟩
      · exact ⟨hr', Or.inl ⟨ha, hb⟩⟩
      · exact ⟨hr', Or.inr ⟨ha, hb⟩⟩
    · exact absurd hmem List.not_mem_nil
  · rintro ⟨hr, ⟨ha, hb⟩ | ⟨ha, hb⟩⟩
    · exact ⟨r, hr, by simp [ha, hb]⟩
    · exact ⟨r, hr, by simp [ha, hb]⟩

theorem mem_relationMatches_swap {t1 t2 : PoolTable} {r : TableRelation K} (h : (t1, t2, r) ∈ g.relationMatches) :
    (t2, t1, r) ∈ g.relationMatches := by
  rw [mem_relationMatches] at h ⊢
  exact ⟨h.1, h.2.symm⟩

theorem mem_pairs {t1 t2 : PoolTable} : (t1, t2) ∈ g.pairs ↔ t1 ∈ g.tables ∧ t2 ∈ g.tables := by
  simp [pairs]

/-- The longest shared column is shared, and no other one is longer. -/
theorem longestShared_spec {t1 t2 : PoolTable} {p : ColumnNode × ColumnNode} (h : g.longestShared s t1 t2 = some p) :
    p ∈ g.sharedColumns s t1 t2 ∧
      ∀ q ∈ g.sharedColumns s t1 t2, (q.1.name.getD "").length ≤ (p.1.name.getD "").length := by
  obtain ⟨rest, hranked⟩ := List.head?_eq_some_iff.1 h
  obtain ⟨hp, hle⟩ := le_of_ranked_eq_cons hranked
  have hmem {q : ColumnNode × ColumnNode} : q ∈ g.order (g.sharedColumns s t1 t2) ↔ q ∈ g.sharedColumns s t1 t2 :=
    (g.order_perm _).mem_iff
  exact ⟨hmem.1 hp, fun q hq => hle q (hmem.2 hq)⟩

theorem exists_longestShared {t1 t2 : PoolTable} (h : g.sharedColumns s t1 t2 ≠ []) :
    ∃ p, g.longestShared s t1 t2 = some p := by
  have hranked : ranked (fun p : ColumnNode × ColumnNode => (p.1.name.getD "").length)
      (g.order (g.sharedColumns s t1 t2)) ≠ [] := by
    intro hnil
    have hperm := g.order_perm (g.sharedColumns s t1 t2)
    rw [ranked_eq_nil.1 hnil] at hperm
    exact h hperm.nil_eq.symm
  exact ⟨_, List.head?_eq_some_head hranked⟩

theorem mem_fetchFkRelationships {tableFqns : List String} {rel : Rel K}
    (h : rel ∈ g.fetchFkRelationships U s tableFqns) : ∃ m ∈ g.fkRows (askedNames U tableFqns), rel = m.rel := by
  unfold fetchFkRelationships at h
  split_ifs at h
  · exact absurd h List.not_mem_nil
  · obtain ⟨m, hm, rfl⟩ := List.mem_map.1 h
    exact ⟨m, (List.perm_insertionSort _ _).mem_iff.1 (List.mem_of_mem_take hm), rfl⟩

theorem mem_conventionRows {names : List String} {rel : Rel K} : rel ∈ g.conventionRows s names ↔
    ∃ t1 ∈ g.tables, ∃ t2 ∈ g.tables, g.askedPair names t1 t2 = true ∧
      ∃ p, g.longestShared s t1 t2 = some p ∧ rel = conventionRel t1 t2 p := by
  unfold conventionRows
  constructor
  · intro h
    obtain ⟨⟨t1, t2⟩, hpair, hlongest⟩ := List.mem_filterMap.1 h
    obtain ⟨hmem, hasked⟩ := List.mem_filter.1 hpair
    obtain ⟨p, hp, rfl⟩ := Option.map_eq_some_iff.1 hlongest
    exact ⟨t1, (mem_pairs.1 hmem).1, t2, (mem_pairs.1 hmem).2, hasked, p, hp, rfl⟩
  · rintro ⟨t1, ht1, t2, ht2, hasked, p, hp, rfl⟩
    exact List.mem_filterMap.2 ⟨(t1, t2), List.mem_filter.2 ⟨mem_pairs.2 ⟨ht1, ht2⟩, hasked⟩, by rw [hp]; rfl⟩

theorem mem_fetchConventionJoins {tableFqns : List String} {rel : Rel K}
    (h : rel ∈ g.fetchConventionJoins U s tableFqns) : rel ∈ g.conventionRows s (tableFqns.map U.lower) ∧
      ¬ (isMartFactTable U (rel.fromTable.getD "") = true ∧ isMartFactTable U (rel.toTable.getD "") = true) := by
  unfold fetchConventionJoins at h
  split_ifs at h
  · exact absurd h List.not_mem_nil
  · obtain ⟨hrel, hmart⟩ := List.mem_filter.1 h
    exact ⟨(g.order_perm _).mem_iff.1 (List.mem_of_mem_take hrel), fun hboth => by simp [hboth.1, hboth.2] at hmart⟩

/-! ## Bridges with a witness -/

section
variable (g s) [Field K] (settings : JoinSettings K)

/-- What a bridge stands for in the graph. -/
inductive Witnessed : RecordedBridge K → Prop
  | fk {m : FkMatch} : m ∈ g.fkMatches → Witnessed (bridgeOf U settings .fk m.rel)
  | ontology {t1 t2 : PoolTable} {r : TableRelation K} : (t1, t2, r) ∈ g.relationMatches →
      r.relType ∈ s.ontologyRelTypes → Witnessed (bridgeOf U settings .ontology (relationRel (t1, t2, r)))
  | convention {t1 t2 : PoolTable} {p : ColumnNode × ColumnNode} : t1 ∈ g.tables → t2 ∈ g.tables →
      p ∈ g.sharedColumns s t1 t2 →
      (∀ q ∈ g.sharedColumns s t1 t2, (q.1.name.getD "").length ≤ (p.1.name.getD "").length) →
      ¬ (isMartFactTable U (t1.name.getD "") = true ∧ isMartFactTable U (t2.name.getD "") = true) →
      Witnessed (bridgeOf U settings .convention (conventionRel t1 t2 p))

variable {g s}

theorem mem_fetchOntologyRelationships {tableFqns : List String} {rel : Rel K}
    (h : rel ∈ g.fetchOntologyRelationships U s tableFqns) :
    ∃ m ∈ g.ontologyRows s (tableFqns.map U.lower), rel = relationRel m := by
  unfold fetchOntologyRelationships at h
  split_ifs at h
  · exact absurd h List.not_mem_nil
  · obtain ⟨m, hm, rfl⟩ := List.mem_map.1 h
    exact ⟨m, (g.order_perm _).mem_iff.1 (List.mem_of_mem_take hm), rfl⟩

theorem witnessed_of_stages {fuel : ℕ} {joinPool : List (TableCandidate K)} {g₁ g₂ jg : JoinGraph K}
    (h : JoinGraph.Stages U settings fuel (g.fetches U s) joinPool g₁ g₂ jg) :
    ∀ b ∈ jg.bridges, g.Witnessed U s settings b := by
  intro b hb
  rcases (h.mem_convention b).1 hb with hb | ⟨-, -, rel, hrel, -, rfl⟩
  · rcases (h.mem_ontology b).1 hb with hb | ⟨-, -, rel, hrel, -, rfl⟩
    · obtain ⟨-, rel, hrel, -, rfl⟩ := (h.mem_fk b).1 hb
      obtain ⟨m, hm, rfl⟩ := mem_fetchFkRelationships U hrel
      exact .fk (List.mem_filter.1 hm).1
    · obtain ⟨⟨t1, t2, r⟩, hm, rfl⟩ := mem_fetchOntologyRelationships U hrel
      obtain ⟨hmem, hcond⟩ := List.mem_filter.1 hm
      exact .ontology hmem (of_decide_eq_true (Bool.and_eq_true_iff.1 hcond).1)
  · obtain ⟨hrow, hmart⟩ := mem_fetchConventionJoins U hrel
    obtain ⟨t1, ht1, t2, ht2, -, p, hp, rfl⟩ := mem_conventionRows.1 hrow
    obtain ⟨hshared, hlongest⟩ := longestShared_spec hp
    exact .convention ht1 ht2 hshared hlongest hmart

/-- **Nothing is joined without reason.**  A bridge of the join graph stands for a
    foreign key, for a relationship of an allowed type, or for the longest of the
    columns that two tables share, which are not both facts of a mart. -/
theorem joinGraph_witnessed {fuel : ℕ} (joinPool : List (TableCandidate K))
    (hfuel : (poolKeys U joinPool).length ≤ fuel) :
    ∃ jg, joinGraph U fuel settings (g.fetches U s) joinPool = some jg ∧
      ∀ b ∈ jg.bridges, g.Witnessed U s settings b := by
  obtain ⟨g₁, g₂, jg, hstages⟩ := JoinGraph.exists_stages U settings (g.fetches U s) joinPool hfuel
  exact ⟨jg, hstages.joinGraph_eq, witnessed_of_stages U settings hstages⟩

end

/-! ## Tables that are left alone -/

variable (g s)

/-- `toLower` and Python's lower case agree on the names of the tables. -/
def Folds : Prop := ∀ t ∈ g.tables, t.name ≠ none → t.fqn g.toLower = some (t.key U)

/-- The limits leave out no row, whatever tables of the pool are asked for. -/
structure Unlimited (names : List String) : Prop where
  fk : (g.fkRows names).length ≤ s.fkLimit
  ontology : (g.ontologyRows s names).length ≤ s.ontologyLimit
  convention : (g.conventionRows s names).length ≤ s.conventionLimit

variable {g s U} {names names' : List String} {t t1 t2 : PoolTable}

theorem asked_iff (hfold : g.Folds U) (ht : t ∈ g.tables) :
    g.asked names t = true ↔ t.name ≠ none ∧ t.key U ∈ names := by
  unfold asked
  by_cases hname : t.name = none
  · simp [PoolTable.fqn, hname]
  · simp [hfold t ht hname, hname]

theorem askedPair_iff (hfold : g.Folds U) (ht1 : t1 ∈ g.tables) (ht2 : t2 ∈ g.tables) :
    g.askedPair names t1 t2 = true ↔ t1.name ≠ none ∧ t2.name ≠ none ∧ t1.key U ∈ names ∧ t2.key U ∈ names ∧
      t1.key U < t2.key U := by
  unfold askedPair
  rw [Bool.and_eq_true_iff, Bool.and_eq_true_iff, asked_iff hfold ht1, asked_iff hfold ht2]
  by_cases hname1 : t1.name = none
  · simp [hname1]
  by_cases hname2 : t2.name = none
  · simp [hname2]
  rw [hfold t1 ht1 hname1, hfold t2 ht2 hname2]
  simp [hname1, hname2, and_assoc]

theorem askedPair_mono (h : names ⊆ names') (hasked : g.askedPair names t1 t2 = true) :
    g.askedPair names' t1 t2 = true := by
  have hone {t : PoolTable} (ht : g.asked names t = true) : g.asked names' t = true := by
    obtain ⟨fqn, hfqn, hmem⟩ := (Option.any_eq_true _ _).1 ht
    exact (Option.any_eq_true _ _).2 ⟨fqn, hfqn, decide_eq_true (h (of_decide_eq_true hmem))⟩
  unfold askedPair at hasked ⊢
  rw [Bool.and_eq_true_iff, Bool.and_eq_true_iff] at hasked ⊢
  exact ⟨⟨hone hasked.1.1, hone hasked.1.2⟩, hasked.2⟩

theorem Unlimited.mono (hlimits : g.Unlimited s names') (h : names ⊆ names') :
    (g.ontologyRows s names).length ≤ s.ontologyLimit ∧ (g.conventionRows s names).length ≤ s.conventionLimit := by
  constructor
  · refine le_trans (List.Sublist.length_le (List.monotone_filter_right _ fun m hm => ?_)) hlimits.ontology
    rw [Bool.and_eq_true_iff] at hm ⊢
    exact ⟨hm.1, askedPair_mono h hm.2⟩
  · exact le_trans (List.Sublist.length_le ((List.monotone_filter_right _ fun p hp =>
      askedPair_mono h hp).filterMap _)) hlimits.convention

section
variable [Field K] (hfold : g.Folds U) {tableFqns : List String}
include hfold

/-- The later fetches answer for the tables that they were asked for. -/
theorem fetchesAmong_ontology (s : FetchSettings) : JoinGraph.FetchesAmong U (g.fetchOntologyRelationships U s) := by
  intro fqns rel hrel
  obtain ⟨⟨t1, t2, r⟩, hm, rfl⟩ := mem_fetchOntologyRelationships U hrel
  obtain ⟨hmem, hcond⟩ := List.mem_filter.1 hm
  obtain ⟨ht1, ht2⟩ : t1 ∈ g.tables ∧ t2 ∈ g.tables := by
    rcases (mem_relationMatches.1 hmem).2 with ⟨h1, h2⟩ | ⟨h2, h1⟩ <;>
      exact ⟨(mem_of_table? h1).1, (mem_of_table? h2).1⟩
  obtain ⟨-, -, hkey1, hkey2, -⟩ := (askedPair_iff hfold ht1 ht2).1 (Bool.and_eq_true_iff.1 hcond).2
  exact ⟨hkey1, hkey2⟩

omit [Field K] in
theorem fetchesAmong_convention (s : FetchSettings) : JoinGraph.FetchesAmong U (g.fetchConventionJoins U s) := by
  intro fqns rel hrel
  obtain ⟨t1, ht1, t2, ht2, hasked, p, -, rfl⟩ := mem_conventionRows.1 (mem_fetchConventionJoins U hrel).1
  obtain ⟨-, -, hkey1, hkey2, -⟩ := (askedPair_iff hfold ht1 ht2).1 hasked
  exact ⟨hkey1, hkey2⟩

omit [Field K] in
theorem exists_fetchFk {joinPool : List (TableCandidate K)} {m : FkMatch} (hm : m ∈ g.fkMatches)
    (hlimit : (g.fkRows ((RoboMeta.tableFqns joinPool).map U.lower)).length ≤ s.fkLimit)
    (hname1 : m.t1.name ≠ none) (hname2 : m.t2.name ≠ none)
    (h1 : m.t1.key U ∈ (RoboMeta.tableFqns joinPool).map U.lower)
    (h2 : m.t2.key U ∈ (RoboMeta.tableFqns joinPool).map U.lower) :
    m.rel ∈ g.fetchFkRelationships U s (RoboMeta.tableFqns joinPool) := by
  have htrim : ∀ fqn ∈ RoboMeta.tableFqns joinPool, stripString fqn = fqn ∧ fqn ≠ "" := by
    intro fqn hfqn
    obtain ⟨t, -, ht⟩ := List.mem_filterMap.1 hfqn
    exact stripString_tableFqn ht
  have hnames : askedNames U (RoboMeta.tableFqns joinPool) = (RoboMeta.tableFqns joinPool).map U.lower := by
    unfold askedNames
    rw [List.filter_eq_self.2 fun fqn hfqn => by simp [(htrim fqn hfqn).1, (htrim fqn hfqn).2]]
    exact List.map_congr_left fun fqn hfqn => by rw [(htrim fqn hfqn).1]
  have hne : RoboMeta.tableFqns joinPool ≠ [] := by
    rintro hnil
    rw [hnil] at h1
    exact List.not_mem_nil h1
  unfold fetchFkRelationships
  rw [if_neg hne, hnames]
  refine List.mem_map_of_mem ?_
  rw [List.take_of_length_le (by rwa [List.length_insertionSort]), (List.perm_insertionSort _ _).mem_iff]
  obtain ⟨r, -, fk, -, r', -, -, -, -, ht1, -, -, ht2⟩ := mem_fkMatches.1 hm
  refine List.mem_filter.2 ⟨hm, ?_⟩
  rw [Bool.and_eq_true_iff, asked_iff hfold (mem_of_table? ht1).1, asked_iff hfold (mem_of_table? ht2).1]
  exact ⟨⟨hname1, h1⟩, hname2, h2⟩

theorem exists_fetchOntology {t1 t2 : PoolTable} {r : TableRelation K} (hm : (t1, t2, r) ∈ g.relationMatches)
    (htype : r.relType ∈ s.ontologyRelTypes)
    (hlimit : (g.ontologyRows s (tableFqns.map U.lower)).length ≤ s.ontologyLimit)
    (hname1 : t1.name ≠ none) (hname2 : t2.name ≠ none) (h1 : t1.key U ∈ tableFqns.map U.lower)
    (h2 : t2.key U ∈ tableFqns.map U.lower) (hlt : t1.key U < t2.key U) :
    relationRel (t1, t2, r) ∈ g.fetchOntologyRelationships U s tableFqns := by
  obtain ⟨ht1, ht2⟩ : t1 ∈ g.tables ∧ t2 ∈ g.tables := by
    rcases (mem_relationMatches.1 hm).2 with ⟨h1, h2⟩ | ⟨h2, h1⟩ <;>
      exact ⟨(mem_of_table? h1).1, (mem_of_table? h2).1⟩
  have hne : ¬ (tableFqns = [] ∨ s.ontologyRelTypes = []) := by
    rintro (rfl | hnil)
    · exact List.not_mem_nil h1
    · rw [hnil] at htype
      exact List.not_mem_nil htype
  unfold fetchOntologyRelationships
  rw [if_neg hne]
  refine List.mem_map_of_mem ?_
  rw [List.take_of_length_le (by rwa [(g.order_perm _).length_eq]), (g.order_perm _).mem_iff]
  refine List.mem_filter.2 ⟨hm, ?_⟩
  rw [Bool.and_eq_true_iff, askedPair_iff hfold ht1 ht2]
  exact ⟨decide_eq_true htype, hname1, hname2, h1, h2, hlt⟩

omit [Field K] in
theorem exists_fetchConvention {t1 t2 : PoolTable} (ht1 : t1 ∈ g.tables) (ht2 : t2 ∈ g.tables)
    (hshared : g.sharedColumns s t1 t2 ≠ [])
    (hmart : ¬ (isMartFactTable U (t1.name.getD "") = true ∧ isMartFactTable U (t2.name.getD "") = true))
    (hlimit : (g.conventionRows s (tableFqns.map U.lower)).length ≤ s.conventionLimit)
    (hname1 : t1.name ≠ none) (hname2 : t2.name ≠ none) (h1 : t1.key U ∈ tableFqns.map U.lower)
    (h2 : t2.key U ∈ tableFqns.map U.lower) (hlt : t1.key U < t2.key U) (htwo : 2 ≤ tableFqns.length) :
    ∃ p, conventionRel t1 t2 p ∈ g.fetchConventionJoins U s tableFqns := by
  obtain ⟨p, hp⟩ := exists_longestShared hshared
  refine ⟨p, ?_⟩
  unfold fetchConventionJoins
  rw [if_neg (by omega)]
  refine List.mem_filter.2 ⟨?_, ?_⟩
  · rw [List.take_of_length_le (by rwa [(g.order_perm _).length_eq]), (g.order_perm _).mem_iff]
    exact mem_conventionRows.2
      ⟨t1, ht1, t2, ht2, (askedPair_iff hfold ht1 ht2).2 ⟨hname1, hname2, h1, h2, hlt⟩, p, hp, rfl⟩
  · rw [Bool.not_eq_true', ← Bool.not_eq_true, Bool.and_eq_true_iff]
    exact hmart

end

variable (g s U)

/-- No stage that runs has a reason to join the tables. -/
structure Unrelated (settings : JoinSettings K) (t1 t2 : PoolTable) : Prop where
  fk : ∀ m ∈ g.fkMatches, ¬ (m.t1 = t1 ∧ m.t2 = t2)
  ontology : settings.joinOntologyEnabled = true → ∀ r, (t1, t2, r) ∈ g.relationMatches →
    r.relType ∉ s.ontologyRelTypes
  convention : settings.joinConventionEnabled = true → t1.key U < t2.key U → g.sharedColumns s t1 t2 ≠ [] →
    isMartFactTable U (t1.name.getD "") = true ∧ isMartFactTable U (t2.name.getD "") = true

variable {g s U}

/-- **Nothing is overlooked.**  Below the limits, two tables of the pool that end up
    alone have no foreign key, no relationship and no column in common that a stage
    would have joined them by. -/
theorem joinGraph_alone [Field K] (settings : JoinSettings K) {fuel : ℕ} (joinPool : List (TableCandidate K))
    (hfold : g.Folds U) (hlimits : g.Unlimited s ((tableFqns joinPool).map U.lower))
    (hfuel : (poolKeys U joinPool).length ≤ fuel) :
    ∃ jg, joinGraph U fuel settings (g.fetches U s) joinPool = some jg ∧
      ∀ t1 ∈ g.tables, ∀ t2 ∈ g.tables, t1.name ≠ none → t2.name ≠ none → t1.key U ≠ t2.key U →
        t1.key U ∈ poolKeys U joinPool → t2.key U ∈ poolKeys U joinPool →
        jg.Isolated (poolKeys U joinPool) (t1.key U) → jg.Isolated (poolKeys U joinPool) (t2.key U) →
        g.Unrelated U s settings t1 t2 := by
  obtain ⟨g₁, g₂, jg, hstages⟩ := JoinGraph.exists_stages U settings (g.fetches U s) joinPool hfuel
  refine ⟨jg, hstages.joinGraph_eq, fun t1 ht1 t2 ht2 hname1 hname2 hne hkey1 hkey2 halone1 halone2 => ?_⟩
  have hnames {t : PoolTable} : t.key U ∈ poolKeys U joinPool ↔ t.key U ∈ (tableFqns joinPool).map U.lower := by
    rw [List.mem_map]
    exact mem_keys_candMap
  have hsub₂ : ∀ b ∈ g₂.bridges, b ∈ jg.bridges := fun b hb => (hstages.mem_convention b).2 (Or.inl hb)
  have hsub₁ : ∀ b ∈ g₁.bridges, b ∈ jg.bridges := fun b hb => hsub₂ b ((hstages.mem_ontology b).2 (Or.inl hb))
  have hnone (b : RecordedBridge K) (hb : b ∈ jg.bridges) : ¬ b.Joins (t1.key U) (t2.key U) := fun hjoins =>
    hne (hstages.partitioned.not_joins halone1 hb hjoins).symm
  have hasked {g' : JoinGraph K} (hsub : ∀ b ∈ g'.bridges, b ∈ jg.bridges) :
      t1.key U ∈ (g'.alone U (poolKeys U joinPool) (tableFqns joinPool)).map U.lower ∧
        t2.key U ∈ (g'.alone U (poolKeys U joinPool) (tableFqns joinPool)).map U.lower :=
    ⟨(JoinGraph.mem_map_alone U).2 ⟨hnames.1 hkey1, halone1.mono hsub⟩,
      (JoinGraph.mem_map_alone U).2 ⟨hnames.1 hkey2, halone2.mono hsub⟩⟩
  have hsubset (g' : JoinGraph K) : (g'.alone U (poolKeys U joinPool) (tableFqns joinPool)).map U.lower ⊆
      (tableFqns joinPool).map U.lower := List.map_subset _ fun fqn hfqn => ((JoinGraph.mem_alone U).1 hfqn).1
  refine ⟨?_, ?_, ?_⟩
  · rintro m hm ⟨rfl, rfl⟩
    have hrel := exists_fetchFk hfold hm hlimits.fk hname1 hname2 (hnames.1 hkey1) (hnames.1 hkey2)
    have hpool : tableFqns joinPool ≠ [] := by
      intro hnil
      have hkey := hnames.1 hkey1
      rw [hnil] at hkey
      exact List.not_mem_nil hkey
    exact hnone _ (hsub₁ _ ((hstages.mem_fk _).2 ⟨hpool, m.rel, hrel, ⟨hkey1, hkey2⟩, rfl⟩)) (Or.inl ⟨rfl, rfl⟩)
  · intro henabled r hr htype
    obtain ⟨hasked1, hasked2⟩ := hasked hsub₁
    have htwo := JoinGraph.two_le_length_alone U hasked1 hasked2 hne
    have hrecorded {m : PoolTable × PoolTable × TableRelation K}
        (hrel : relationRel m ∈ g.fetchOntologyRelationships U s
          (g₁.alone U (poolKeys U joinPool) (tableFqns joinPool)))
        (hwithin : (relationRel m).Within U (poolKeys U joinPool)) :
        bridgeOf U settings .ontology (relationRel m) ∈ jg.bridges :=
      hsub₂ _ ((hstages.mem_ontology _).2 (Or.inr ⟨henabled, htwo, relationRel m, hrel, hwithin, rfl⟩))
    have hlimit := (hlimits.mono (hsubset g₁)).1
    rcases lt_or_gt_of_ne hne with hlt | hgt
    · have hrel := exists_fetchOntology hfold hr htype hlimit hname1 hname2 hasked1 hasked2 hlt
      exact hnone _ (hrecorded hrel ⟨hkey1, hkey2⟩) (Or.inl ⟨rfl, rfl⟩)
    · have hrel := exists_fetchOntology hfold (mem_relationMatches_swap hr) htype hlimit hname2 hname1 hasked2 hasked1
        hgt
      exact hnone _ (hrecorded hrel ⟨hkey2, hkey1⟩) (Or.inr ⟨rfl, rfl⟩)
  · intro henabled hlt hshared
    by_contra hmart
    obtain ⟨hasked1, hasked2⟩ := hasked hsub₂
    have htwo := JoinGraph.two_le_length_alone U hasked1 hasked2 hne
    have hlimit := (hlimits.mono (hsubset g₂)).2
    obtain ⟨p, hrel⟩ := exists_fetchConvention hfold ht1 ht2 hshared hmart hlimit hname1 hname2 hasked1 hasked2 hlt htwo
    exact hnone _ ((hstages.mem_convention _).2 (Or.inr ⟨henabled, htwo, _, hrel, ⟨hkey1, hkey2⟩, rfl⟩))
      (Or.inl ⟨rfl, rfl⟩)

end PoolGraph

/-! ## A graph of four tables -/

/-- `measure` refers to `tag`; `river` and `dam` have nothing in common. -/
def riverGraph : PoolGraph ℚ where
  toLower := asciiLower
  tables := [{ id := 1, name := some "measure" }, { id := 2, name := some "tag" }, { id := 3, name := some "river" },
    { id := 4, name := some "dam" }]
  columns := [{ id := 11, name := some "tag_id" }, { id := 12, name := some "tag_id" },
    { id := 13, name := some "river_code" }]
  hasColumn := [⟨21, 1, 11⟩, ⟨22, 2, 12⟩, ⟨23, 3, 13⟩]
  fkTo := [⟨31, 11, 12⟩]
  relations := []
  order rows := rows
  order_perm rows := List.Perm.refl rows

def fetchDefaults : FetchSettings where
  fkLimit := 30
  ontologyLimit := 50
  conventionLimit := 30
  ontologyRelTypes := ["OBSERVES"]
  minColLen := 4
  excludes := []

def fourTables : List (TableCandidate ℚ) :=
  ["measure", "tag", "river", "dam"].map fun name => { schema := "", name, score := 1 }

theorem PoolGraph.joinGraph_witnessed_river :
    ∃ jg, joinGraph .ascii 4 joinDefaults (riverGraph.fetches .ascii fetchDefaults) fourTables = some jg ∧
      ∀ b ∈ jg.bridges, riverGraph.Witnessed .ascii fetchDefaults joinDefaults b :=
  PoolGraph.joinGraph_witnessed .ascii joinDefaults fourTables (by decide +kernel)

theorem PoolGraph.joinGraph_alone_river :
    ∃ jg, joinGraph .ascii 4 joinDefaults (riverGraph.fetches .ascii fetchDefaults) fourTables = some jg ∧
      ∀ t1 ∈ riverGraph.tables, ∀ t2 ∈ riverGraph.tables, t1.name ≠ none → t2.name ≠ none →
        t1.key .ascii ≠ t2.key .ascii → t1.key .ascii ∈ poolKeys .ascii fourTables →
        t2.key .ascii ∈ poolKeys .ascii fourTables → jg.Isolated (poolKeys .ascii fourTables) (t1.key .ascii) →
        jg.Isolated (poolKeys .ascii fourTables) (t2.key .ascii) →
        riverGraph.Unrelated .ascii fetchDefaults joinDefaults t1 t2 :=
  PoolGraph.joinGraph_alone joinDefaults fourTables (by unfold PoolGraph.Folds; decide +kernel)
    ⟨by decide +kernel, by decide +kernel, by decide +kernel⟩ (by decide +kernel)

end RoboMeta
