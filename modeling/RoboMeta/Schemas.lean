/-
  Parts of the answer to `/data_decision` (`schemas.py`).

  Scores and confidences are numbers of `K`.  A `TableKey` must have a schema;
  a `TableCandidate` is what a search of the metadata found
  (`neo4j_client/models.py`).
-/
import RoboMeta.Artifact

namespace RoboMeta

structure TableKey where
  db : Option String
  schemaName : String
  tableName : String
deriving DecidableEq, Repr

inductive SubjectArea where
  | agg
  | raw
  | code
  | hist
  | master
  | link
  | unknown
deriving DecidableEq, Repr

inductive TargetClass where
  | analytic
  | source
  | collect
  | mixed
  | unknown
deriving DecidableEq, Repr

inductive ColumnConstraint where
  | pk
  | fk
  | unique
deriving DecidableEq, Repr

structure DecisionCandidate (K : Type*) extends TableKey where
  score : K
  source : String
deriving DecidableEq

structure MatchedColumn (K : Type*) where
  columnName : String
  score : K
  constraints : List ColumnConstraint := []
  columnNameKr : Option String := none
  dataType : Option String
  description : Option String
deriving DecidableEq

/-- A candidate as it is answered. -/
structure Candidate (K : Type*) extends DecisionCandidate K where
  targetClass : TargetClass
  subjectArea : SubjectArea
  matchedColumns : List (MatchedColumn K)
  tableComment : Option String := none
  description : Option String := none
deriving DecidableEq

inductive BridgeVia where
  | fk
  | ontology
  | convention
deriving DecidableEq, Repr

def BridgeVia.text : BridgeVia → String
  | fk => "fk"
  | ontology => "ontology"
  | convention => "convention"

structure JoinBridge (K : Type*) where
  from_ : String
  to_ : String
  via : BridgeVia
  path : List String := []
  confidence : K
deriving DecidableEq

structure JoinGroup (K : Type*) where
  members : List TableKey
  crossDb : Bool := false
  recommendedStrategy : String
  bridges : List (JoinBridge K)
  groupScore : K
  rationale : String
deriving DecidableEq

structure TableCandidate (K : Type*) where
  schema : String
  name : String
  datasource : String := ""
  score : K
deriving DecidableEq

/-- `f"{s}.{n}" if s else n`. -/
def fqnOf (s n : String) : String := if s = "" then n else s ++ "." ++ n

end RoboMeta
