/-
  Semantic View artifacts: the payload a published artifact carries, and the
  allowlist the SQL guard reads off it (`build_allowlist`).

  Keys that the services read with `.get` are optional or have the value that
  stands for their absence (`[]`, `false`); keys they read with `[...]` are
  plain fields, `expression_sql` excepted, which `build_allowlist` demands of
  mandatory filters only.
-/
import Mathlib.Data.Finset.Insert
import RoboMeta.Python

namespace RoboMeta

/-- What the services raise or let through. -/
inductive PyError where
  | keyError (key : String)
  | parseError (message : String)
  | tokenError (message : String)
  | validationError (message : String)
deriving DecidableEq, Repr

def PyError.str : PyError → String
  | .keyError key => "'" ++ key ++ "'"
  | .parseError message | .tokenError message | .validationError message => message

/-! ## Payload -/

structure ObjectRef where
  logicalDatabase : String
  schemaName : String
  objectName : String
deriving DecidableEq, Repr

/-- An entry of `source_columns`. -/
structure ColumnRef extends ObjectRef where
  columnName : Option String
deriving DecidableEq, Repr

structure JoinColumn extends ObjectRef where
  columnName : String
deriving DecidableEq, Repr

structure JoinCondition where
  left : JoinColumn
  right : JoinColumn
deriving DecidableEq, Repr

structure Spec where
  baseObject : Option ObjectRef := none
  sourceColumns : List ColumnRef := []
  joinConditions : List JoinCondition := []
  joinType : Option String := none
  filterIsMandatory : Bool := false
  expressionSql : Option String := none
  aggregation : Option String := none
  unit : Option String := none
  grain : Option String := none
deriving DecidableEq, Repr

structure Concept where
  label : Option String
  iri : Option String
deriving DecidableEq, Repr

inductive BindingType where
  | metric
  | filter
  | other (name : String)
deriving DecidableEq, Repr

structure Binding where
  bindingType : BindingType
  name : String
  concept : Option Concept := none
  spec : Spec := {}
deriving DecidableEq, Repr

inductive PolicyType where
  | security
  | other (name : String)
deriving DecidableEq, Repr

/-- A policy with the `allowed_roles` of its rule. -/
structure Policy where
  policyType : PolicyType
  allowedRoles : List String
deriving DecidableEq, Repr

/-- A payload; `rest` are the members that are only handed on. -/
structure Payload where
  bindings : List Binding := []
  policies : List Policy := []
  rest : Dict String Json := []
deriving DecidableEq, Repr

/-! ## Allowlist -/

/-- Sets are lists read by membership: `column ∈ allow["columns"][table]` is
    `(table, column) ∈ columns`. -/
structure Allowlist where
  tables : List String
  columns : List (String × String)
  joinEdges : List (Finset (String × String))
  mandatoryFilters : List String

section
variable (U : Unicode)

/-- A side of a join condition as `_add_column` takes it. -/
def JoinColumn.toColumnRef (c : JoinColumn) : ColumnRef :=
  { c.toObjectRef with columnName := some c.columnName }

/-- The references that `_add_column` is called with, in order. -/
def Spec.columnRefs (spec : Spec) : List ColumnRef :=
  spec.sourceColumns ++
    spec.joinConditions.flatMap fun join => [join.left.toColumnRef, join.right.toColumnRef]

/-- `_add_column`: the column it adds; an empty name is no name. -/
def ColumnRef.column (ref : ColumnRef) : Option (String × String) :=
  (ref.columnName.filter (· ≠ "")).map fun c => (U.upper ref.objectName, U.upper c)

def JoinColumn.endpoint (c : JoinColumn) : String × String := (U.upper c.objectName, U.upper c.columnName)

def JoinCondition.edge (join : JoinCondition) : Finset (String × String) :=
  {join.left.endpoint U, join.right.endpoint U}

/-- The mandatory filter of a binding, whose text must be there. -/
def Binding.mandatoryFilter (binding : Binding) : Except PyError (List String) :=
  if binding.bindingType = .filter ∧ binding.spec.filterIsMandatory then
    match binding.spec.expressionSql with
    | some sql => .ok [sql]
    | none => .error (.keyError "expression_sql")
  else .ok []

def buildAllowlist (payload : Payload) : Except PyError Allowlist := do
  let filters ← payload.bindings.mapM Binding.mandatoryFilter
  return {
    tables := payload.bindings.flatMap fun binding =>
      (binding.spec.baseObject.toList.map fun o => U.upper o.objectName) ++
        binding.spec.columnRefs.map fun ref => U.upper ref.objectName
    columns := payload.bindings.flatMap fun binding => binding.spec.columnRefs.filterMap (ColumnRef.column U)
    joinEdges := payload.bindings.flatMap fun binding => binding.spec.joinConditions.map (JoinCondition.edge U)
    mandatoryFilters := filters.flatten }

end

end RoboMeta
