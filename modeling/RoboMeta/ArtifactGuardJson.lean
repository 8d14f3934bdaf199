/-
  The artifact guard on any JSON (`build_allowlist`, `enforce`).

  A published payload is whatever JSON its row holds.  `buildAllowlistJson`
  reads it as the source does, with an exception where a value has another type
  or a key is missing; `enforce` turns violations into an error of its own and
  lets every other exception pass.

  * `buildAllowlistJson_toJson`, `validateJson_toJson`: on the JSON of a typed
    payload the guard is `validateSqlAgainstArtifact`;
  * `Digests`: the guard comes to a verdict (`digests_iff`).
-/
import RoboMeta.ArtifactGuard
import RoboMeta.JsonValue

namespace RoboMeta

open Expression

/-! ## The allowlist -/

/-- The allowlist of a payload; a mandatory filter is the value of `expression_sql`, whatever it is. -/
structure JsonAllowlist where
  tables : List String
  columns : List (String × String)
  joinEdges : List (Finset (String × String))
  mandatoryFilters : List JsonValue

/-- The sets that the checks of tables, columns and joins look into. -/
def JsonAllowlist.sets (allow : JsonAllowlist) : Allowlist where
  tables := allow.tables
  columns := allow.columns
  joinEdges := allow.joinEdges
  mandatoryFilters := []

section
variable (U : Unicode)

/-- `_add_column`: the table and the column it adds. -/
def addColumn (ref : JsonValue) : Except Exc (String × Option String) := do
  let objectName ← ref.item "object_name"
  let table ← objectName.upper U
  let columnName ← ref.get "column_name"
  if columnName.truthy then
    let column ← columnName.upper U
    return (table, some column)
  else return (table, none)

def endpointOf (ref : JsonValue) : Except Exc (String × String) := do
  let objectName ← ref.item "object_name"
  let table ← objectName.upper U
  let columnName ← ref.item "column_name"
  let column ← columnName.upper U
  return (table, column)

/-- The body of the loop over the join conditions. -/
def addJoin (join : JsonValue) : Except Exc (List (String × Option String) × Finset (String × String)) := do
  let left ← join.item "left"
  let leftColumn ← addColumn U left
  let right ← join.item "right"
  let rightColumn ← addColumn U right
  let leftEnd ← endpointOf U left
  let rightEnd ← endpointOf U right
  return ([leftColumn, rightColumn], {leftEnd, rightEnd})

def baseTable (spec : JsonValue) : Except Exc (List String) := do
  let base ← spec.get "base_object"
  if base.truthy then
    let objectName ← base.item "object_name"
    let table ← objectName.upper U
    return [table]
  else return []

/-- `spec.get(k) or []`, run through by a loop. -/
def itemsOf (k : String) (spec : JsonValue) : Except Exc (List JsonValue) := do
  let items ← spec.get k
  (items.or (.arr [])).iter

def mandatoryFilterOf (binding spec : JsonValue) : Except Exc (List JsonValue) := do
  let bindingType ← binding.get "binding_type"
  if bindingType.isStr "FILTER" then
    let isMandatory ← spec.get "filter_is_mandatory"
    if isMandatory.truthy then
      let sql ← spec.item "expression_sql"
      return [sql]
    else return []
  else return []

/-- What a round of the loop over the bindings adds. -/
def addBinding (binding : JsonValue) : Except Exc JsonAllowlist := do
  let given ← binding.get "spec"
  let spec := given.or (.obj [])
  let base ← baseTable U spec
  let sourceColumns ← itemsOf "source_columns" spec
  let columns ← sourceColumns.mapM (addColumn U)
  let joinConditions ← itemsOf "join_conditions" spec
  let joins ← joinConditions.mapM (addJoin U)
  let filters ← mandatoryFilterOf binding spec
  let refs := columns ++ joins.flatMap Prod.fst
  return {
    tables := base ++ refs.map Prod.fst
    columns := refs.filterMap fun ref => ref.2.map fun column => (ref.1, column)
    joinEdges := joins.map Prod.snd
    mandatoryFilters := filters }

def buildAllowlistJson (payload : JsonValue) : Except Exc JsonAllowlist := do
  let bindings ← payload.getD "bindings" (.arr [])
  let bindings ← bindings.iter
  let added ← bindings.mapM (addBinding U)
  return {
    tables := added.flatMap JsonAllowlist.tables
    columns := added.flatMap JsonAllowlist.columns
    joinEdges := added.flatMap JsonAllowlist.joinEdges
    mandatoryFilters := added.flatMap JsonAllowlist.mandatoryFilters }

end

/-! ## The guard -/

/-- `sqlglot`, whose `parse_one` may be handed a value that is no string. -/
structure SqlglotAny extends Sqlglot where
  parseOther : String → JsonValue → Except Exc Expression

def SqlglotAny.parseOneAny (G : SqlglotAny) (dialect : String) : JsonValue → Except Exc Expression
  | .str text => (G.parseOne dialect text).mapError PyError.exc
  | v => G.parseOther dialect v

section
variable (U : Unicode) (G : SqlglotAny) (dialect : String) (allow : JsonAllowlist) (cteNames : List String)

/-- What a SELECT owes to a mandatory filter. -/
def filterError (select tree : Expression) : Option String :=
  if ∀ t ∈ mandatoryTables U tree, t ∉ scopeNames U cteNames select then none
  else if canonicalPredicate U G.toSqlglot tree [] none ∉ canonicalConjuncts U G.toSqlglot cteNames select then
    some ("mandatory filter 누락 또는 우회: " ++ canonicalPredicate U G.toSqlglot tree [] none)
  else none

/-- The round of the loop over the SELECTs. -/
def selectErrors (select : Expression) : Except Exc (List String) := do
  let columnErrors := (columns select.own).filterMap (columnViolation U allow.sets cteNames select)
  let joinErrors := (select.own.filter fun e => e.cls = .eq).filterMap (joinViolation U allow.sets cteNames select)
  if scopeNames U cteNames select = [] then return columnErrors ++ joinErrors
  else
    let trees ← allow.mandatoryFilters.mapM (G.parseOneAny dialect)
    return columnErrors ++ joinErrors ++ trees.filterMap (filterError U G cteNames select)

def treeErrors (tree : Expression) : Except Exc (List String) := do
  let cteNames := cteNamesOf U tree
  let tableErrors := (tables tree.walk).filterMap (tableViolation U allow.sets cteNames)
  let perSelect ← tree.selects.mapM (selectErrors U G dialect allow cteNames)
  return tableErrors ++ perSelect.flatten

def forbiddenIn (tree : Expression) : Option String :=
  tree.walk.findSome? fun (e : Expression) => match e.cls with | .forbidden name => some name | _ => none

def validateJson (sqlText : String) (payload : JsonValue) : Except Exc (List String) := do
  let allow ← buildAllowlistJson U payload
  match G.parse dialect sqlText with
  | .error (.parseError message) => return ["SQL 파싱 실패: " ++ message]
  | .error e => throw e.exc
  | .ok [some tree] =>
    if tree.cls ≠ .select ∧ tree.cls ≠ .union ∧ tree.selects = [] then return ["SELECT 문만 허용됩니다."]
    else match forbiddenIn tree with
    | some name => return ["허용되지 않은 구문: " ++ name]
    | none => treeErrors U G dialect allow tree
  | .ok _ => return ["단일 SELECT 문만 허용됩니다."]

/-- What `enforce` raises. -/
inductive EnforceError where
  | artifactGuard (violations : List String)
  | raised (exc : Exc)

def enforce (sqlText : String) (payload : JsonValue) : Except EnforceError Unit :=
  match validateJson U G dialect sqlText payload with
  | .error exc => .error (.raised exc)
  | .ok [] => .ok ()
  | .ok violations => .error (.artifactGuard violations)

end

/-! ## Verdicts -/

section
variable (U : Unicode) (G : SqlglotAny) (dialect sqlText : String) (payload : JsonValue)

/-- The text is one statement, whose SELECTs are looked at one by one. -/
structure Checked (tree : Expression) : Prop where
  parsed : G.parse dialect sqlText = .ok [some tree]
  hasSelect : ¬ (tree.cls ≠ .select ∧ tree.cls ≠ .union ∧ tree.selects = [])
  noForbidden : forbiddenIn tree = none

/-- The payload has the shape of an artifact, the text falls into tokens, and the mandatory filters that
a SELECT of the text is held against are texts that parse. -/
structure Digests : Prop where
  readable : ∃ allow, buildAllowlistJson U payload = .ok allow
  tokens : ∀ e, G.parse dialect sqlText = .error e → ∃ message, e = .parseError message
  filters : ∀ allow tree, buildAllowlistJson U payload = .ok allow → Checked G dialect sqlText tree →
    ∀ select ∈ tree.selects, scopeNames U (cteNamesOf U tree) select ≠ [] →
      ∀ m ∈ allow.mandatoryFilters, ∃ t, G.parseOneAny dialect m = .ok t

variable {U G dialect sqlText payload}

theorem selectErrors_ok_iff {allow : JsonAllowlist} {cteNames : List String} {select : Expression} :
    (∃ errors, selectErrors U G dialect allow cteNames select = .ok errors) ↔
      (scopeNames U cteNames select ≠ [] → ∀ m ∈ allow.mandatoryFilters, ∃ t, G.parseOneAny dialect m = .ok t) := by
  unfold selectErrors
  by_cases hscope : scopeNames U cteNames select = []
  · rw [if_pos hscope]
    exact ⟨fun _ hne => absurd hscope hne, fun _ => ⟨_, rfl⟩⟩
  · rw [if_neg hscope, ← Except.exists_mapM_eq_ok]
    constructor
    · rintro ⟨errors, h⟩ -
      obtain ⟨trees, htrees, -⟩ := Except.bind_eq_ok.1 h
      exact ⟨trees, htrees⟩
    · intro h
      obtain ⟨trees, htrees⟩ := h hscope
      exact ⟨_, Except.bind_eq_ok.2 ⟨trees, htrees, rfl⟩⟩

theorem treeErrors_ok_iff {allow : JsonAllowlist} {tree : Expression} :
    (∃ errors, treeErrors U G dialect allow tree = .ok errors) ↔
      ∀ select ∈ tree.selects, scopeNames U (cteNamesOf U tree) select ≠ [] →
        ∀ m ∈ allow.mandatoryFilters, ∃ t, G.parseOneAny dialect m = .ok t := by
  have hselects : (∃ errors, tree.selects.mapM (selectErrors U G dialect allow (cteNamesOf U tree)) = .ok errors) ↔ _ :=
    Except.exists_mapM_eq_ok
  simp only [selectErrors_ok_iff] at hselects
  rw [← hselects, treeErrors]
  constructor
  · rintro ⟨errors, h⟩
    obtain ⟨perSelect, hper, -⟩ := Except.bind_eq_ok.1 h
    exact ⟨perSelect, hper⟩
  · rintro ⟨perSelect, hper⟩
    exact ⟨_, Except.bind_eq_ok.2 ⟨perSelect, hper, rfl⟩⟩

/-- **The guard comes to a verdict** iff it can digest the payload and the text. -/
theorem validateJson_ok_iff :
    (∃ errors, validateJson U G dialect sqlText payload = .ok errors) ↔ Digests U G dialect sqlText payload := by
  unfold validateJson
  constructor
  · rintro ⟨errors, h⟩
    obtain ⟨allow, hallow, h⟩ := Except.bind_eq_ok.1 h
    refine ⟨⟨allow, hallow⟩, fun e he => ?_, fun allow' tree hallow' hchecked => ?_⟩
    · simp only [he] at h
      cases e with
      | parseError message => exact ⟨message, rfl⟩
      | keyError _ | tokenError _ | validationError _ => cases h
    · cases hallow.symm.trans hallow'
      simp only [hchecked.parsed, if_neg hchecked.hasSelect, hchecked.noForbidden] at h
      exact treeErrors_ok_iff.1 ⟨errors, h⟩
  · intro h
    obtain ⟨allow, hallow⟩ := h.readable
    suffices hrest : ∃ errors, _ = Except.ok errors from
      hrest.imp fun errors herrors => Except.bind_eq_ok.2 ⟨allow, hallow, herrors⟩
    split
    · exact ⟨_, rfl⟩
    · rename_i e hne he
      obtain ⟨message, rfl⟩ := h.tokens e he
      exact absurd rfl (hne message)
    · rename_i tree htree
      split_ifs with hselect
      · exact ⟨_, rfl⟩
      · split
        · exact ⟨_, rfl⟩
        · rename_i hforbidden
          exact treeErrors_ok_iff.2 (h.filters allow tree hallow ⟨htree, hselect, hforbidden⟩)
    · exact ⟨_, rfl⟩

theorem digests_iff :
    Digests U G dialect sqlText payload ↔ ∀ exc, enforce U G dialect sqlText payload ≠ .error (.raised exc) := by
  rw [← validateJson_ok_iff]
  unfold enforce
  split
  · rename_i exc herror
    rw [herror]
    constructor
    · rintro ⟨errors, h⟩
      cases h
    · intro h
      exact absurd rfl (h exc)
  · rename_i hok
    exact ⟨fun _ exc => nofun, fun _ => ⟨[], hok⟩⟩
  · rename_i violations hne hok
    exact ⟨fun _ exc => nofun, fun _ => ⟨violations, hok⟩⟩

end

/-! ## Typed payloads -/

/-- An optional text as the value of a key. -/
def optionalStr (text : Option String) : JsonValue := text.elim .null .str

def ObjectRef.members (ref : ObjectRef) : List (String × JsonValue) :=
  [("logical_database", .str ref.logicalDatabase), ("schema_name", .str ref.schemaName),
    ("object_name", .str ref.objectName)]

def ObjectRef.toJson (ref : ObjectRef) : JsonValue := .obj ref.members

def ColumnRef.toJson (ref : ColumnRef) : JsonValue :=
  .obj (ref.members ++ [("column_name", optionalStr ref.columnName)])

def JoinColumn.toJson (c : JoinColumn) : JsonValue := c.toColumnRef.toJson

def JoinCondition.toJson (join : JoinCondition) : JsonValue :=
  .obj [("left", join.left.toJson), ("right", join.right.toJson)]

def BindingType.text : BindingType → String
  | metric => "METRIC"
  | filter => "FILTER"
  | other name => name

def Concept.toJson (c : Concept) : JsonValue := .obj [("label", optionalStr c.label), ("iri", optionalStr c.iri)]

/-- `expression_sql` is missing if there is none; the other keys are read with `get`. -/
def Spec.toJson (spec : Spec) : JsonValue :=
  .obj ([("base_object", spec.baseObject.elim .null ObjectRef.toJson),
    ("source_columns", .arr (spec.sourceColumns.map ColumnRef.toJson)),
    ("join_conditions", .arr (spec.joinConditions.map JoinCondition.toJson)),
    ("join_type", optionalStr spec.joinType),
    ("filter_is_mandatory", .bool spec.filterIsMandatory),
    ("aggregation", optionalStr spec.aggregation), ("unit", optionalStr spec.unit),
    ("grain", optionalStr spec.grain)] ++
    (spec.expressionSql.map fun sql => ("expression_sql", JsonValue.str sql)).toList)

def Binding.toJson (b : Binding) : JsonValue :=
  .obj [("binding_type", .str b.bindingType.text), ("name", .str b.name),
    ("concept", b.concept.elim .null Concept.toJson), ("spec", b.spec.toJson)]

/-- The JSON of a payload, with any other members. -/
def Payload.toJson (payload : Payload) (members : List (String × JsonValue)) : JsonValue :=
  .obj (("bindings", .arr (payload.bindings.map Binding.toJson)) :: members)

def Allowlist.toJson (allow : Allowlist) : JsonAllowlist where
  tables := allow.tables
  columns := allow.columns
  joinEdges := allow.joinEdges
  mandatoryFilters := allow.mandatoryFilters.map .str

/-- No binding type is spelled like another one. -/
def Payload.Spelled (payload : Payload) : Prop := ∀ b ∈ payload.bindings, b.bindingType ≠ .other "FILTER"

section
variable (U : Unicode)

theorem item_objectName (ref : ColumnRef) : ref.toJson.item "object_name" = .ok (.str ref.objectName) := rfl

theorem get_columnName (ref : ColumnRef) : ref.toJson.get "column_name" = .ok (optionalStr ref.columnName) := rfl

/-- What `_add_column` adds for a reference. -/
def ColumnRef.added (ref : ColumnRef) : String × Option String :=
  (U.upper ref.objectName, (ref.columnName.filter (· ≠ "")).map U.upper)

theorem addColumn_toJson (ref : ColumnRef) : addColumn U ref.toJson = .ok (ref.added U) := by
  rw [addColumn, item_objectName, get_columnName, ColumnRef.added]
  cases ref.columnName with
  | none => rfl
  | some name =>
    by_cases hempty : name = ""
    · subst hempty
      rfl
    · have htruthy : (JsonValue.str name).truthy = true := by simpa [JsonValue.truthy] using hempty
      have hfilter : (some name).filter (· ≠ "") = some name := by simpa using hempty
      rw [hfilter]
      exact if_pos htruthy

theorem endpointOf_toJson (c : JoinColumn) : endpointOf U c.toJson = .ok (c.endpoint U) := rfl

theorem addJoin_toJson (join : JoinCondition) :
    addJoin U join.toJson =
      .ok ([join.left.toColumnRef.added U, join.right.toColumnRef.added U], join.edge U) := by
  have hleft : join.toJson.item "left" = .ok join.left.toJson := rfl
  have hright : join.toJson.item "right" = .ok join.right.toJson := rfl
  refine Except.bind_eq_ok.2 ⟨_, hleft, Except.bind_eq_ok.2 ⟨_, addColumn_toJson U _, ?_⟩⟩
  refine Except.bind_eq_ok.2 ⟨_, hright, Except.bind_eq_ok.2 ⟨_, addColumn_toJson U _, ?_⟩⟩
  exact Except.bind_eq_ok.2 ⟨_, endpointOf_toJson U _, Except.bind_eq_ok.2 ⟨_, endpointOf_toJson U _, rfl⟩⟩

theorem baseTable_toJson (spec : Spec) :
    baseTable U spec.toJson = .ok (spec.baseObject.toList.map fun o => U.upper o.objectName) := by
  have hget : spec.toJson.get "base_object" = .ok (spec.baseObject.elim .null ObjectRef.toJson) := rfl
  rw [baseTable, hget]
  cases spec.baseObject with
  | none => rfl
  | some o => rfl

theorem itemsOf_sourceColumns (spec : Spec) :
    itemsOf "source_columns" spec.toJson = .ok (spec.sourceColumns.map ColumnRef.toJson) := by
  have hget : spec.toJson.get "source_columns" = .ok (.arr (spec.sourceColumns.map ColumnRef.toJson)) := rfl
  rw [itemsOf, hget]
  cases spec.sourceColumns <;> rfl

theorem itemsOf_joinConditions (spec : Spec) :
    itemsOf "join_conditions" spec.toJson = .ok (spec.joinConditions.map JoinCondition.toJson) := by
  have hget : spec.toJson.get "join_conditions" = .ok (.arr (spec.joinConditions.map JoinCondition.toJson)) := rfl
  rw [itemsOf, hget]
  cases spec.joinConditions <;> rfl

theorem mandatoryFilterOf_toJson {b : Binding} (h : b.bindingType ≠ .other "FILTER") :
    mandatoryFilterOf b.toJson b.spec.toJson = (b.mandatoryFilter.map (List.map .str)).mapError PyError.exc := by
  have hkind : b.toJson.get "binding_type" = .ok (.str b.bindingType.text) := rfl
  have hmandatory : b.spec.toJson.get "filter_is_mandatory" = .ok (.bool b.spec.filterIsMandatory) := rfl
  have hsql : b.spec.toJson.item "expression_sql" =
      (b.spec.expressionSql.elim (.error (PyError.keyError "expression_sql").exc) fun sql => .ok (.str sql)) := by
    rw [Spec.toJson]
    cases b.spec.expressionSql <;> rfl
  rw [mandatoryFilterOf, hkind, hmandatory, hsql, Binding.mandatoryFilter]
  cases htype : b.bindingType with
  | metric => rfl
  | other name =>
    have hne : (JsonValue.str name).isStr "FILTER" = false := by
      rw [htype] at h
      simpa [JsonValue.isStr] using h
    rw [if_neg (by simp)]
    exact if_neg (by simp [BindingType.text, hne])
  | filter =>
    cases b.spec.filterIsMandatory with
    | false => rfl
    | true => cases b.spec.expressionSql <;> rfl

/-- What a binding adds to the allowlist, beside its mandatory filters. -/
def Binding.added (b : Binding) (filters : List String) : JsonAllowlist where
  tables := (b.spec.baseObject.toList.map fun o => U.upper o.objectName) ++
    b.spec.columnRefs.map fun ref => U.upper ref.objectName
  columns := b.spec.columnRefs.filterMap (ColumnRef.column U)
  joinEdges := b.spec.joinConditions.map (JoinCondition.edge U)
  mandatoryFilters := filters.map .str

theorem addBinding_toJson {b : Binding} (h : b.bindingType ≠ .other "FILTER") :
    addBinding U b.toJson = (b.mandatoryFilter.map (b.added U)).mapError PyError.exc := by
  have hspec : b.toJson.get "spec" = .ok b.spec.toJson := rfl
  have hor : b.spec.toJson.or (.obj []) = b.spec.toJson := rfl
  have hcolumns := Except.mapM_map_eq_ok (addColumn_toJson U) b.spec.sourceColumns
  have hjoins := Except.mapM_map_eq_ok (addJoin_toJson U) b.spec.joinConditions
  have hrefs : b.spec.sourceColumns.map (ColumnRef.added U) ++ (b.spec.joinConditions.map fun join =>
      ([join.left.toColumnRef.added U, join.right.toColumnRef.added U], join.edge U)).flatMap Prod.fst =
      b.spec.columnRefs.map (ColumnRef.added U) := by
    rw [Spec.columnRefs, List.map_append, List.map_flatMap, List.flatMap_map]
    rfl
  simp only [addBinding, hspec, hor, baseTable_toJson, itemsOf_sourceColumns, itemsOf_joinConditions, hcolumns, hjoins,
    mandatoryFilterOf_toJson h, hrefs, bind, Except.bind]
  cases b.mandatoryFilter with
  | error e => rfl
  | ok filters =>
    have hcolumns : (b.spec.columnRefs.map (ColumnRef.added U)).filterMap
        (fun ref => ref.2.map fun column => (ref.1, column)) = b.spec.columnRefs.filterMap (ColumnRef.column U) := by
      rw [List.filterMap_map]
      refine List.filterMap_congr fun ref _ => ?_
      simp [ColumnRef.added, ColumnRef.column, Function.comp_def]
    simp only [hcolumns, List.map_map]
    rfl

theorem flatMap_zipWith_left {α β γ δ : Type} {g : α → β → γ} {f : γ → List δ} {k : α → List δ}
    (h : ∀ x y, f (g x y) = k x) {xs : List α} {ys : List β} (hlength : xs.length = ys.length) :
    (List.zipWith g xs ys).flatMap f = xs.flatMap k := by
  induction xs generalizing ys with
  | nil => rfl
  | cons x xs ih =>
    cases ys with
    | nil => cases hlength
    | cons y ys => rw [List.zipWith_cons_cons, List.flatMap_cons, List.flatMap_cons, h, ih (Nat.succ.inj hlength)]

theorem flatMap_zipWith_right {α β γ δ : Type} {g : α → β → γ} {f : γ → List δ} {k : β → List δ}
    (h : ∀ x y, f (g x y) = k y) {xs : List α} {ys : List β} (hlength : xs.length = ys.length) :
    (List.zipWith g xs ys).flatMap f = ys.flatMap k := by
  rw [List.zipWith_comm]
  exact flatMap_zipWith_left (fun y x => h x y) hlength.symm

/-- **On typed payloads the allowlists are the same.** -/
theorem buildAllowlistJson_toJson {payload : Payload} (h : payload.Spelled) (members : List (String × JsonValue)) :
    buildAllowlistJson U (payload.toJson members) =
      ((buildAllowlist U payload).map Allowlist.toJson).mapError PyError.exc := by
  have hget : (payload.toJson members).getD "bindings" (.arr []) =
      .ok (.arr (payload.bindings.map Binding.toJson)) := rfl
  have hadded : payload.bindings.mapM (addBinding U ∘ Binding.toJson) = _ :=
    Except.mapM_mapError fun b hb => addBinding_toJson U (h b hb)
  rw [Except.mapM_zipWith fun _ _ => rfl] at hadded
  rw [buildAllowlistJson, hget, buildAllowlist]
  simp only [bind, Except.bind, JsonValue.iter, List.mapM_map, hadded]
  cases hfilters : payload.bindings.mapM Binding.mandatoryFilter with
  | error e => rfl
  | ok filters =>
    have hlength := Except.length_of_mapM_eq_ok hfilters
    refine congrArg Except.ok ?_
    rw [Allowlist.toJson, JsonAllowlist.mk.injEq]
    refine ⟨?_, ?_, ?_, ?_⟩
    · exact flatMap_zipWith_left (g := Binding.added U) (k := fun b => (b.added U []).tables) (fun _ _ => rfl) hlength
    · exact flatMap_zipWith_left (g := Binding.added U) (k := fun b => (b.added U []).columns) (fun _ _ => rfl) hlength
    · exact flatMap_zipWith_left (g := Binding.added U) (k := fun b => (b.added U []).joinEdges) (fun _ _ => rfl)
        hlength
    · rw [flatMap_zipWith_right (g := Binding.added U) (k := List.map .str) (fun _ _ => rfl) hlength,
        ← List.flatMap_id, List.map_flatMap]
      rfl

section
variable (G : SqlglotAny) (dialect : String)

theorem mapM_parseOneAny (filters : List String) :
    (filters.map JsonValue.str).mapM (G.parseOneAny dialect) =
      (filters.mapM (G.parseOne dialect)).mapError PyError.exc := by
  rw [List.mapM_map]
  exact Except.mapM_mapError fun _ _ => rfl

theorem mapM_filterViolation (cteNames : List String) (select : Expression) (filters : List String) :
    filters.mapM (filterViolation U G.toSqlglot dialect cteNames select) =
      (filters.mapM (G.parseOne dialect)).map (List.map (filterError U G cteNames select)) := by
  refine Except.mapM_map fun m _ => ?_
  rw [filterViolation]
  cases G.parseOne dialect m <;> rfl

theorem selectErrors_toJson (allow : Allowlist) (cteNames : List String) (select : Expression) :
    selectErrors U G dialect allow.toJson cteNames select =
      (selectViolations U G.toSqlglot dialect allow cteNames select).mapError PyError.exc := by
  have hmandatory : allow.toJson.mandatoryFilters = allow.mandatoryFilters.map .str := rfl
  unfold selectErrors selectViolations
  rw [hmandatory, mapM_parseOneAny, mapM_filterViolation]
  by_cases hscope : scopeNames U cteNames select = []
  · rw [if_pos hscope, if_pos hscope]
    exact congrArg Except.ok (List.append_nil _).symm
  · rw [if_neg hscope, if_neg hscope]
    cases allow.mandatoryFilters.mapM (G.parseOne dialect) with
    | error e => rfl
    | ok trees =>
      have hreduce : (trees.map (filterError U G cteNames select)).reduceOption =
          trees.filterMap (filterError U G cteNames select) := by
        change (trees.map (filterError U G cteNames select)).filterMap id = _
        rw [List.filterMap_map]
        rfl
      refine congrArg Except.ok ?_
      rw [hreduce]
      rfl

theorem treeErrors_toJson (allow : Allowlist) (tree : Expression) :
    treeErrors U G dialect allow.toJson tree =
      (treeViolations U G.toSqlglot dialect allow tree).mapError PyError.exc := by
  have hselects : tree.selects.mapM (selectErrors U G dialect allow.toJson (cteNamesOf U tree)) = _ :=
    Except.mapM_mapError fun select _ => selectErrors_toJson U G dialect allow (cteNamesOf U tree) select
  unfold treeErrors treeViolations
  simp only [hselects]
  cases tree.selects.mapM (selectViolations U G.toSqlglot dialect allow (cteNamesOf U tree)) <;> rfl

/-- **On typed payloads the guards are the same.** -/
theorem validateJson_toJson (sqlText : String) {payload : Payload} (h : payload.Spelled)
    (members : List (String × JsonValue)) :
    validateJson U G dialect sqlText (payload.toJson members) =
      (validateSqlAgainstArtifact U G.toSqlglot dialect sqlText payload).mapError PyError.exc := by
  unfold validateJson validateSqlAgainstArtifact
  rw [buildAllowlistJson_toJson U h]
  cases buildAllowlist U payload with
  | error e => rfl
  | ok allow =>
    simp only [Except.map, Except.mapError, bind, Except.bind]
    cases G.parse dialect sqlText with
    | error e => cases e <;> rfl
    | ok statements =>
      rcases statements with _ | ⟨_ | tree, _ | ⟨statement, statements⟩⟩
      · rfl
      · rfl
      · rfl
      · by_cases hselect : tree.cls ≠ .select ∧ tree.cls ≠ .union ∧ tree.selects = []
        · simp only [if_pos hselect]
          rfl
        · simp only [if_neg hselect, forbiddenIn]
          generalize List.findSome? _ tree.walk = forbidden
          cases forbidden with
          | some name => rfl
          | none => exact treeErrors_toJson U G dialect allow tree
      · rfl

end

end

end RoboMeta
