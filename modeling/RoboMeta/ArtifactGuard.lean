/-
  The artifact guard (`services/artifact_sql_guard.py`).

  `validateSqlAgainstArtifact` parses the text and returns the violations of
  the allowlist: of its tables over the whole tree, then SELECT by SELECT of
  its columns, join edges and mandatory filters.  CTE names are collected once
  for the whole tree; a SELECT is looked at through the alias map of its own
  FROM and JOIN items.

  * `aliasMap`, `scopeNames`, `canonicalPredicate`, `conjuncts` are the readings
    of the tree that the checks rest on;
  * `tableViolation`, `columnViolation`, `joinViolation`, `filterViolation` are
    the bodies of the four loops;
  * `Accepted` is the empty list of violations of a tree; with the kind of the
    statement it is all that is asked of a text (`validate_eq_nil_iff`).
-/
import RoboMeta.Lib.Outcome
import RoboMeta.SqlScope

namespace RoboMeta

open Expression

/-- `DIALECT`. -/
def dialectPostgres : String := "postgres"

/-! ## Readings of the tree -/

def scopeTables (select : Expression) : List Table :=
  tables <| ((select.arg? .from_).toList ++ select.argList .joins).filterMap (arg? .this)

mutual
def conjuncts : Expression → List Expression
  | .node l ts =>
    if l.cls = .and then conjunctsOf .this ts ++ conjunctsOf .expression ts else [.node l ts]

def conjunctsOf (k : Arg) : List Expression → List Expression
  | [] => []
  | t :: ts => if t.label.arg = k then conjuncts t else conjunctsOf k ts
end

def whereConjuncts (select : Expression) : List Expression :=
  ((select.arg? .where_).bind (arg? .this)).elim [] conjuncts

/-- `node.copy()`: a copy hangs in no parent. -/
def copy : Expression → Expression
  | .node l ts => .node { l with arg := .root } ts

section
variable (U : Unicode) (G : Sqlglot) (dialect : String) (allow : Allowlist) (cteNames : List String)

/-- `cte_names`. -/
def cteNamesOf (tree : Expression) : List String :=
  tree.walk.filterMap fun (e : Expression) => match e.cls with | .cte a _ => some (U.upper a.name) | _ => none

/-- The upper-cased name of a table. -/
def Table.key (t : Table) : String := U.upper t.this.name

def aliasMap (select : Expression) : Dict String String :=
  (scopeTables select).foldl
    (fun d t => if t.key U ∈ cteNames then d else d.set (U.upper t.aliasOrName.name) (t.key U)) []

/-- `scope_tables`. -/
def scopeNames (select : Expression) : List String := ((aliasMap U cteNames select).map Prod.snd).dedup

def selectAliases (select : Expression) : List String :=
  (select.argList .expressions).filterMap fun e =>
    match e.cls with | .alias_ a => some (U.upper a.name) | _ => none

/-- The qualifier of a column, upper-cased. -/
def Column.qualifier (c : Column) : String := U.upper (identName c.table)

/-- The name of a column, upper-cased. -/
def Column.key (c : Column) : String := U.upper c.name

/-- Write tables for aliases in a label, and `default` for a missing qualifier. -/
def qualify (aliases : Dict String String) (default : Option String) (l : Label) : Label :=
  match l.cls with
  | .column c =>
    match aliases.get? (c.qualifier U) with
    | some t => { l with cls := .column { c with table := some (G.toIdentifier t) } }
    | none => match default with
      | some t =>
        if c.qualifier U = "" ∧ t ≠ "" then { l with cls := .column { c with table := some (G.toIdentifier t) } }
        else l
      | none => l
  | _ => l

def canonicalPredicate (node : Expression) (aliases : Dict String String) (default : Option String) : String :=
  let text := U.upper (G.sql dialectPostgres ((copy node).map (qualify U G aliases default)))
  String.ofList (text.toList.filter (· ≠ '"'))

/-! ## The four checks -/

/-- The body of the loop over the tables. -/
def tableViolation (t : Table) : Option String :=
  if t.key U ∈ cteNames then none
  else if t.key U ∉ allow.tables then some ("허용되지 않은 테이블: " ++ t.key U)
  else none

def resolved (select : Expression) (c : Column) : String :=
  ((aliasMap U cteNames select).get? (c.qualifier U)).getD (c.qualifier U)

/-- The body of the loop over the columns of a SELECT. -/
def columnViolation (select : Expression) (c : Column) : Option String :=
  if c.qualifier U ∈ cteNames then none
  else if c.qualifier U ≠ "" then
    if resolved U cteNames select c ∈ cteNames ∨ resolved U cteNames select c ∉ allow.tables then none
    else if c.key U ≠ "*" ∧ (resolved U cteNames select c, c.key U) ∉ allow.columns then
      some ("허용되지 않은 컬럼: " ++ resolved U cteNames select c ++ "." ++ c.key U)
    else none
  else if c.key U = "*" ∨ c.key U ∈ selectAliases U select then none
  else match scopeNames U cteNames select with
    | [] => none
    | [only] =>
      if (only, c.key U) ∉ allow.columns then some ("허용되지 않은 컬럼: " ++ only ++ "." ++ c.key U) else none
    | _ :: _ :: _ =>
      if c.key U ∉ allow.columns.map Prod.snd then some ("허용되지 않은 컬럼(비한정): " ++ c.key U) else none

def columnOf? (e : Expression) : Option Column := match e.cls with | .column c => some c | _ => none

/-- `alias_map.get((column.table or "").upper())`, where the empty name counts
    as absent. -/
def sideTable (select : Expression) (c : Column) : Option String :=
  ((aliasMap U cteNames select).get? (c.qualifier U)).filter (· ≠ "")

/-- The tables and columns that an equality is checked for, if it is. -/
def checkedSides (select eq : Expression) : Option ((String × String) × (String × String)) := do
  let left ← (eq.arg? .this).bind columnOf?
  let right ← (eq.arg? .expression).bind columnOf?
  let lt ← sideTable U cteNames select left
  let rt ← sideTable U cteNames select right
  if lt = rt then none else some ((lt, left.key U), (rt, right.key U))

/-- The body of the loop over the equalities of a SELECT. -/
def joinViolation (select eq : Expression) : Option String :=
  match checkedSides U cteNames select eq with
  | none => none
  | some (l, r) =>
    if {l, r} ∉ allow.joinEdges then
      some ("허용되지 않은 join: " ++ l.1 ++ "." ++ l.2 ++ " = " ++ r.1 ++ "." ++ r.2)
    else none

def mandatoryTables (mandatory : Expression) : List String :=
  (columns mandatory.walk).map fun c => String.ofList ((c.qualifier U).toList.filter (· ≠ '"'))

def defaultTable (select : Expression) : Option String :=
  match scopeNames U cteNames select with | [only] => some only | _ => none

def canonicalConjuncts (select : Expression) : List String :=
  (whereConjuncts select).map fun c =>
    canonicalPredicate U G c (aliasMap U cteNames select) (defaultTable U cteNames select)

/-- The body of the loop over the mandatory filters. -/
def filterViolation (select : Expression) (mandatory : String) : Except PyError (Option String) := do
  let tree ← G.parseOne dialect mandatory
  return if ∀ t ∈ mandatoryTables U tree, t ∉ scopeNames U cteNames select then none
    else if canonicalPredicate U G tree [] none ∉ canonicalConjuncts U G cteNames select then
      some ("mandatory filter 누락 또는 우회: " ++ canonicalPredicate U G tree [] none)
    else none

/-- The round of the loop over the SELECTs. -/
def selectViolations (select : Expression) : Except PyError (List String) := do
  let columnErrors := (columns select.own).filterMap (columnViolation U allow cteNames select)
  let joinErrors := (select.own.filter fun e => e.cls = .eq).filterMap (joinViolation U allow cteNames select)
  let filterErrors ← (if scopeNames U cteNames select = [] then pure []
    else allow.mandatoryFilters.mapM (filterViolation U G dialect cteNames select))
  return columnErrors ++ joinErrors ++ filterErrors.reduceOption

def treeViolations (tree : Expression) : Except PyError (List String) := do
  let cteNames := cteNamesOf U tree
  let tableErrors := (tables tree.walk).filterMap (tableViolation U allow cteNames)
  let perSelect ← tree.selects.mapM (selectViolations U G dialect allow cteNames)
  return tableErrors ++ perSelect.flatten

def validateSqlAgainstArtifact (sqlText : String) (payload : Payload) : Except PyError (List String) := do
  let allow ← buildAllowlist U payload
  match G.parse dialect sqlText with
  | .error (.parseError message) => return ["SQL 파싱 실패: " ++ message]
  | .error e => throw e
  | .ok [some tree] =>
    if tree.cls ≠ .select ∧ tree.cls ≠ .union ∧ tree.selects = [] then return ["SELECT 문만 허용됩니다."]
    else match tree.walk.findSome? fun (e : Expression) =>
        match e.cls with | .forbidden name => some name | _ => none with
    | some name => return ["허용되지 않은 구문: " ++ name]
    | none => treeViolations U G dialect allow tree
  | .ok _ => return ["단일 SELECT 문만 허용됩니다."]

/-! ## Alias maps -/

section
variable {U : Unicode} {cteNames : List String} {select tree : Expression} {q t : String}

/-- An alias stands for a table of the FROM clause that bears no CTE's name. -/
theorem exists_of_get?_aliasMap (h : (aliasMap U cteNames select).get? q = some t) :
    ∃ table ∈ scopeTables select,
      table.key U = t ∧ t ∉ cteNames ∧ U.upper table.aliasOrName.name = q := by
  have hfold : ∀ (ts : List Table) (d : Dict String String),
      (ts.foldl (fun d t => if t.key U ∈ cteNames then d else d.set (U.upper t.aliasOrName.name) (t.key U))
        d).get? q = some t →
      (∃ table ∈ ts, table.key U = t ∧ t ∉ cteNames ∧ U.upper table.aliasOrName.name = q) ∨ d.get? q = some t := by
    intro ts
    induction ts with
    | nil => exact fun d hd => Or.inr hd
    | cons table ts ih =>
      intro d hd
      rcases ih _ hd with ⟨u, hu, h⟩ | hd
      · exact Or.inl ⟨u, List.mem_cons_of_mem _ hu, h⟩
      · dsimp only at hd
        split_ifs at hd with hcte
        · exact Or.inr hd
        · rw [Dict.get?_set] at hd
          split_ifs at hd with hq
          · cases hd
            exact Or.inl ⟨table, List.mem_cons_self, rfl, hcte, hq.symm⟩
          · exact Or.inr hd
  rcases hfold _ _ h with h | h
  · exact h
  · cases h

theorem scopeTables_subset (h : select ∈ tree.walk) : scopeTables select ⊆ tables tree.walk := by
  intro table htable
  obtain ⟨e, he, hcls⟩ := mem_tables.1 htable
  obtain ⟨item, hitem, hthis⟩ := List.mem_filterMap.1 he
  have hitem : item ∈ select.children := by
    rcases List.mem_append.1 hitem with hfrom | hjoin
    · exact List.mem_of_find?_eq_some (Option.mem_toList.1 hfrom)
    · exact (List.mem_filter.1 hjoin).1
  have hwalk : e ∈ tree.walk :=
    RoseTree.mem_walk_child (RoseTree.mem_walk_child h hitem) (List.mem_of_find?_eq_some hthis)
  exact mem_tables.2 ⟨e, hwalk, hcls⟩

end

/-! ## What acceptance means -/

/-- No check finds a violation in the tree. -/
structure Accepted (tree : Expression) : Prop where
  tables : ∀ t ∈ tables tree.walk, tableViolation U allow (cteNamesOf U tree) t = none
  columns : ∀ s ∈ tree.selects, ∀ c ∈ columns s.own,
    columnViolation U allow (cteNamesOf U tree) s c = none
  joins : ∀ s ∈ tree.selects, ∀ e ∈ s.own, e.cls = .eq →
    joinViolation U allow (cteNamesOf U tree) s e = none
  filters : ∀ s ∈ tree.selects, scopeNames U (cteNamesOf U tree) s ≠ [] →
    ∀ m ∈ allow.mandatoryFilters, filterViolation U G dialect (cteNamesOf U tree) s m = .ok none

variable {U G dialect allow}

theorem selectViolations_eq_nil_iff {cteNames : List String} {select : Expression} :
    selectViolations U G dialect allow cteNames select = .ok [] ↔
      (∀ c ∈ Expression.columns select.own, columnViolation U allow cteNames select c = none) ∧
        (∀ e ∈ select.own, e.cls = .eq → joinViolation U allow cteNames select e = none) ∧
        (scopeNames U cteNames select ≠ [] → ∀ m ∈ allow.mandatoryFilters,
          filterViolation U G dialect cteNames select m = .ok none) := by
  unfold selectViolations
  constructor
  · intro h
    obtain ⟨filterErrors, hfilters, h⟩ := Except.bind_eq_ok.1 h
    have hnil := Except.ok.inj h
    simp only [List.append_eq_nil_iff, List.filterMap_eq_nil_iff, List.mem_filter, decide_eq_true_eq,
      and_imp] at hnil
    obtain ⟨⟨hcolumns, hjoins⟩, hreduce⟩ := hnil
    refine ⟨hcolumns, hjoins, fun hne m hm => ?_⟩
    rw [if_neg hne] at hfilters
    obtain ⟨o, ho, hm⟩ := Except.exists_of_mapM_eq_ok hfilters hm
    cases o with
    | none => exact hm
    | some v => exact nomatch List.filterMap_eq_nil_iff.1 hreduce _ ho
  · rintro ⟨hcolumns, hjoins, hfilters⟩
    have hcolumns := List.filterMap_eq_nil_iff.2 hcolumns
    have hjoins : (select.own.filter fun e => e.cls = .eq).filterMap (joinViolation U allow cteNames select) = [] :=
      List.filterMap_eq_nil_iff.2 fun e he => by
        rw [List.mem_filter, decide_eq_true_eq] at he
        exact hjoins e he.1 he.2
    have hnone : ∀ ms : List String, (ms.map fun _ => (none : Option String)).reduceOption = [] := fun ms => by
      change (ms.map fun _ => (none : Option String)).filterMap id = []
      rw [List.filterMap_map]
      exact List.filterMap_eq_nil_iff.2 fun _ _ => rfl
    by_cases hscope : scopeNames U cteNames select = []
    · rw [if_pos hscope, hcolumns, hjoins]
      rfl
    · rw [if_neg hscope, hcolumns, hjoins, Except.mapM_eq_ok_map (hfilters hscope)]
      exact congrArg Except.ok (hnone _)

theorem treeViolations_eq_nil_iff {tree : Expression} :
    treeViolations U G dialect allow tree = .ok [] ↔ Accepted U G dialect allow tree := by
  unfold treeViolations
  constructor
  · intro h
    obtain ⟨perSelect, hsel, h⟩ := Except.bind_eq_ok.1 h
    obtain ⟨htables, hflat⟩ := List.append_eq_nil_iff.1 (Except.ok.inj h)
    have hround : ∀ s ∈ tree.selects, selectViolations U G dialect allow (cteNamesOf U tree) s = .ok [] := by
      intro s hs
      obtain ⟨errors, herrors, hs⟩ := Except.exists_of_mapM_eq_ok hsel hs
      rwa [List.flatten_eq_nil_iff.1 hflat errors herrors] at hs
    exact {
      tables := List.filterMap_eq_nil_iff.1 htables
      columns := fun s hs => (selectViolations_eq_nil_iff.1 (hround s hs)).1
      joins := fun s hs => (selectViolations_eq_nil_iff.1 (hround s hs)).2.1
      filters := fun s hs => (selectViolations_eq_nil_iff.1 (hround s hs)).2.2 }
  · intro h
    have htables := List.filterMap_eq_nil_iff.2 h.tables
    have hround : ∀ s ∈ tree.selects, selectViolations U G dialect allow (cteNamesOf U tree) s = .ok [] :=
      fun s hs => selectViolations_eq_nil_iff.2 ⟨h.columns s hs, h.joins s hs, h.filters s hs⟩
    have hflat : ∀ ss : List Expression, (ss.map fun _ => ([] : List String)).flatten = [] := fun ss => by
      rw [List.flatten_eq_nil_iff]
      simp
    simp only [htables, Except.mapM_eq_ok_map hround]
    exact congrArg Except.ok (hflat _)

/-- The kind of the statement is refused, whatever it reads. -/
def Refused (tree : Expression) : Prop :=
  (tree.cls ≠ .select ∧ tree.cls ≠ .union ∧ tree.selects = []) ∨
    ∃ e : Expression, e ∈ tree.walk ∧ ∃ name, e.cls = .forbidden name

section
variable {sqlText : String} {payload : Payload} {tree : Expression}
  (hallow : buildAllowlist U payload = .ok allow) (hparse : G.parse dialect sqlText = .ok [some tree])
include hallow hparse

theorem validate_of_refused (h : Refused tree) :
    ∃ v, validateSqlAgainstArtifact U G dialect sqlText payload = .ok [v] := by
  unfold validateSqlAgainstArtifact
  rw [hallow]
  simp only [hparse, bind, Except.bind]
  split_ifs with hkind
  · exact ⟨_, rfl⟩
  · obtain ⟨e, he, name, hname⟩ := h.resolve_left hkind
    split
    · exact ⟨_, rfl⟩
    · rename_i hnone
      have hnot := List.findSome?_eq_none_iff.1 hnone e he
      simp [hname] at hnot

theorem validate_of_not_refused (h : ¬ Refused tree) :
    validateSqlAgainstArtifact U G dialect sqlText payload = treeViolations U G dialect allow tree := by
  obtain ⟨hkind, hforbidden⟩ := not_or.1 h
  unfold validateSqlAgainstArtifact
  rw [hallow]
  simp only [hparse, bind, Except.bind]
  rw [if_neg hkind]
  split
  · rename_i name hname
    obtain ⟨e, he, hname⟩ := List.exists_of_findSome?_eq_some hname
    split at hname
    · rename_i hcls
      exact absurd ⟨e, he, _, hcls⟩ hforbidden
    · cases hname
  · rfl

/-- **What a text without violations went through**, and nothing else. -/
theorem validate_eq_nil_iff :
    validateSqlAgainstArtifact U G dialect sqlText payload = .ok [] ↔
      ¬ Refused tree ∧ Accepted U G dialect allow tree := by
  by_cases hrefused : Refused tree
  · obtain ⟨v, hv⟩ := validate_of_refused hallow hparse hrefused
    rw [hv]
    exact iff_of_false nofun fun h => h.1 hrefused
  · rw [validate_of_not_refused hallow hparse hrefused, treeViolations_eq_nil_iff]
    exact (and_iff_right hrefused).symm

theorem accepted_of_validate (h : validateSqlAgainstArtifact U G dialect sqlText payload = .ok []) :
    Accepted U G dialect allow tree :=
  ((validate_eq_nil_iff hallow hparse).1 h).2

end

end

end RoboMeta
