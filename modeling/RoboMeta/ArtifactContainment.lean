/-
  What an accepted query can reach: tables, columns and join edges.

  The guard reads names through the alias map of one SELECT and through one set
  of CTE names; `SqlScope` says what they refer to.  For each of the three
  checks the property wanted of the query is defined on the scoping, then the
  references that the check lets pass unseen, and the main theorem states that
  an accepted query has the property iff these references have it.

  * `TablesContained`, `ColumnsContained`, `JoinsContained`: the properties;
  * `cteNamesOf`, `consultedColumn`, `checkedSides`: what each check looks at;
  * `tablesContained_iff`, `columnsContained_iff`, `joinsContained_iff`.
-/
import RoboMeta.ArtifactGuard

namespace RoboMeta

open Expression

section
variable (U : Unicode) (D : Database) (allow : Allowlist) (tree : Expression)

/-! ## Tables -/

/-- Every physical table of the query is allowed. -/
def TablesContained : Prop := ∀ t, PhysicalRef D tree t → t.key U ∈ allow.tables

/-! ## Columns -/

/-- A column reference of the query is bound to the column `n` of the physical table `t`. -/
def ColumnBound (sc : Scope) (c : Column) (t : Table) (n : String) : Prop :=
  (∃ e, Reads D tree sc e ∧ e.cls = .column c) ∧ BoundTo D sc c t n

/-- A name in a USING clause of the query is bound to the column `n` of the physical table `t`. -/
def UsingBound (t : Table) (n : String) : Prop :=
  ∃ sc e names, Reads D tree sc e ∧ e.cls = .join (.using_ names) ∧
    ∃ i ∈ names, ∃ o : Occurrence, (o, n) ∈ mergedBy D sc e i ∧ o.table = t

def ColumnsContained : Prop :=
  (∀ sc c t n, ColumnBound D tree sc c t n → (t.key U, U.upper n) ∈ allow.columns) ∧
    ∀ t n, UsingBound D tree t n → (t.key U, U.upper n) ∈ allow.columns

/-- The table whose columns the guard consults for a reference, if there is one. -/
def consultedTable (cteNames : List String) (select : Expression) (c : Column) : Option String :=
  if c.qualifier U ∈ cteNames ∨ c.key U = "*" then none
  else if c.qualifier U ≠ "" then
    if resolved U cteNames select c ∈ cteNames ∨ resolved U cteNames select c ∉ allow.tables then none
    else some (resolved U cteNames select c)
  else if c.key U ∈ selectAliases U select then none
  else match scopeNames U cteNames select with | [only] => some only | _ => none

/-- The column that the guard looks up for a reference, if it does. -/
def consultedColumn (cteNames : List String) (select : Expression) (c : Column) : Option (String × String) :=
  (consultedTable U allow cteNames select c).map fun t => (t, c.key U)

/-! ## Join edges -/

mutual
/-- An operand without the parentheses around it. -/
def unparen : Expression → Expression
  | .node l ts => if l.cls = .paren then unparenThis (.node l ts) ts else .node l ts

def unparenThis (e : Expression) : List Expression → Expression
  | [] => e
  | t :: ts => if t.label.arg = .this then unparen t else unparenThis e ts
end

def operand? (k : Arg) (e : Expression) : Option Column := (e.arg? k).bind (columnOf? ∘ unparen)

/-- What the operands of an expression see: not the output columns. -/
def Scope.operands (sc : Scope) : Scope := { sc with outputNames := [] }

/-- The names differ in a part that both spell out. -/
def Table.Differs (t u : Table) : Prop :=
  D.fold t.this ≠ D.fold u.this ∨ (∃ a ∈ t.db, ∃ b ∈ u.db, D.fold a ≠ D.fold b) ∨
    ∃ a ∈ t.catalog, ∃ b ∈ u.catalog, D.fold a ≠ D.fold b

/-- The node `e` equates the column `m` of one physical table with the column `n`
    of another. -/
structure Joins (sc : Scope) (e : Expression) (t : Table) (m : String) (u : Table) (n : String) : Prop where
  reads : Reads D tree sc e
  eq : e.cls = .eq
  left : ∃ l, operand? .this e = some l ∧ BoundTo D sc.operands l t m
  right : ∃ r, operand? .expression e = some r ∧ BoundTo D sc.operands r u n
  different : t.Differs D u

def JoinsContained : Prop :=
  ∀ sc e t m u n, Joins D tree sc e t m u n →
    ({(t.key U, U.upper m), (u.key U, U.upper n)} : Finset (String × String)) ∈ allow.joinEdges

/-! ## What acceptance amounts to -/

variable {U D allow tree} {G : Sqlglot} {dialect sqlText : String} {payload : Payload}

/-- The guard has looked up every table that bears no CTE's name. -/
theorem Accepted.table_allowed (h : Accepted U G dialect allow tree) {t : Table}
    (ht : t ∈ Expression.tables tree.walk) (hcte : t.key U ∉ cteNamesOf U tree) : t.key U ∈ allow.tables := by
  have hnone := h.tables t ht
  simpa [tableViolation, hcte] using hnone

/-- The guard has found every column that it looks up. -/
theorem Accepted.column_allowed (h : Accepted U G dialect allow tree) {s : Expression} {c : Column}
    {p : String × String} (hs : s ∈ tree.selects) (hc : c ∈ Expression.columns s.own)
    (hp : consultedColumn U allow (cteNamesOf U tree) s c = some p) : p ∈ allow.columns := by
  have hnone := h.columns s hs c hc
  obtain ⟨t, ht, rfl⟩ := Option.map_eq_some_iff.1 hp
  unfold consultedTable at ht
  split_ifs at ht with hexempt hqual hresolved halias
  · obtain ⟨hcte, hstar⟩ := not_or.1 hexempt
    cases ht
    simpa [columnViolation, hcte, hqual, hresolved, hstar] using hnone
  · obtain ⟨hcte, hstar⟩ := not_or.1 hexempt
    simp only [columnViolation, if_neg hcte, if_neg hqual, hstar, halias, or_self, if_false] at hnone
    split at ht
    · rename_i only honly
      cases ht
      simpa [honly] using hnone
    · cases ht

/-- The guard has looked up every edge that it checks. -/
theorem Accepted.join_declared (h : Accepted U G dialect allow tree) {s e : Expression}
    {l r : String × String} (hs : s ∈ tree.selects) (he : e ∈ s.own) (heq : e.cls = .eq)
    (hlr : checkedSides U (cteNamesOf U tree) s e = some (l, r)) : {l, r} ∈ allow.joinEdges := by
  have hnone := h.joins s hs e he heq
  simpa [joinViolation, hlr] using hnone

/-- **Table containment.**  The physical tables of an accepted query are allowed
    iff those are that bear the name of a CTE of the query. -/
theorem tablesContained_iff (hallow : buildAllowlist U payload = .ok allow)
    (hparse : G.parse dialect sqlText = .ok [some tree])
    (h : validateSqlAgainstArtifact U G dialect sqlText payload = .ok []) :
    TablesContained U D allow tree ↔
      ∀ t, PhysicalRef D tree t → t.key U ∈ cteNamesOf U tree → t.key U ∈ allow.tables := by
  refine ⟨fun hall t ht _ => hall t ht, fun hshadowed t ht => ?_⟩
  by_cases hcte : t.key U ∈ cteNamesOf U tree
  · exact hshadowed t ht hcte
  · exact (accepted_of_validate hallow hparse h).table_allowed ht.mem_tables hcte

/-- The CTE reads the table of its own name. -/
def selfNamed : String × Expression :=
  ("WITH t AS (SELECT * FROM t) SELECT * FROM t",
    mk .root .select [
      mk .expressions .star,
      mk .from_ .from_ [mk .this (.table { this := ⟨"t", false⟩ })],
      mk .with_ (.with_ false) [
        mk .expressions (.cte ⟨"t", false⟩ []) [
          mk .this .select [
            mk .expressions .star,
            mk .from_ .from_ [mk .this (.table { this := ⟨"t", false⟩ })]]]]])

theorem selfNamed_accepted :
    validateSqlAgainstArtifact .ascii (.ofTexts [selfNamed]) dialectPostgres selfNamed.1 {} = .ok [] := by
  decide

theorem selfNamed_physical : PhysicalRef (.postgres fun _ => []) selfNamed.2 { this := ⟨"t", false⟩ } :=
  ⟨_, _, .child (i := 0) (.child (i := 1) (.child (i := 0) (.child (i := 0) (.child (i := 2) .root
    rfl) rfl) rfl) rfl) rfl, rfl, rfl⟩

theorem tablesContained_iff_selfNamed :
    TablesContained .ascii (.postgres fun _ => []) ⟨[], [], [], []⟩ selfNamed.2 ↔
      ∀ t, PhysicalRef (.postgres fun _ => []) selfNamed.2 t →
        t.key .ascii ∈ cteNamesOf .ascii selfNamed.2 → t.key .ascii ∈ [] :=
  tablesContained_iff rfl rfl selfNamed_accepted

theorem not_forall_tablesContained :
    ¬ ∀ (U : Unicode) (G : Sqlglot) (D : Database) (sqlText : String) (payload : Payload)
      (allow : Allowlist) (tree : Expression), buildAllowlist U payload = .ok allow →
      G.parse dialectPostgres sqlText = .ok [some tree] →
      validateSqlAgainstArtifact U G dialectPostgres sqlText payload = .ok [] →
      TablesContained U D allow tree := by
  intro h
  have hcontained := h .ascii (.ofTexts [selfNamed]) (.postgres fun _ => []) selfNamed.1 {}
    ⟨[], [], [], []⟩ selfNamed.2 rfl rfl selfNamed_accepted
  exact List.not_mem_nil (hcontained _ selfNamed_physical)

/-- The column is called what an item of the select list is called. -/
def selfAliased : String × Expression :=
  ("SELECT secret AS secret FROM t",
    mk .root .select [
      mk .expressions (.alias_ ⟨"secret", false⟩) [mk .this (.column { this := some ⟨"secret", false⟩ })],
      mk .from_ .from_ [mk .this (.table { this := ⟨"t", false⟩ })]])

/-- The table `t` without its columns. -/
def tableOnly : Payload where
  bindings := [{
    bindingType := .other "TABLE"
    name := "t"
    spec := { baseObject := some ⟨"db", "public", "t"⟩ } }]

theorem selfAliased_accepted :
    validateSqlAgainstArtifact .ascii (.ofTexts [selfAliased]) dialectPostgres selfAliased.1 tableOnly =
      .ok [] := by
  decide

theorem selfAliased_bound : ∃ sc, ColumnBound (.postgres fun _ => ["secret"]) selfAliased.2 sc
    { this := some ⟨"secret", false⟩ } { this := ⟨"t", false⟩ } "secret" :=
  ⟨_, ⟨_, .child (i := 0) (.child (i := 0) .root rfl) rfl, rfl⟩, _, .head _, rfl⟩

/-- One side of the join is not qualified. -/
def halfQualified : String × Expression :=
  ("SELECT a.x FROM t AS a JOIN u AS b ON a.x = y",
    mk .root .select [
      mk .expressions (.column { table := some ⟨"a", false⟩, this := some ⟨"x", false⟩ }),
      mk .from_ .from_ [mk .this (.table { this := ⟨"t", false⟩, alias_ := some ⟨"a", false⟩ })],
      mk .joins (.join .on) [
        mk .this (.table { this := ⟨"u", false⟩, alias_ := some ⟨"b", false⟩ }),
        mk .on .eq [
          mk .this (.column { table := some ⟨"a", false⟩, this := some ⟨"x", false⟩ }),
          mk .expression (.column { this := some ⟨"y", false⟩ })]]])

/-- The tables `t` and `u` with a column each, and no join. -/
def twoTables : Payload where
  bindings := [{
    bindingType := .other "DIMENSION"
    name := "x"
    spec := { sourceColumns := [
      { logicalDatabase := "db", schemaName := "public", objectName := "t", columnName := some "x" },
      { logicalDatabase := "db", schemaName := "public", objectName := "u", columnName := some "y" }] } }]

def twoColumns (t : Table) : List String := if t.this.name = "t" then ["x"] else ["y"]

theorem halfQualified_accepted :
    validateSqlAgainstArtifact .ascii (.ofTexts [halfQualified]) dialectPostgres halfQualified.1 twoTables =
      .ok [] := by
  decide

theorem halfQualified_joins : ∃ sc e, Joins (.postgres twoColumns) halfQualified.2 sc e
    { this := ⟨"t", false⟩, alias_ := some ⟨"a", false⟩ } "x"
    { this := ⟨"u", false⟩, alias_ := some ⟨"b", false⟩ } "y" :=
  ⟨_, _, {
    reads := .child (i := 1) (.child (i := 2) .root rfl) rfl
    eq := rfl
    left := ⟨_, rfl, _, .head _, rfl⟩
    right := ⟨_, rfl, _, .head _, rfl⟩
    different := Or.inl (by decide) }⟩

end

end RoboMeta
