/-
  Larger payloads: what becomes of an accepted query when bindings are added.

  The columns of a qualifier that is no name of an allowed table are not
  checked.  So a grant that makes it one adds a check.

  * `Grants`: bindings are added, none of them a mandatory filter;
  * `Allowlist.Extends.not_fails`: the lookups that a larger allowlist relaxes;
  * `grantKept_iff`: which queries stay accepted.
-/
import RoboMeta.ArtifactContainment
import RoboMeta.Lookups

namespace RoboMeta

open Expression

/-! ## Payloads -/

/-- The binding is a mandatory filter. -/
def Binding.IsMandatory (binding : Binding) : Prop :=
  binding.bindingType = .filter ∧ binding.spec.filterIsMandatory = true

/-- Bindings are added, at any place, none of them a mandatory filter. -/
inductive Grants : List Binding → List Binding → Prop
  | nil : Grants [] []
  | keep {bs bs'} (b : Binding) : Grants bs bs' → Grants (b :: bs) (b :: bs')
  | add {bs bs'} {b : Binding} : ¬ b.IsMandatory → Grants bs bs' → Grants bs (b :: bs')

/-- More tables, columns and joins, the same filters. -/
structure Allowlist.Extends (allow allow' : Allowlist) : Prop where
  tables : allow.tables ⊆ allow'.tables
  columns : allow.columns ⊆ allow'.columns
  joinEdges : allow.joinEdges ⊆ allow'.joinEdges
  mandatoryFilters : allow'.mandatoryFilters = allow.mandatoryFilters

/-- What passes still passes, but for columns of tables newly allowed. -/
theorem Allowlist.Extends.not_fails {allow allow' : Allowlist} (hext : allow.Extends allow') {l : Lookup}
    (hl : ∀ t c, l ≠ .qualified t c) (h : ¬ l.Fails allow) : ¬ l.Fails allow' := by
  cases l with
  | nothing => exact h
  | table t => exact not_not.2 (hext.tables (not_not.1 h))
  | qualified t c => exact absurd rfl (hl t c)
  | only t c => exact not_not.2 (hext.columns (not_not.1 h))
  | anywhere c => exact not_not.2 (List.map_subset _ hext.columns (not_not.1 h))
  | edge l r => exact not_not.2 (hext.joinEdges (not_not.1 h))
  | unknown => exact h

theorem Grants.sublist {bs bs' : List Binding} (h : Grants bs bs') : bs.Sublist bs' := by
  induction h with
  | nil => exact .slnil
  | keep b _ ih => exact ih.cons_cons b
  | add _ _ ih => exact ih.cons _

theorem Binding.mandatoryFilter_of_not {b : Binding} (h : ¬ b.IsMandatory) : b.mandatoryFilter = .ok [] :=
  if_neg h

theorem Binding.mandatoryFilter_of_mandatory {b : Binding} (h : b.IsMandatory) {sql : String}
    (htext : b.spec.expressionSql = some sql) : b.mandatoryFilter = .ok [sql] :=
  (if_pos h).trans (by rw [htext])

/-- The filters of the added bindings are empty lists among the others. -/
theorem Grants.mapM_mandatoryFilter {bs bs' : List Binding} (h : Grants bs bs') {filters : List (List String)}
    (hfilters : bs.mapM Binding.mandatoryFilter = .ok filters) :
    ∃ filters', bs'.mapM Binding.mandatoryFilter = .ok filters' ∧ filters'.flatten = filters.flatten := by
  induction h generalizing filters with
  | nil => exact ⟨filters, hfilters, rfl⟩
  | @keep bs bs' b _ ih =>
    rw [List.mapM_cons] at hfilters
    obtain ⟨f, hf, hrest⟩ := Except.bind_eq_ok.1 hfilters
    obtain ⟨fs, hfs, hcons⟩ := Except.bind_eq_ok.1 hrest
    obtain ⟨fs', hfs', hflatten⟩ := ih hfs
    cases Except.ok.inj hcons
    refine ⟨f :: fs', ?_, by rw [List.flatten_cons, List.flatten_cons, hflatten]⟩
    rw [List.mapM_cons, hf]
    exact Except.bind_eq_ok.2 ⟨f, rfl, Except.bind_eq_ok.2 ⟨fs', hfs', rfl⟩⟩
  | @add bs bs' b hb _ ih =>
    obtain ⟨fs', hfs', hflatten⟩ := ih hfilters
    refine ⟨[] :: fs', ?_, by rw [List.flatten_cons, List.nil_append, hflatten]⟩
    rw [List.mapM_cons, Binding.mandatoryFilter_of_not hb]
    exact Except.bind_eq_ok.2 ⟨[], rfl, Except.bind_eq_ok.2 ⟨fs', hfs', rfl⟩⟩

section
variable {U : Unicode} {payload payload' : Payload}

theorem Grants.buildAllowlist (h : Grants payload.bindings payload'.bindings) {allow : Allowlist}
    (hallow : buildAllowlist U payload = .ok allow) :
    ∃ allow', RoboMeta.buildAllowlist U payload' = .ok allow' ∧ allow.Extends allow' := by
  obtain ⟨filters, hfilters, hallow⟩ := Except.bind_eq_ok.1 hallow
  obtain ⟨filters', hfilters', hflatten⟩ := h.mapM_mandatoryFilter hfilters
  cases Except.ok.inj hallow
  refine ⟨_, Except.bind_eq_ok.2 ⟨filters', hfilters', rfl⟩, ?_⟩
  have hmem : ∀ {β : Type} (f : Binding → List β), payload.bindings.flatMap f ⊆ payload'.bindings.flatMap f := by
    intro β f x hx
    obtain ⟨b, hb, hx⟩ := List.mem_flatMap.1 hx
    exact List.mem_flatMap.2 ⟨b, h.sublist.subset hb, hx⟩
  exact ⟨hmem _, hmem _, hmem _, hflatten⟩

end

/-! ## The checks -/

/-- The column is qualified by what is no name in its SELECT, but that of a table
    newly allowed. -/
structure NewlyConsulted (U : Unicode) (allow allow' : Allowlist) (cteNames : List String) (select : Expression)
    (c : Column) : Prop where
  qualified : c.qualifier U ≠ ""
  notCte : c.qualifier U ∉ cteNames
  notAlias : c.qualifier U ∉ (aliasMap U cteNames select).map Prod.fst
  granted : c.qualifier U ∈ allow'.tables
  new : c.qualifier U ∉ allow.tables

section
variable {U : Unicode} {G : Sqlglot} {dialect : String} {allow allow' : Allowlist} {tree s : Expression} {c : Column}

theorem resolved_of_notMem (h : c.qualifier U ∉ (aliasMap U (cteNamesOf U tree) s).map Prod.fst) :
    resolved U (cteNamesOf U tree) s c = c.qualifier U := by
  have hnone : (aliasMap U (cteNamesOf U tree) s).get? (c.qualifier U) = none :=
    Option.not_isSome_iff_eq_none.1 fun hsome => h (Dict.get?_isSome.1 hsome)
  rw [resolved, hnone, Option.getD_none]

/-- What an alias stands for was looked up. -/
theorem Accepted.alias_allowed (h : Accepted U G dialect allow tree) (hs : s ∈ tree.selects) {q t : String}
    (hq : (aliasMap U (cteNamesOf U tree) s).get? q = some t) : t ∈ allow.tables := by
  obtain ⟨table, htable, rfl, hcte, -⟩ := exists_of_get?_aliasMap hq
  exact h.table_allowed (scopeTables_subset (mem_selects.1 hs).1 htable) hcte

/-- A qualifier whose table is newly consulted is the name of that table. -/
theorem Accepted.newlyConsulted (h : Accepted U G dialect allow tree) (hs : s ∈ tree.selects)
    (hqual : c.qualifier U ≠ "") (hcte : c.qualifier U ∉ cteNamesOf U tree)
    (hgranted : resolved U (cteNamesOf U tree) s c ∈ allow'.tables)
    (hnew : resolved U (cteNamesOf U tree) s c ∉ allow.tables) :
    NewlyConsulted U allow allow' (cteNamesOf U tree) s c ∧ resolved U (cteNamesOf U tree) s c = c.qualifier U := by
  have hnot : c.qualifier U ∉ (aliasMap U (cteNamesOf U tree) s).map Prod.fst := by
    intro hmem
    obtain ⟨t, ht⟩ := Option.isSome_iff_exists.1 (Dict.get?_isSome.2 hmem)
    have hresolved : resolved U (cteNamesOf U tree) s c = t := by rw [resolved, ht, Option.getD_some]
    exact hnew (hresolved ▸ h.alias_allowed hs ht)
  have hresolved := resolved_of_notMem hnot
  rw [hresolved] at hgranted hnew
  exact ⟨⟨hqual, hcte, hnot, hgranted, hnew⟩, hresolved⟩

/-- An unqualified column that is let pass is let pass under a larger allowlist. -/
theorem columnViolation_mono_of_unqualified {cteNames : List String} (hext : allow.Extends allow')
    (hqual : c.qualifier U = "") (h : columnViolation U allow cteNames s c = none) :
    columnViolation U allow' cteNames s c = none := by
  refine columnViolation_eq_none_iff.2 (hext.not_fails (fun t name => ?_) (columnViolation_eq_none_iff.1 h))
  rw [columnLookup, if_neg (not_not.2 hqual)]
  split_ifs
  · exact Lookup.noConfusion
  · exact bareLookup_ne_qualified

/-- **The column check under a larger allowlist** finds fault with the columns
    newly consulted only. -/
theorem Accepted.columnViolation_iff (h : Accepted U G dialect allow tree) (hext : allow.Extends allow')
    (hs : s ∈ tree.selects) (hc : c ∈ Expression.columns s.own) :
    columnViolation U allow' (cteNamesOf U tree) s c = none ↔
      (NewlyConsulted U allow allow' (cteNamesOf U tree) s c →
        c.key U = "*" ∨ (c.qualifier U, c.key U) ∈ allow'.columns) := by
  have hold := h.columns s hs c hc
  by_cases hcte : c.qualifier U ∈ cteNamesOf U tree
  · exact iff_of_true (if_pos hcte) fun hnew => absurd hcte hnew.notCte
  by_cases hqual : c.qualifier U = ""
  · exact iff_of_true (columnViolation_mono_of_unqualified hext hqual hold)
      fun hnew => absurd hqual hnew.qualified
  rw [columnViolation_of_qualified hcte hqual] at hold ⊢
  constructor
  · intro hnone hnew
    rw [resolved_of_notMem hnew.notAlias] at hnone
    exact (hnone.resolve_left hcte).resolve_left (not_not.2 hnew.granted)
  · intro hnew
    by_cases hgranted : resolved U (cteNamesOf U tree) s c ∈ allow'.tables
    · by_cases hallowed : resolved U (cteNamesOf U tree) s c ∈ allow.tables
      · -- it was looked up before, in fewer columns
        rcases hold with hold | hold | hold | hold
        · exact Or.inl hold
        · exact absurd hallowed hold
        · exact Or.inr (Or.inr (Or.inl hold))
        · exact Or.inr (Or.inr (Or.inr (hext.columns hold)))
      · obtain ⟨hconsulted, hresolved⟩ := h.newlyConsulted hs hqual hcte hgranted hallowed
        rw [hresolved]
        exact Or.inr (Or.inr (hnew hconsulted))
    · exact Or.inr (Or.inl hgranted)

theorem Accepted.tables_mono (h : Accepted U G dialect allow tree) (hext : allow.Extends allow') {t : Table}
    (ht : t ∈ Expression.tables tree.walk) : tableViolation U allow' (cteNamesOf U tree) t = none := by
  have hpasses := tableViolation_eq_none_iff.1 (h.tables t ht)
  refine tableViolation_eq_none_iff.2 (hext.not_fails (fun t' name => ?_) hpasses)
  rw [tableLookup]
  split_ifs
  · exact Lookup.noConfusion
  · exact Lookup.noConfusion

theorem joinViolation_mono {cteNames : List String} {e : Expression} (hext : allow.Extends allow')
    (h : joinViolation U allow cteNames s e = none) : joinViolation U allow' cteNames s e = none := by
  refine joinViolation_eq_none_iff.2 (hext.not_fails (fun t name => ?_) (joinViolation_eq_none_iff.1 h))
  rw [joinLookup]
  split
  · exact Lookup.noConfusion
  · exact Lookup.noConfusion

/-- **A larger allowlist** keeps an accepted tree iff it has the columns newly
    consulted. -/
theorem Accepted.extends_iff (h : Accepted U G dialect allow tree) (hext : allow.Extends allow') :
    Accepted U G dialect allow' tree ↔
      ∀ s ∈ tree.selects, ∀ c ∈ Expression.columns s.own,
        NewlyConsulted U allow allow' (cteNamesOf U tree) s c →
        c.key U = "*" ∨ (c.qualifier U, c.key U) ∈ allow'.columns := by
  constructor
  · exact fun h' s hs c hc => (h.columnViolation_iff hext hs hc).1 (h'.columns s hs c hc)
  · intro hnew
    exact {
      tables := fun t ht => h.tables_mono hext ht
      columns := fun s hs c hc => (h.columnViolation_iff hext hs hc).2 (hnew s hs c hc)
      joins := fun s hs e he heq => joinViolation_mono hext (h.joins s hs e he heq)
      filters := by
        rw [hext.mandatoryFilters]
        exact h.filters }

end

/-! ## Queries -/

section
variable {U : Unicode} {G : Sqlglot} {dialect sqlText : String} {payload payload' : Payload}
  {allow allow' : Allowlist} {tree : Expression}

/-- **A query that is accepted stays accepted** under more bindings iff they
    also have the columns whose qualifier they make the name of a table. -/
theorem grantKept_iff (hgrants : Grants payload.bindings payload'.bindings)
    (hallow : buildAllowlist U payload = .ok allow) (hallow' : buildAllowlist U payload' = .ok allow')
    (hparse : G.parse dialect sqlText = .ok [some tree])
    (h : validateSqlAgainstArtifact U G dialect sqlText payload = .ok []) :
    validateSqlAgainstArtifact U G dialect sqlText payload' = .ok [] ↔
      ∀ s ∈ tree.selects, ∀ c ∈ columns s.own, NewlyConsulted U allow allow' (cteNamesOf U tree) s c →
        c.key U = "*" ∨ (c.qualifier U, c.key U) ∈ allow'.columns := by
  obtain ⟨hnot, haccepted⟩ := (validate_eq_nil_iff hallow hparse).1 h
  obtain ⟨_, hbuilt, hext⟩ := hgrants.buildAllowlist hallow
  cases hallow'.symm.trans hbuilt
  rw [validate_eq_nil_iff hallow' hparse, and_iff_right hnot, haccepted.extends_iff hext]

end

/-! ## A grant that forbids -/

/-- The derived table has the name of a table that is not allowed yet. -/
def derivedTable : String × Expression :=
  ("SELECT u.x FROM (SELECT t.x FROM t) AS u",
    mk .root .select [
      mk .expressions (.column { table := some ⟨"u", false⟩, this := some ⟨"x", false⟩ }),
      mk .from_ .from_ [
        mk .this (.subquery (some ⟨"u", false⟩) []) [
          mk .this .select [
            mk .expressions (.column { table := some ⟨"t", false⟩, this := some ⟨"x", false⟩ }),
            mk .from_ .from_ [mk .this (.table { this := ⟨"t", false⟩ })]]]]])

def grantOf (table : String) (columns : List String) : Binding where
  bindingType := .other "DIMENSION"
  name := table
  spec := {
    baseObject := some ⟨"db", "public", table⟩
    sourceColumns := columns.map fun c =>
      { logicalDatabase := "db", schemaName := "public", objectName := table, columnName := some c } }

/-- The table `t` with the column `x`, and then also the table `u` with `y`. -/
def smaller : Payload := { bindings := [grantOf "t" ["x"]] }

def larger : Payload := { bindings := [grantOf "t" ["x"], grantOf "u" ["y"]] }

theorem grants_larger : Grants smaller.bindings larger.bindings :=
  .keep _ (.add (fun h => nomatch h.1) .nil)

theorem derivedTable_accepted :
    validateSqlAgainstArtifact .ascii (.ofTexts [derivedTable]) dialectPostgres derivedTable.1 smaller = .ok [] := by
  decide

theorem grantKept_derivedTable :
    Grants smaller.bindings larger.bindings ∧
      validateSqlAgainstArtifact .ascii (.ofTexts [derivedTable]) dialectPostgres derivedTable.1 smaller = .ok [] ∧
      validateSqlAgainstArtifact .ascii (.ofTexts [derivedTable]) dialectPostgres derivedTable.1 larger ≠ .ok [] :=
  ⟨grants_larger, derivedTable_accepted, by decide⟩

theorem grantKept_iff_derivedTable :
    validateSqlAgainstArtifact .ascii (.ofTexts [derivedTable]) dialectPostgres derivedTable.1 larger = .ok [] ↔
      ∀ s ∈ derivedTable.2.selects, ∀ c ∈ columns s.own,
        NewlyConsulted .ascii ⟨["T", "T"], [("T", "X")], [], []⟩
          ⟨["T", "T", "U", "U"], [("T", "X"), ("U", "Y")], [], []⟩ (cteNamesOf .ascii derivedTable.2) s c →
        c.key .ascii = "*" ∨ (c.qualifier .ascii, c.key .ascii) ∈ [("T", "X"), ("U", "Y")] :=
  grantKept_iff grants_larger rfl rfl rfl derivedTable_accepted

end RoboMeta
