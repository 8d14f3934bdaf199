/-
  The columns of a bundle against the SQL guard.

  A bundle lists all columns of a table; the guard admits those that a binding
  names.  A column is usable if some selected artifact lets the query pass that
  selects it from its table (`Permits`).

  * `reports_iff`: when the guard reports neither a table nor a column;
  * `permits_iff`: which artifacts permit a column;
  * `usable_iff`: all columns are usable iff the bindings name all of them.
-/
import RoboMeta.FilterScope
import RoboMeta.SchemaContext

namespace RoboMeta

open Expression

/-! ## Violations of tables and columns -/

/-- A violation that is about a table or a column. -/
def AboutTableOrColumn (message : String) : Prop :=
  ∃ p ∈ ["허용되지 않은 테이블: ", "허용되지 않은 컬럼: ", "허용되지 않은 컬럼(비한정): "],
    p.toList <+: message.toList

/-- Texts that begin with neither of two prefixes of each other. -/
theorem not_about_of_prefix {q message : String} (hq : q.toList <+: message.toList)
    (hne : ∀ p ∈ ["허용되지 않은 테이블: ", "허용되지 않은 컬럼: ", "허용되지 않은 컬럼(비한정): "],
      ¬ p.toList <+: q.toList ∧ ¬ q.toList <+: p.toList) : ¬ AboutTableOrColumn message := by
  rintro ⟨p, hp, hprefix⟩
  rcases List.prefix_or_prefix_of_prefix hprefix hq with h | h
  · exact (hne p hp).1 h
  · exact (hne p hp).2 h

theorem prefix_append (p rest : String) : p.toList <+: (p ++ rest).toList := by
  rw [String.toList_append]
  exact List.prefix_append _ _

section
variable {U : Unicode} {G : Sqlglot} {dialect : String} {allow : Allowlist} {cteNames : List String}
  {select tree : Expression} {message : String}

theorem about_tableViolation {t : Table} (h : tableViolation U allow cteNames t = some message) :
    AboutTableOrColumn message := by
  unfold tableViolation at h
  split_ifs at h
  obtain rfl := Option.some.inj h
  exact ⟨_, by simp, prefix_append _ _⟩

theorem about_columnViolation {c : Column} (h : columnViolation U allow cteNames select c = some message) :
    AboutTableOrColumn message := by
  have hqualified : ∀ rest, AboutTableOrColumn ("허용되지 않은 컬럼: " ++ rest) := fun rest =>
    ⟨_, by simp, prefix_append _ rest⟩
  have hbare : ∀ rest, AboutTableOrColumn ("허용되지 않은 컬럼(비한정): " ++ rest) := fun rest =>
    ⟨_, by simp, prefix_append _ rest⟩
  unfold columnViolation at h
  split at h
  · cases h
  split at h
  · -- qualified
    split at h
    · cases h
    split_ifs at h
    obtain rfl := Option.some.inj h
    rw [String.append_assoc, String.append_assoc]
    exact hqualified _
  · split at h
    · cases h
    split at h
    · cases h
    · split_ifs at h
      obtain rfl := Option.some.inj h
      rw [String.append_assoc, String.append_assoc]
      exact hqualified _
    · split_ifs at h
      obtain rfl := Option.some.inj h
      exact hbare _

theorem not_about_joinViolation {e : Expression} (h : joinViolation U allow cteNames select e = some message) :
    ¬ AboutTableOrColumn message := by
  unfold joinViolation at h
  split at h
  · cases h
  · split_ifs at h
    obtain rfl := Option.some.inj h
    refine not_about_of_prefix (q := "허용되지 않은 join: ") ?_ (by decide)
    simp only [String.append_assoc]
    exact prefix_append _ _

theorem not_about_filterViolation {m : String}
    (h : filterViolation U G dialect cteNames select m = .ok (some message)) : ¬ AboutTableOrColumn message := by
  obtain ⟨f, -, h⟩ := Except.bind_eq_ok.1 h
  have h := Except.ok.inj h
  split_ifs at h
  obtain rfl := Option.some.inj h
  exact not_about_of_prefix (prefix_append _ _) (by decide)

/-- A loop that finds only violations of the kind finds none iff each round passes. -/
theorem forall_filterMap_not_iff {α : Type*} {f : α → Option String} {xs : List α}
    (h : ∀ {x message}, f x = some message → AboutTableOrColumn message) :
    (∀ message ∈ xs.filterMap f, ¬ AboutTableOrColumn message) ↔ ∀ x ∈ xs, f x = none := by
  constructor
  · intro hnone x hx
    rw [Option.eq_none_iff_forall_ne_some]
    exact fun message hmessage => hnone message (List.mem_filterMap.2 ⟨x, hx, hmessage⟩) (h hmessage)
  · intro hnone message hmessage
    obtain ⟨x, hx, hmessage⟩ := List.mem_filterMap.1 hmessage
    rw [hnone x hx] at hmessage
    cases hmessage

theorem select_reports_iff {errors : List String}
    (h : selectViolations U G dialect allow cteNames select = .ok errors) :
    (∀ message ∈ errors, ¬ AboutTableOrColumn message) ↔
      ∀ c ∈ columns select.own, columnViolation U allow cteNames select c = none := by
  obtain ⟨filterErrors, hfilters, h⟩ := Except.bind_eq_ok.1 h
  obtain rfl := Except.ok.inj h
  have hjoins : ∀ message ∈ (select.own.filter fun e => e.cls = .eq).filterMap (joinViolation U allow cteNames select),
      ¬ AboutTableOrColumn message := fun message hmessage => by
    obtain ⟨e, -, he⟩ := List.mem_filterMap.1 hmessage
    exact not_about_joinViolation he
  have hreduce : ∀ message ∈ filterErrors.reduceOption, ¬ AboutTableOrColumn message := fun message hmessage => by
    obtain ⟨o, hmem, rfl⟩ : ∃ o ∈ filterErrors, o = some message := List.mem_filterMap.1 hmessage
    split_ifs at hfilters
    · cases hfilters
      cases hmem
    · obtain ⟨m, -, hm⟩ := Except.exists_of_mem_mapM_eq_ok hfilters hmem
      exact not_about_filterViolation hm
  simp only [List.forall_mem_append, forall_filterMap_not_iff about_columnViolation, and_iff_left hjoins,
    and_iff_left hreduce]

/-- **When the guard reports neither a table nor a column.** -/
theorem reports_iff {errors : List String} (h : treeViolations U G dialect allow tree = .ok errors) :
    (∀ message ∈ errors, ¬ AboutTableOrColumn message) ↔
      (∀ t ∈ tables tree.walk, tableViolation U allow (cteNamesOf U tree) t = none) ∧
        ∀ s ∈ tree.selects, ∀ c ∈ columns s.own, columnViolation U allow (cteNamesOf U tree) s c = none := by
  obtain ⟨perSelect, hselects, h⟩ := Except.bind_eq_ok.1 h
  obtain rfl := Except.ok.inj h
  have hselect : (∀ errors ∈ perSelect, ∀ message ∈ errors, ¬ AboutTableOrColumn message) ↔
      ∀ s ∈ tree.selects, ∀ c ∈ columns s.own, columnViolation U allow (cteNamesOf U tree) s c = none :=
    Except.forall_mem_mapM_iff select_reports_iff hselects
  rw [List.forall_mem_append, forall_filterMap_not_iff about_tableViolation, ← hselect]
  refine and_congr_right fun _ => ⟨fun hflat errors herrors message hmessage => ?_, fun hall message hmessage => ?_⟩
  · exact hflat message (List.mem_flatten.2 ⟨errors, herrors, hmessage⟩)
  · obtain ⟨errors, herrors, hmessage⟩ := List.mem_flatten.1 hmessage
    exact hall errors herrors message hmessage

end

/-! ## The query of a column -/

/-- The column, qualified by the name of its table. -/
def ColumnEntry.column (entry : ColumnEntry) : Column where
  table := some ⟨entry.tableName, true⟩
  this := some ⟨entry.columnName, true⟩

def ColumnEntry.table (entry : ColumnEntry) : Table where
  db := some ⟨entry.schemaName, true⟩
  this := ⟨entry.tableName, true⟩

/-- `SELECT t.c FROM s.t`, of the entry for the column `c` of the table `t` in the schema `s`. -/
def columnQuery (entry : ColumnEntry) : Expression :=
  mk .root .select [
    mk .expressions (.column entry.column),
    mk .from_ .from_ [mk .this (.table entry.table)]]

section
variable (U : Unicode) (G : Sqlglot) (dialect : String) (payload : Payload)

/-- The guard returns, and reports neither a table nor a column. -/
def Permits (sqlText : String) : Prop :=
  ∃ errors, validateSqlAgainstArtifact U G dialect sqlText payload = .ok errors ∧
    ∀ message ∈ errors, ¬ AboutTableOrColumn message

/-- Every mandatory filter has a text that can be parsed. -/
def FiltersRead : Prop :=
  ∀ binding ∈ payload.bindings, binding.bindingType = .filter → binding.spec.filterIsMandatory →
    ∃ sql, binding.spec.expressionSql = some sql ∧ ∃ f, G.parseOne dialect sql = .ok f

/-- The columns that the bindings name. -/
def Payload.columnRefs : List ColumnRef := payload.bindings.flatMap fun binding => binding.spec.columnRefs

/-- A binding names the column of the table, or binds the table and the column is a star. -/
def Payload.Names (table column : String) : Prop :=
  (U.upper column = "*" ∧ ∃ t ∈ payload.boundTables, U.upper t = U.upper table) ∨
    ∃ ref ∈ payload.columnRefs, U.upper ref.objectName = U.upper table ∧
      ∃ name, ref.columnName = some name ∧ name ≠ "" ∧ U.upper name = U.upper column

end

section
variable {U : Unicode} {G : Sqlglot} {dialect : String} {payload : Payload} {allow : Allowlist} {entry : ColumnEntry}

theorem tables_columnQuery : tables (columnQuery entry).walk = [entry.table] := rfl

theorem cteNamesOf_columnQuery : cteNamesOf U (columnQuery entry) = [] := rfl

theorem selects_columnQuery : (columnQuery entry).selects = [columnQuery entry] := rfl

theorem columns_columnQuery : columns (columnQuery entry).own = [entry.column] := rfl

theorem aliasMap_columnQuery : aliasMap U [] (columnQuery entry) =
    [(U.upper entry.tableName, U.upper entry.tableName)] := rfl

theorem scopeNames_columnQuery : scopeNames U [] (columnQuery entry) = [U.upper entry.tableName] := rfl

theorem selectAliases_columnQuery : selectAliases U (columnQuery entry) = [] := rfl

theorem not_refused_columnQuery : ¬ Refused (columnQuery entry) := by
  rintro (⟨hkind, -⟩ | ⟨e, he, name, hname⟩)
  · exact hkind rfl
  · have hwalk : (columnQuery entry).walk = [columnQuery entry,
        mk .expressions (.column entry.column), mk .from_ .from_ [mk .this (.table entry.table)],
        mk .this (.table entry.table)] := rfl
    rw [hwalk] at he
    simp only [List.mem_cons, List.not_mem_nil, or_false] at he
    rcases he with rfl | rfl | rfl | rfl
    · cases hname
    · cases hname
    · cases hname
    · cases hname

theorem tableViolation_columnQuery :
    (∀ t ∈ tables (columnQuery entry).walk, tableViolation U allow (cteNamesOf U (columnQuery entry)) t = none) ↔
      U.upper entry.tableName ∈ allow.tables := by
  rw [tables_columnQuery, cteNamesOf_columnQuery, List.forall_mem_singleton, tableViolation_eq_none_iff]
  exact not_not

theorem columnViolation_columnQuery (htable : U.upper entry.tableName ∈ allow.tables) :
    (∀ s ∈ (columnQuery entry).selects, ∀ c ∈ columns s.own,
      columnViolation U allow (cteNamesOf U (columnQuery entry)) s c = none) ↔
      U.upper entry.columnName = "*" ∨ (U.upper entry.tableName, U.upper entry.columnName) ∈ allow.columns := by
  rw [selects_columnQuery, cteNamesOf_columnQuery, List.forall_mem_singleton, columns_columnQuery,
    List.forall_mem_singleton]
  by_cases hempty : entry.column.qualifier U = ""
  · -- an empty name does not qualify, and is the only one in sight
    have hlookup : columnLookup U [] (columnQuery entry) entry.column =
        if entry.column.key U = "*" then .nothing else .only (U.upper entry.tableName) (entry.column.key U) := by
      rw [columnLookup, if_neg List.not_mem_nil, if_neg (not_not.2 hempty), scopeNames_columnQuery]
      unfold bareLookup
      rw [selectAliases_columnQuery]
      exact if_congr (or_iff_left List.not_mem_nil) rfl rfl
    rw [columnViolation_eq_none_iff, hlookup]
    by_cases hstar : entry.column.key U = "*"
    · rw [if_pos hstar]
      exact iff_of_true id (Or.inl hstar)
    · rw [if_neg hstar]
      exact not_not.trans (or_iff_right hstar).symm
  · have hresolved : resolved U [] (columnQuery entry) entry.column = U.upper entry.tableName := by
      rw [resolved, aliasMap_columnQuery]
      simp [Dict.get?, Column.qualifier, identName, ColumnEntry.column]
    rw [columnViolation_of_qualified List.not_mem_nil hempty, hresolved, or_iff_right List.not_mem_nil,
      or_iff_right (not_not.2 htable)]
    rfl

theorem evaluable_columnQuery : Evaluable U G dialect allow (columnQuery entry) ↔
    ∀ m ∈ allow.mandatoryFilters, ∃ f, G.parseOne dialect m = .ok f := by
  rw [Evaluable, selects_columnQuery, cteNamesOf_columnQuery, List.forall_mem_singleton]
  exact forall_prop_of_true (List.cons_ne_nil (U.upper entry.tableName) [])

/-- What is asked of an allowlist. -/
theorem permits_iff_allowlist {sqlText : String} (hparse : G.parse dialect sqlText = .ok [some (columnQuery entry)]) :
    Permits U G dialect payload sqlText ↔ ∃ allow, buildAllowlist U payload = .ok allow ∧
      (∀ m ∈ allow.mandatoryFilters, ∃ f, G.parseOne dialect m = .ok f) ∧ U.upper entry.tableName ∈ allow.tables ∧
        (U.upper entry.columnName = "*" ∨ (U.upper entry.tableName, U.upper entry.columnName) ∈ allow.columns) := by
  constructor
  · rintro ⟨errors, herrors, hnone⟩
    obtain ⟨allow, hallow, -⟩ := Except.bind_eq_ok.1 herrors
    rw [validate_of_not_refused hallow hparse not_refused_columnQuery] at herrors
    obtain ⟨htables, hcolumns⟩ := (reports_iff herrors).1 hnone
    have htable := tableViolation_columnQuery.1 htables
    exact ⟨allow, hallow, evaluable_columnQuery.1 (treeViolations_ok_iff.1 ⟨errors, herrors⟩), htable,
      (columnViolation_columnQuery htable).1 hcolumns⟩
  · rintro ⟨allow, hallow, hfilters, htable, hcolumn⟩
    have hevaluable : Evaluable U G dialect allow (columnQuery entry) := evaluable_columnQuery.2 hfilters
    obtain ⟨errors, herrors⟩ := treeViolations_ok_iff.2 hevaluable
    refine ⟨errors, ?_, (reports_iff herrors).2
      ⟨tableViolation_columnQuery.2 htable, (columnViolation_columnQuery htable).2 hcolumn⟩⟩
    rw [validate_of_not_refused hallow hparse not_refused_columnQuery, herrors]

/-! ## Allowlists and bindings -/

theorem mem_columns_buildAllowlist (h : buildAllowlist U payload = .ok allow) {table column : String} :
    (table, column) ∈ allow.columns ↔ ∃ ref ∈ payload.columnRefs, U.upper ref.objectName = table ∧
      ∃ name, ref.columnName = some name ∧ name ≠ "" ∧ U.upper name = column := by
  obtain ⟨filters, -, h⟩ := Except.bind_eq_ok.1 h
  obtain rfl := Except.ok.inj h
  have hcolumns : (payload.bindings.flatMap fun binding => binding.spec.columnRefs.filterMap (ColumnRef.column U)) =
      payload.columnRefs.filterMap (ColumnRef.column U) := by
    rw [Payload.columnRefs, List.filterMap_flatMap]
  simp only [hcolumns, List.mem_filterMap]
  refine exists_congr fun ref => and_congr_right fun _ => ?_
  simp only [ColumnRef.column, Option.map_eq_some_iff, Option.filter_eq_some_iff, decide_eq_true_eq, Prod.mk.injEq]
  constructor
  · rintro ⟨name, ⟨hname, hne⟩, htable, hcolumn⟩
    exact ⟨htable, name, hname, hne, hcolumn⟩
  · rintro ⟨htable, name, hname, hne, hcolumn⟩
    exact ⟨name, ⟨hname, hne⟩, htable, hcolumn⟩

theorem objectName_mem_boundTables {ref : ColumnRef} (h : ref ∈ payload.columnRefs) :
    ref.objectName ∈ payload.boundTables := by
  obtain ⟨binding, hbinding, href⟩ := List.mem_flatMap.1 h
  exact List.mem_flatMap.2 ⟨binding, hbinding, List.mem_append_right _ (List.mem_map_of_mem href)⟩

/-- The table and the column are in the allowlist iff a binding names them. -/
theorem names_iff (h : buildAllowlist U payload = .ok allow) {table column : String} :
    (U.upper table ∈ allow.tables ∧ (U.upper column = "*" ∨ (U.upper table, U.upper column) ∈ allow.columns)) ↔
      payload.Names U table column := by
  rw [tables_buildAllowlist h, List.mem_map, mem_columns_buildAllowlist h]
  constructor
  · rintro ⟨htable, hstar | hcolumn⟩
    · exact Or.inl ⟨hstar, htable⟩
    · exact Or.inr hcolumn
  · rintro (⟨hstar, htable⟩ | ⟨ref, href, htable, hcolumn⟩)
    · exact ⟨htable, Or.inl hstar⟩
    · exact ⟨⟨ref.objectName, objectName_mem_boundTables href, htable⟩, Or.inr ⟨ref, href, htable, hcolumn⟩⟩

theorem mandatoryFilter_reads_iff {binding : Binding} :
    (∃ filters, binding.mandatoryFilter = .ok filters ∧ ∀ m ∈ filters, ∃ f, G.parseOne dialect m = .ok f) ↔
      (binding.IsMandatory → ∃ sql, binding.spec.expressionSql = some sql ∧ ∃ f, G.parseOne dialect sql = .ok f) := by
  by_cases hmandatory : binding.IsMandatory
  · rw [forall_prop_of_true hmandatory]
    constructor
    · rintro ⟨filters, hfilters, hread⟩
      cases htext : binding.spec.expressionSql with
      | none =>
        have herror : binding.mandatoryFilter = .error (.keyError "expression_sql") :=
          (if_pos hmandatory).trans (by rw [htext])
        rw [herror] at hfilters
        cases hfilters
      | some sql =>
        rw [Binding.mandatoryFilter_of_mandatory hmandatory htext] at hfilters
        obtain rfl := Except.ok.inj hfilters
        exact ⟨sql, rfl, hread sql (List.mem_singleton_self sql)⟩
    · rintro ⟨sql, htext, hread⟩
      refine ⟨[sql], Binding.mandatoryFilter_of_mandatory hmandatory htext, fun m hm => ?_⟩
      rwa [List.mem_singleton.1 hm]
  · exact iff_of_true ⟨[], Binding.mandatoryFilter_of_not hmandatory, nofun⟩ fun h => absurd h hmandatory

/-- The allowlist can be built, and its filters parsed, iff every mandatory filter can be read. -/
theorem filtersRead_iff : (∃ allow, buildAllowlist U payload = .ok allow ∧
      ∀ m ∈ allow.mandatoryFilters, ∃ f, G.parseOne dialect m = .ok f) ↔ FiltersRead G dialect payload := by
  constructor
  · rintro ⟨allow, hallow, hread⟩ binding hbinding
    obtain ⟨filters, hfilters, hallow⟩ := Except.bind_eq_ok.1 hallow
    obtain rfl := Except.ok.inj hallow
    obtain ⟨own, hown, hmandatory⟩ := Except.exists_of_mapM_eq_ok hfilters hbinding
    rw [← and_imp]
    exact mandatoryFilter_reads_iff.1 ⟨own, hmandatory, fun m hm => hread m (List.mem_flatten.2 ⟨own, hown, hm⟩)⟩
  · intro hread
    have hbinding : ∀ binding ∈ payload.bindings, ∃ filters, binding.mandatoryFilter = .ok filters ∧
        ∀ m ∈ filters, ∃ f, G.parseOne dialect m = .ok f := fun binding hbinding =>
      mandatoryFilter_reads_iff.2 fun h => hread binding hbinding h.1 h.2
    obtain ⟨filters, hfilters⟩ := Except.exists_mapM_eq_ok.2 fun binding hmem =>
      (hbinding binding hmem).imp fun _ h => h.1
    refine ⟨_, Except.bind_eq_ok.2 ⟨filters, hfilters, rfl⟩, fun m hm => ?_⟩
    obtain ⟨own, hown, hm⟩ := List.mem_flatten.1 hm
    obtain ⟨binding, hmem, hmandatory⟩ := Except.exists_of_mem_mapM_eq_ok hfilters hown
    obtain ⟨own', hown', hread'⟩ := hbinding binding hmem
    obtain rfl := Except.ok.inj (hmandatory.symm.trans hown')
    exact hread' m hm

/-- **Which artifacts permit a column.** -/
theorem permits_iff {sqlText : String} (hparse : G.parse dialect sqlText = .ok [some (columnQuery entry)]) :
    Permits U G dialect payload sqlText ↔
      FiltersRead G dialect payload ∧ payload.Names U entry.tableName entry.columnName := by
  rw [permits_iff_allowlist hparse, ← filtersRead_iff (U := U)]
  constructor
  · rintro ⟨allow, hallow, hread, hnames⟩
    exact ⟨⟨allow, hallow, hread⟩, (names_iff hallow).1 hnames⟩
  · rintro ⟨⟨allow, hallow, hread⟩, hnames⟩
    exact ⟨allow, hallow, hread, (names_iff hallow).2 hnames⟩

end

/-! ## The columns of a bundle -/

section
variable {K : Type*} [Field K] {selection : SelectionResult K} {snapshots : Dict String Snapshot}

/-- A condition on all columns of a bundle, in terms of the snapshots. -/
theorem forall_mem_columns_iff {P : String → String → Prop} (question : String) (glossary : Glossary)
    (executionContext : Option Json) (profiles codeValues fewShots : List Json) :
    (∀ entry ∈ (assembleBundle question selection snapshots glossary executionContext profiles codeValues
        fewShots).schemaContext.columns, P entry.tableName entry.columnName) ↔
      ∀ s ∈ selection.selected, ∀ snapshot ∈ snapshots.get? s.record.snapshotId, ∀ obj ∈ snapshot.objects,
        obj.objectName ∈ selection.allowedTables → ∀ column ∈ obj.columns, P obj.objectName column.columnName := by
  have hsnapshot : ∀ snapshot : Snapshot,
      (∀ entry ∈ (schemaContextFromSnapshot snapshot selection.allowedTables).2, P entry.tableName entry.columnName) ↔
        ∀ obj ∈ snapshot.objects, obj.objectName ∈ selection.allowedTables →
          ∀ column ∈ obj.columns, P obj.objectName column.columnName := fun snapshot => by
    simp only [schemaContextFromSnapshot, List.forall_mem_flatMap, List.forall_mem_map, List.mem_filter,
      decide_eq_true_eq, and_imp]
  simp only [← hsnapshot, assembleBundle_columns, List.forall_mem_flatMap, selection.mem_snapshotIds]
  constructor
  · intro h s hs snapshot hget
    have hentries := h _ ⟨s, hs, rfl⟩
    rwa [Option.mem_def.1 hget] at hentries
  · rintro h _ ⟨s, hs, rfl⟩
    cases hget : snapshots.get? s.record.snapshotId with
    | none => exact List.forall_mem_nil _
    | some snapshot => exact h s hs snapshot hget

/-- **Every column of a bundle is usable** iff the selected artifacts name every column of the tables they bind. -/
theorem usable_iff {U : Unicode} {G : Sqlglot} {dialect : String} (text : ColumnEntry → String) (question : String)
    (glossary : Glossary) (executionContext : Option Json) (profiles codeValues fewShots : List Json)
    (hparse : ∀ entry ∈ (assembleBundle question selection snapshots glossary executionContext profiles codeValues
      fewShots).schemaContext.columns, G.parse dialect (text entry) = .ok [some (columnQuery entry)]) :
    (∀ entry ∈ (assembleBundle question selection snapshots glossary executionContext profiles codeValues
        fewShots).schemaContext.columns,
      ∃ payload ∈ selection.payloads, Permits U G dialect payload (text entry)) ↔
    ∀ s ∈ selection.selected, ∀ snapshot ∈ snapshots.get? s.record.snapshotId, ∀ obj ∈ snapshot.objects,
      obj.objectName ∈ selection.allowedTables → ∀ column ∈ obj.columns, ∃ payload ∈ selection.payloads,
        FiltersRead G dialect payload ∧ payload.Names U obj.objectName column.columnName := by
  rw [← forall_mem_columns_iff (P := fun table column => ∃ payload ∈ selection.payloads,
    FiltersRead G dialect payload ∧ payload.Names U table column) question glossary executionContext profiles
      codeValues fewShots]
  refine forall₂_congr fun entry hentry => exists_congr fun payload => and_congr_right fun _ => ?_
  exact permits_iff (hparse entry hentry)

end

/-! ### A column that no binding names -/

/-- Gauges with an id and a level. -/
def levelSnapshot : Snapshot where
  tenantId := some "kwater"
  logicalDatabase := "river"
  objects := [{
    schemaName := "public"
    objectName := "gauge"
    columns := [{ columnName := "id", dataType := "integer" }, { columnName := "level", dataType := "numeric" }] }]

def levelSnapshots : Dict String Snapshot := [("snap-1", levelSnapshot)]

/-- A selection of one artifact, which names columns of gauges. -/
def selectedGauge (columnNames : List String) : SelectionResult ℚ :=
  selectedFilter { sourceColumns := columnNames.map fun c => ⟨⟨"river", "public", "gauge"⟩, some c⟩ }

def gaugeBundle (columnNames : List String) : Bundle ℚ :=
  assembleBundle "" (selectedGauge columnNames) levelSnapshots {} none [] [] []

def inQuotes (name : String) : String := "\"" ++ name ++ "\""

def columnQueryText (entry : ColumnEntry) : String :=
  "SELECT " ++ inQuotes entry.tableName ++ "." ++ inQuotes entry.columnName ++
    " FROM " ++ inQuotes entry.schemaName ++ "." ++ inQuotes entry.tableName

/-- The library on the queries of the columns of a bundle. -/
def sqlglotOn (columns : List ColumnEntry) : Sqlglot :=
  .ofTexts (columns.map fun entry => (columnQueryText entry, columnQuery entry))

theorem usable_iff_gauge : (gaugeBundle ["id", "level"]).schemaContext.columns ≠ [] ∧
    ∀ entry ∈ (gaugeBundle ["id", "level"]).schemaContext.columns,
      ∃ payload ∈ (selectedGauge ["id", "level"]).payloads,
        Permits .ascii (sqlglotOn (gaugeBundle ["id", "level"]).schemaContext.columns) "postgres" payload
          (columnQueryText entry) := by
  have hparse : ∀ entry ∈ (gaugeBundle ["id", "level"]).schemaContext.columns,
      (sqlglotOn (gaugeBundle ["id", "level"]).schemaContext.columns).parse "postgres" (columnQueryText entry) =
        .ok [some (columnQuery entry)] := by decide +kernel
  refine ⟨List.cons_ne_nil _ _, (usable_iff columnQueryText "" {} none [] [] [] hparse).2 ?_⟩
  have hnamed : ∀ column ∈ levelSnapshot.objects.flatMap SnapshotObject.columns,
      column.columnName ∈ ["id", "level"] := by decide +kernel
  intro s hs snapshot hsnapshot obj hobj _ column hcolumn
  obtain rfl := List.mem_singleton.1 hs
  obtain rfl : levelSnapshot = snapshot := Option.some.inj hsnapshot
  obtain rfl := List.mem_singleton.1 hobj
  refine ⟨_, List.mem_singleton_self _, fun binding hbinding _ hmandatory => ?_, Or.inr ?_⟩
  · obtain rfl := List.mem_singleton.1 hbinding
    cases hmandatory
  · have hmem := hnamed column (List.mem_flatMap.2 ⟨_, List.mem_singleton_self _, hcolumn⟩)
    refine ⟨⟨⟨"river", "public", "gauge"⟩, some column.columnName⟩, ?_, rfl, column.columnName, rfl, ?_, rfl⟩
    · exact List.mem_flatMap.2 ⟨_, List.mem_singleton_self _, List.mem_append_left _ (List.mem_map_of_mem hmem)⟩
    · intro hempty
      rw [hempty] at hmem
      exact absurd hmem (by decide)

/-- A column that no binding names is listed, and the guard reports it. -/
theorem not_usable_level : (gaugeBundle ["id"]).readiness.state = .ready ∧
    (∀ entry ∈ (gaugeBundle ["id"]).schemaContext.columns,
      (sqlglotOn (gaugeBundle ["id"]).schemaContext.columns).parse "postgres" (columnQueryText entry) =
        .ok [some (columnQuery entry)]) ∧
    ¬ ∀ entry ∈ (gaugeBundle ["id"]).schemaContext.columns, ∃ payload ∈ (selectedGauge ["id"]).payloads,
      Permits .ascii (sqlglotOn (gaugeBundle ["id"]).schemaContext.columns) "postgres" payload
        (columnQueryText entry) := by
  have hparse : ∀ entry ∈ (gaugeBundle ["id"]).schemaContext.columns,
      (sqlglotOn (gaugeBundle ["id"]).schemaContext.columns).parse "postgres" (columnQueryText entry) =
        .ok [some (columnQuery entry)] := by decide +kernel
  refine ⟨rfl, hparse, fun h => ?_⟩
  have hlevel : (⟨"river", "public", "gauge", "level", "numeric", true, none⟩ : ColumnEntry) ∈
      (gaugeBundle ["id"]).schemaContext.columns := by decide +kernel
  obtain ⟨payload, hpayload, hpermits⟩ := h _ hlevel
  obtain rfl := List.mem_singleton.1 hpayload
  rcases ((permits_iff (hparse _ hlevel)).1 hpermits).2 with ⟨hstar, -⟩ | ⟨ref, href, -, name, hname, -, hcolumn⟩
  · exact absurd hstar (by decide)
  · obtain rfl := List.mem_singleton.1 href
    obtain rfl := Option.some.inj hname
    exact absurd hcolumn (by decide)

end RoboMeta
