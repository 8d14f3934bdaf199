/-
  The bundle against the SQL guard.

  The assembler and the guard walk the bindings of the selected artifacts each on
  its own: the bundle advertises tables and joins, and the guard admits those of
  the allowlists.

  * `keepFirst` and its lemmas: of the same elements the first;
  * `MatchesGuard`: the tables are those of the allowlists, each join is
    advertised once, and what is advertised the guard admits;
  * `assembleBundle_matchesGuard`.
-/
import RoboMeta.Lib.Outcome
import RoboMeta.Bundle

namespace RoboMeta

/-! ## The first of each kind -/

section
variable {α : Type*} (same : α → α → Prop) [DecidableRel same] {xs : List α} {x : α}

/-- Of elements that are the same the first. -/
def keepFirst (xs : List α) : List α :=
  xs.foldl (fun acc x => if ∃ y ∈ acc, same y x then acc else acc ++ [x]) []

theorem keepFirst_concat (xs : List α) (x : α) : keepFirst same (xs ++ [x]) =
    if ∃ y ∈ keepFirst same xs, same y x then keepFirst same xs else keepFirst same xs ++ [x] := by
  rw [keepFirst, List.foldl_append]
  rfl

theorem mem_of_mem_keepFirst (hx : x ∈ keepFirst same xs) : x ∈ xs := by
  induction xs using List.reverseRecOn with
  | nil => exact hx
  | append_singleton xs y ih =>
    rw [keepFirst_concat] at hx
    split_ifs at hx
    · exact List.mem_append_left _ (ih hx)
    · rcases List.mem_append.1 hx with hx | hx
      · exact List.mem_append_left _ (ih hx)
      · exact List.mem_append_right _ hx

theorem exists_mem_keepFirst (hrefl : ∀ x, same x x) (hx : x ∈ xs) : ∃ y ∈ keepFirst same xs, same y x := by
  induction xs using List.reverseRecOn with
  | nil => simp at hx
  | append_singleton xs z ih =>
    rw [keepFirst_concat]
    split_ifs with hz
    · rcases List.mem_append.1 hx with hx | hx
      · exact ih hx
      · rwa [List.mem_singleton.1 hx]
    · rcases List.mem_append.1 hx with hx | hx
      · obtain ⟨y, hy, hsame⟩ := ih hx
        exact ⟨y, List.mem_append_left _ hy, hsame⟩
      · rw [List.mem_singleton.1 hx]
        exact ⟨z, by simp, hrefl z⟩

theorem pairwise_keepFirst (xs : List α) : (keepFirst same xs).Pairwise fun x y => ¬ same x y := by
  induction xs using List.reverseRecOn with
  | nil => exact List.Pairwise.nil
  | append_singleton xs z ih =>
    rw [keepFirst_concat]
    split_ifs with hz
    · exact ih
    · refine List.pairwise_append.2 ⟨ih, List.pairwise_singleton _ z, fun y hy w hw hsame => hz ⟨y, hy, ?_⟩⟩
      rwa [← List.mem_singleton.1 hw]

end

/-! ## What the guard admits -/

/-- The sides of a join, as a relationship names them. -/
def Relationship.Names (r : Relationship) (join : JoinCondition) : Prop :=
  r.left = join.left.fqn ∧ r.right = join.right.fqn

instance (r : Relationship) (join : JoinCondition) : Decidable (r.Names join) :=
  inferInstanceAs (Decidable (_ ∧ _))

/-- A join condition of an artifact. -/
def Payload.HasJoin (payload : Payload) (join : JoinCondition) : Prop :=
  ∃ binding ∈ payload.bindings, join ∈ binding.spec.joinConditions

/-- The tables and relationships of a bundle against the allowlists of its artifacts; the columns
with the names `named` must be allowed. -/
structure MatchesGuard (U : Unicode) (named : String → Prop) (payloads : List Payload)
    (allowlists : List Allowlist) (allowedTables : List String) (relationships : List Relationship) : Prop where
  tables : ∀ t, t ∈ allowedTables.map U.upper ↔ ∃ allow ∈ allowlists, t ∈ allow.tables
  advertised : ∀ payload ∈ payloads, ∀ join, payload.HasJoin join →
    (relationships.filter fun r => r.Names join).length = 1
  admitted : ∀ r ∈ relationships, ∃ payload ∈ payloads, ∃ allow ∈ allowlists, buildAllowlist U payload = .ok allow ∧
    ∃ join, payload.HasJoin join ∧ r.Names join ∧ join.edge U ∈ allow.joinEdges ∧
      ∀ side ∈ [join.left, join.right], named side.columnName → side.endpoint U ∈ allow.columns

section
variable {U : Unicode} {payload : Payload} {allow : Allowlist} (h : buildAllowlist U payload = .ok allow)
include h

theorem tables_buildAllowlist : allow.tables = payload.boundTables.map U.upper := by
  obtain ⟨filters, -, h⟩ := Except.bind_eq_ok.1 h
  rw [← Except.ok.inj h, Payload.boundTables, List.map_flatMap]
  refine List.flatMap_congr fun binding _ => ?_
  rw [List.map_append, List.map_map, List.map_map]
  rfl

theorem joinEdges_buildAllowlist {join : JoinCondition} (hjoin : payload.HasJoin join) :
    join.edge U ∈ allow.joinEdges := by
  obtain ⟨filters, -, h⟩ := Except.bind_eq_ok.1 h
  obtain ⟨binding, hbinding, hjoin⟩ := hjoin
  rw [← Except.ok.inj h]
  exact List.mem_flatMap.2 ⟨binding, hbinding, List.mem_map_of_mem hjoin⟩

/-- A column of a join is allowed unless its name is empty. -/
theorem columns_buildAllowlist {join : JoinCondition} (hjoin : payload.HasJoin join) {side : JoinColumn}
    (hside : side ∈ [join.left, join.right]) (hne : side.columnName ≠ "") :
    side.endpoint U ∈ allow.columns := by
  obtain ⟨filters, -, h⟩ := Except.bind_eq_ok.1 h
  obtain ⟨binding, hbinding, hjoin⟩ := hjoin
  have href : side.toColumnRef ∈ binding.spec.columnRefs := by
    refine List.mem_append_right _ (List.mem_flatMap.2 ⟨join, hjoin, ?_⟩)
    rcases List.mem_cons.1 hside with rfl | hside
    · exact List.mem_cons_self
    · rw [List.mem_singleton.1 hside]
      exact List.mem_cons_of_mem _ List.mem_cons_self
  rw [← Except.ok.inj h]
  refine List.mem_flatMap.2 ⟨binding, hbinding, List.mem_filterMap.2 ⟨_, href, ?_⟩⟩
  simp [ColumnRef.column, JoinColumn.toColumnRef, JoinColumn.endpoint, Option.filter, hne]

end

/-! ## What the bundle advertises -/

/-- Relationships with the same sides. -/
def Relationship.Same (r r' : Relationship) : Prop := r.left = r'.left ∧ r.right = r'.right

instance : DecidableRel Relationship.Same := fun _ _ => inferInstanceAs (Decidable (_ ∧ _))

theorem relationshipsFromArtifacts_eq (payloads : List Payload) : relationshipsFromArtifacts payloads =
    keepFirst Relationship.Same (payloads.flatMap fun payload => payload.bindings.flatMap Binding.relationships) :=
  rfl

section
variable {payloads : List Payload} {r : Relationship} {join : JoinCondition}

theorem exists_hasJoin (hr : r ∈ relationshipsFromArtifacts payloads) :
    ∃ payload ∈ payloads, ∃ join, payload.HasJoin join ∧ r.Names join := by
  rw [relationshipsFromArtifacts_eq] at hr
  obtain ⟨payload, hpayload, hr⟩ := List.mem_flatMap.1 (mem_of_mem_keepFirst _ hr)
  obtain ⟨binding, hbinding, hr⟩ := List.mem_flatMap.1 hr
  obtain ⟨join, hjoin, rfl⟩ := List.mem_map.1 hr
  exact ⟨payload, hpayload, join, ⟨binding, hbinding, hjoin⟩, rfl, rfl⟩

theorem exists_mem_relationships {binding : Binding} (hjoin : join ∈ binding.spec.joinConditions) :
    ∃ r ∈ binding.relationships, r.Names join :=
  ⟨_, List.mem_map_of_mem hjoin, rfl, rfl⟩

theorem exists_names {payload : Payload} (hpayload : payload ∈ payloads) (hjoin : payload.HasJoin join) :
    ∃ r ∈ relationshipsFromArtifacts payloads, r.Names join := by
  obtain ⟨binding, hbinding, hjoin⟩ := hjoin
  obtain ⟨r, hr, hnames⟩ := exists_mem_relationships hjoin
  have hmem : r ∈ payloads.flatMap fun payload => payload.bindings.flatMap Binding.relationships :=
    List.mem_flatMap.2 ⟨payload, hpayload, List.mem_flatMap.2 ⟨binding, hbinding, hr⟩⟩
  obtain ⟨r', hr', hleft, hright⟩ := exists_mem_keepFirst Relationship.Same (fun _ => ⟨rfl, rfl⟩) hmem
  exact ⟨r', hr', hleft.trans hnames.1, hright.trans hnames.2⟩

/-- A join is advertised once. -/
theorem length_filter_names {payload : Payload} (hpayload : payload ∈ payloads) (hjoin : payload.HasJoin join) :
    ((relationshipsFromArtifacts payloads).filter fun r => r.Names join).length = 1 := by
  obtain ⟨r, hr, hnames⟩ := exists_names hpayload hjoin
  have hmem : r ∈ (relationshipsFromArtifacts payloads).filter fun r => r.Names join := by
    simpa using ⟨hr, hnames⟩
  have hapart : ((relationshipsFromArtifacts payloads).filter fun r => r.Names join).Pairwise
      fun x y => ¬ x.Same y :=
    (pairwise_keepFirst Relationship.Same _).sublist List.filter_sublist
  have hall : ∀ x ∈ (relationshipsFromArtifacts payloads).filter fun r => r.Names join, x.Names join := by
    intro x hx
    simpa using (List.mem_filter.1 hx).2
  cases hfilter : (relationshipsFromArtifacts payloads).filter fun r => r.Names join with
  | nil => simp [hfilter] at hmem
  | cons x rest =>
    cases rest with
    | nil => rfl
    | cons y rest =>
      rw [hfilter] at hapart hall
      have hx := hall x List.mem_cons_self
      have hy := hall y (List.mem_cons_of_mem _ List.mem_cons_self)
      exact absurd ⟨hx.1.trans hy.1.symm, hx.2.trans hy.2.symm⟩
        (List.rel_of_pairwise_cons hapart List.mem_cons_self)

end

/-! ## The bundle -/

section
variable {K : Type*} [Field K]

/-- The payloads of the selected artifacts. -/
def SelectionResult.payloads (selection : SelectionResult K) : List Payload :=
  (selection.selected.map SelectedArtifact.record).map Record.payload

theorem assembleBundle_relationships (question : String) (selection : SelectionResult K)
    (snapshots : Dict String Snapshot) (glossary : Glossary) (executionContext : Option Json)
    (profiles codeValues fewShots : List Json) :
    (assembleBundle question selection snapshots glossary executionContext profiles codeValues
      fewShots).schemaContext.relationships = relationshipsFromArtifacts selection.payloads := by
  unfold assembleBundle
  split_ifs with hnil
  · simp [SelectionResult.payloads, hnil, relationshipsFromArtifacts]
  · rfl

/-- **The bundle advertises what the guard admits**, where the allowlists can be built. -/
theorem assembleBundle_matchesGuard (U : Unicode) (question : String) (selection : SelectionResult K)
    (snapshots : Dict String Snapshot) (glossary : Glossary) (executionContext : Option Json)
    (profiles codeValues fewShots : List Json) {allowlists : List Allowlist}
    (h : selection.payloads.mapM (buildAllowlist U) = .ok allowlists) :
    MatchesGuard U (· ≠ "") selection.payloads allowlists (selection.payloads.flatMap Payload.boundTables)
      (assembleBundle question selection snapshots glossary executionContext profiles codeValues
        fewShots).schemaContext.relationships := by
  rw [assembleBundle_relationships]
  refine ⟨fun t => ?_, fun payload hpayload join hjoin => length_filter_names hpayload hjoin, fun r hr => ?_⟩
  · simp only [List.map_flatMap, List.mem_flatMap]
    constructor
    · rintro ⟨payload, hpayload, ht⟩
      obtain ⟨allow, hallow, hbuild⟩ := Except.exists_of_mapM_eq_ok h hpayload
      exact ⟨allow, hallow, by rwa [tables_buildAllowlist hbuild]⟩
    · rintro ⟨allow, hallow, ht⟩
      obtain ⟨payload, hpayload, hbuild⟩ := Except.exists_of_mem_mapM_eq_ok h hallow
      exact ⟨payload, hpayload, by rwa [← tables_buildAllowlist hbuild]⟩
  · obtain ⟨payload, hpayload, join, hjoin, hnames⟩ := exists_hasJoin hr
    obtain ⟨allow, hallow, hbuild⟩ := Except.exists_of_mapM_eq_ok h hpayload
    exact ⟨payload, hpayload, allow, hallow, hbuild, join, hjoin, hnames, joinEdges_buildAllowlist hbuild hjoin,
      fun side hside hne => columns_buildAllowlist hbuild hjoin hside hne⟩

end

/-! ### Joins without a column name, filters without a text -/

def riverColumn (objectName columnName : String) : JoinColumn where
  logicalDatabase := "river"
  schemaName := "public"
  objectName := objectName
  columnName := columnName

/-- A selection of one artifact, with one filter. -/
def selectedFilter (spec : Spec) : SelectionResult ℚ where
  selected := [{
    record := { rainfall with payload := { bindings := [{ bindingType := .filter, name := "f", spec := spec }] } }
    score := 1
    termHits := []
    embeddingSimilarity := 0
    reasons := [] }]
  blockers := []

/-- A selection with one join of gauges and flows. -/
def selectedJoin (columnName : String) : SelectionResult ℚ :=
  selectedFilter { joinConditions := [⟨riverColumn "gauge" "id", riverColumn "flow" columnName⟩] }

theorem assembleBundle_matchesGuard_gauge : ∃ allowlists,
    (selectedJoin "gauge_id").payloads.mapM (buildAllowlist .ascii) = .ok allowlists ∧
      MatchesGuard .ascii (· ≠ "") (selectedJoin "gauge_id").payloads allowlists
        ((selectedJoin "gauge_id").payloads.flatMap Payload.boundTables)
        (assembleBundle "" (selectedJoin "gauge_id") [] {} none [] [] []).schemaContext.relationships :=
  ⟨_, rfl, assembleBundle_matchesGuard .ascii "" _ [] {} none [] [] [] rfl⟩

/-- A join on an empty name is advertised, though the guard has no such column; of a mandatory filter
without a text no allowlist is built. -/
theorem not_matchesGuard_all :
    (∃ allowlists, (selectedJoin "").payloads.mapM (buildAllowlist .ascii) = .ok allowlists ∧
      ¬ MatchesGuard .ascii (fun _ => True) (selectedJoin "").payloads allowlists
        ((selectedJoin "").payloads.flatMap Payload.boundTables)
        (assembleBundle "" (selectedJoin "") [] {} none [] [] []).schemaContext.relationships) ∧
    (selectedFilter { filterIsMandatory := true }).payloads.mapM (buildAllowlist .ascii) =
      .error (.keyError "expression_sql") := by
  refine ⟨⟨_, rfl, fun h => ?_⟩, rfl⟩
  have hr : ∃ r, r ∈ (assembleBundle "" (selectedJoin "") [] {} none [] [] []).schemaContext.relationships :=
    ⟨_, List.mem_cons_self⟩
  obtain ⟨r, hr⟩ := hr
  obtain ⟨payload, hpayload, allow, -, hbuild, join, ⟨binding, hbinding, hjoin⟩, -, -, hsides⟩ := h.admitted r hr
  obtain rfl := List.mem_singleton.1 hpayload
  obtain rfl := List.mem_singleton.1 hbinding
  obtain rfl := List.mem_singleton.1 hjoin
  obtain rfl := Except.ok.inj hbuild
  have hflow := hsides (riverColumn "flow" "") (by simp) trivial
  exact absurd hflow (by decide +kernel)

end RoboMeta
