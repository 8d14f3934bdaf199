/-
  Join groups of the final candidates (`services/decision_service.py`).

  The candidates that are left of the pool are grouped by the roots of the
  pool's forest; a group of two or more lists the bridges between its members,
  and is dropped if there are none.

  * `joinGroups`: the groups, or the error of a member without a schema;
  * `GroupsConnected`: the bridges that a group lists link its members;
  * `joinGroups_connected_iff`: this holds iff no component of the pool loses
    the link between two of its final candidates and keeps another one.
-/
import Mathlib.Data.List.ReduceOption
import RoboMeta.Lib.Outcome
import RoboMeta.JoinStages

namespace RoboMeta

open UnionFind

variable {K : Type}

/-! ## The groups -/

/-- A table of the pool as a candidate, under the label of its database. -/
def decisionCandidate (dbLabel : TableCandidate K → String) (t : TableCandidate K) : DecisionCandidate K where
  db := some (dbLabel t)
  schemaName := t.schema
  tableName := t.name
  score := t.score
  source := "vector"

/-- `TableKey(...)` of a member, whose schema must be there. -/
def memberKey (m : DecisionCandidate K) : Except PyError TableKey :=
  if m.schemaName = "" then .error (.validationError "schema_name") else .ok m.toTableKey

section
variable (U : Unicode)

/-- The final candidates by name. -/
def finalMap (cands : List (DecisionCandidate K)) : Dict String (DecisionCandidate K) :=
  candMap U (fun c => tableFqn c.schemaName c.tableName) cands

/-- The entry of a member in `group_fqn_keys`. -/
def TableKey.groupKey (m : TableKey) : String :=
  fqnOf (U.lower (stripString m.schemaName)) (U.lower (stripString m.tableName))

/-- `group_bridges`, not yet stripped of their keys. -/
def groupBridges (g : JoinGraph K) (members : List (DecisionCandidate K)) : List (RecordedBridge K) :=
  let groupFqnKeys := members.map fun m => m.groupKey U
  g.bridges.filter fun b => b.fromKey ∈ groupFqnKeys ∧ b.toKey ∈ groupFqnKeys

def JoinBridge.rationale (b : JoinBridge K) : String :=
  b.from_ ++ " -[" ++ b.via.text ++ "]-> " ++ b.to_

variable [Field K] [LinearOrder K] (fuel : ℕ)

/-- The body of the loop over the groups. -/
def joinGroupOf (g : JoinGraph K) (members : List (DecisionCandidate K)) : Except PyError (Option (JoinGroup K)) :=
  let bridges := (groupBridges U g members).map RecordedBridge.bridge
  if members.length < 2 then .ok none
  else if bridges = [] then .ok none
  else do
    let memberKeys ← members.mapM memberKey
    return some {
      members := memberKeys
      crossDb := 1 < ((members.filterMap fun m => nonempty m.db).dedup).length
      recommendedStrategy := "simple_join"
      bridges := bridges
      groupScore := ((members.map fun m => m.score).max?).getD 0
      rationale := "Detected bridges: " ++ ", ".intercalate (bridges.map JoinBridge.rationale) }

/-- The body of the loop over `cand_map`; looking a root up compresses paths. -/
def addToGroup (acc : Dict String (List (DecisionCandidate K)) × Parents String)
    (item : String × DecisionCandidate K) :
    Option (Dict String (List (DecisionCandidate K)) × Parents String) := do
  let (root, parent) ← find fuel acc.2 item.1
  return (acc.1.push root item.2, parent)

/-- `groups_dict.values()`. -/
def groupsByRoot (parent : Parents String) (cands : Dict String (DecisionCandidate K)) :
    Option (List (List (DecisionCandidate K))) := do
  let (groups, _) ← cands.foldlM (addToGroup fuel) ([], parent)
  return groups.map Prod.snd

def joinGroups (g : JoinGraph K) (cands : List (DecisionCandidate K)) :
    Option (Except PyError (List (JoinGroup K))) :=
  if g.keys = [] ∨ g.bridges = [] then some (.ok []) else do
    let groups ← groupsByRoot fuel g.parent (finalMap U cands)
    return do
      let built ← groups.mapM (joinGroupOf U g)
      return built.reduceOption

end

/-! ## Connected groups -/

section
variable (U : Unicode)

/-- The pairs of keys that the bridges of a group join. -/
def JoinGroup.edges (group : JoinGroup K) : List (String × String) :=
  group.bridges.map fun b => (U.lower b.from_, U.lower b.to_)

/-- The bridges that a group lists link any two of its members. -/
def GroupsConnected (result : Except PyError (List (JoinGroup K))) : Prop :=
  ∀ groups, result = .ok groups → ∀ group ∈ groups, ∀ m ∈ group.members, ∀ m' ∈ group.members,
    Linked (group.edges U) (m.groupKey U) (m'.groupKey U)

open Classical in
/-- The final candidates that the bridges of the pool link with a key. -/
noncomputable def component (g : JoinGraph K) (cands : Dict String (DecisionCandidate K)) (k : String) :
    List (DecisionCandidate K) :=
  (cands.filter fun item => Linked g.edges k item.1).map Prod.snd

/-- A bridge joins two of the candidates, of which there are at least two. -/
def Bridged (g : JoinGraph K) (members : List (DecisionCandidate K)) : Prop :=
  2 ≤ members.length ∧ groupBridges U g members ≠ []

/-- The bridges between the candidates link them all. -/
def InnerLinked (g : JoinGraph K) (members : List (DecisionCandidate K)) : Prop :=
  ∀ m ∈ members, ∀ m' ∈ members,
    Linked ((groupBridges U g members).map fun b => (b.fromKey, b.toKey)) (m.groupKey U) (m'.groupKey U)

/-- Final candidates of one component that have a bridge among them are linked
    by bridges among them; or one of them has no schema, and no group is built. -/
def ComponentsHold (g : JoinGraph K) (cands : Dict String (DecisionCandidate K)) : Prop :=
  (∃ k ∈ cands.map Prod.fst, Bridged U g (component g cands k) ∧ ∃ m ∈ component g cands k, m.schemaName = "") ∨
    ∀ k ∈ cands.map Prod.fst, Bridged U g (component g cands k) → InnerLinked U g (component g cands k)

end

/-! ## Grouping by roots -/

section
variable {keys : List String} {fuel : ℕ} {parent : Parents String} {es : List (String × String)}

/-- The loop groups the candidates as if the roots were looked up in a forest
    that does not change. -/
theorem foldlM_addToGroup {ρ : String → String} (hρ : ∀ x ∈ keys, Root parent x (ρ x)) (hfuel : keys.length ≤ fuel)
    {cands : Dict String (DecisionCandidate K)} (hcands : ∀ item ∈ cands, item.1 ∈ keys)
    (acc : Dict String (List (DecisionCandidate K))) {parent' : Parents String} (hforest : Forest parent' keys)
    (hsame : SameRoots parent parent') :
    ∃ parent'', cands.foldlM (addToGroup fuel) (acc, parent') =
      some (cands.foldl (fun d item => d.push (ρ item.1) item.2) acc, parent'') := by
  induction cands generalizing acc parent' with
  | nil => exact ⟨parent', rfl⟩
  | cons item cands ih =>
    have hitem : item.1 ∈ keys := hcands item List.mem_cons_self
    obtain ⟨r, parent₁, hfind, hr, hforest₁, hsame₁⟩ := find_eq_some hforest hitem hfuel
    obtain rfl : r = ρ item.1 := ((hsame _ _).1 hr).unique (hρ _ hitem)
    rw [List.foldlM_cons, addToGroup, hfind]
    exact ih (fun item' hitem' => hcands item' (List.mem_cons_of_mem item hitem')) _ hforest₁
      (hsame.trans hsame₁)

/-- The groups are the candidates' components. -/
theorem groupsByRoot_eq_some {g : JoinGraph K} (hg : g.Partitioned keys) (hfuel : keys.length ≤ fuel)
    {cands : Dict String (DecisionCandidate K)} (hcands : ∀ item ∈ cands, item.1 ∈ keys) :
    ∃ groups, groupsByRoot fuel g.parent cands = some groups ∧
      ∀ members, members ∈ groups ↔ ∃ k ∈ cands.map Prod.fst, members = component g cands k := by
  have hpart := hg.partitions
  choose! ρ hρ using hpart.forest.rooted
  obtain ⟨parent'', hrun⟩ := foldlM_addToGroup hρ hfuel hcands [] hpart.forest (SameRoots.refl _)
  refine ⟨(groupBy (fun item => ρ item.1) Prod.snd cands).map Prod.snd, ?_, fun members => ?_⟩
  · rw [groupsByRoot, hrun]
    rfl
  have hcomponent : ∀ item ∈ cands, (cands.filter fun item' => ρ item'.1 = ρ item.1).map Prod.snd =
      component g cands item.1 := by
    intro item hitem
    rw [component]
    refine congrArg _ (List.filter_congr fun item' hitem' => ?_)
    rw [decide_eq_decide, ← hpart.joined_iff _ (hcands _ hitem) _ (hcands _ hitem'),
      joined_iff (hρ _ (hcands _ hitem)) (hρ _ (hcands _ hitem')), eq_comm]
  constructor
  · intro hmem
    obtain ⟨⟨k, _⟩, hgroup, rfl⟩ := List.mem_map.1 hmem
    obtain ⟨hk, hvs⟩ := (mem_groupBy _ _).1 hgroup
    obtain ⟨item, hitem, rfl⟩ := List.mem_map.1 hk
    exact ⟨item.1, List.mem_map_of_mem hitem, hvs.trans (hcomponent item hitem)⟩
  · rintro ⟨k, hk, rfl⟩
    obtain ⟨item, hitem, rfl⟩ := List.mem_map.1 hk
    rw [← hcomponent item hitem]
    exact List.mem_map.2 ⟨(ρ item.1, _), (mem_groupBy _ _).2 ⟨List.mem_map_of_mem hitem, rfl⟩, rfl⟩

end

/-! ## When groups are connected -/

section
variable {U : Unicode} {g : JoinGraph K} {members : List (DecisionCandidate K)}

/-- The bridges of a group, by the keys that they were recorded under. -/
theorem edges_of_bridges (hkeyed : ∀ b ∈ g.bridges, b.Keyed U) {group : JoinGroup K}
    (hbridges : group.bridges = (groupBridges U g members).map RecordedBridge.bridge) :
    group.edges U = (groupBridges U g members).map fun b => (b.fromKey, b.toKey) := by
  rw [JoinGroup.edges, hbridges, List.map_map]
  refine List.map_congr_left fun b hb => ?_
  obtain ⟨hfrom, hto⟩ := hkeyed b (List.mem_filter.1 hb).1
  rw [hfrom, hto]
  rfl

variable [Field K] [LinearOrder K]

theorem joinGroupOf_of_not_bridged (h : ¬ Bridged U g members) : joinGroupOf U g members = .ok none := by
  unfold joinGroupOf
  by_cases hlen : members.length < 2
  · rw [if_pos hlen]
  · have hnil : groupBridges U g members = [] := by
      by_contra hne
      exact h ⟨not_lt.1 hlen, hne⟩
    simp [hnil]

theorem joinGroupOf_of_bridged (h : Bridged U g members) (hschema : ∀ m ∈ members, m.schemaName ≠ "") :
    ∃ group, joinGroupOf U g members = .ok (some group) ∧
      group.members = members.map DecisionCandidate.toTableKey ∧
      group.bridges = (groupBridges U g members).map RecordedBridge.bridge := by
  have hkeys : members.mapM memberKey = .ok (members.map DecisionCandidate.toTableKey) :=
    Except.mapM_eq_ok_map fun m hm => if_neg (hschema m hm)
  unfold joinGroupOf
  rw [if_neg (not_lt.2 h.1), if_neg (by simpa using h.2), hkeys]
  exact ⟨_, rfl, rfl, rfl⟩

theorem joinGroupOf_of_noSchema (h : Bridged U g members) {m : DecisionCandidate K} (hm : m ∈ members)
    (hschema : m.schemaName = "") (group : Option (JoinGroup K)) : joinGroupOf U g members ≠ .ok group := by
  intro hok
  unfold joinGroupOf at hok
  rw [if_neg (not_lt.2 h.1), if_neg (by simpa using h.2)] at hok
  obtain ⟨memberKeys, hkeys, -⟩ := Except.bind_eq_ok.1 hok
  obtain ⟨key, -, hkey⟩ := Except.exists_of_mapM_eq_ok hkeys hm
  rw [memberKey, if_pos hschema] at hkey
  cases hkey

/-- A group that is built has its members and the bridges among them. -/
theorem joinGroupOf_eq_some {group : JoinGroup K} (h : joinGroupOf U g members = .ok (some group)) :
    Bridged U g members ∧ group.members = members.map DecisionCandidate.toTableKey ∧
      group.bridges = (groupBridges U g members).map RecordedBridge.bridge := by
  have hbridged : Bridged U g members := by
    by_contra hn
    rw [joinGroupOf_of_not_bridged hn] at h
    cases h
  have hschema : ∀ m ∈ members, m.schemaName ≠ "" := fun m hm hempty =>
    joinGroupOf_of_noSchema hbridged hm hempty _ h
  obtain ⟨group', hgroup', hbuilt⟩ := joinGroupOf_of_bridged hbridged hschema
  obtain rfl : group = group' := Option.some.inj (Except.ok.inj (h.symm.trans hgroup'))
  exact ⟨hbridged, hbuilt⟩

/-- The bridges of a group that is built link its members iff those among the candidates link these. -/
theorem linked_members_iff (hkeyed : ∀ b ∈ g.bridges, b.Keyed U) {group : JoinGroup K}
    (h : joinGroupOf U g members = .ok (some group)) :
    (∀ m ∈ group.members, ∀ m' ∈ group.members, Linked (group.edges U) (m.groupKey U) (m'.groupKey U)) ↔
      InnerLinked U g members := by
  obtain ⟨-, hmembers, hbridges⟩ := joinGroupOf_eq_some h
  rw [hmembers, edges_of_bridges hkeyed hbridges]
  simp only [List.forall_mem_map]
  exact Iff.rfl

/-- If no group has to be refused, all are built. -/
theorem exists_mapM_joinGroupOf {groups : List (List (DecisionCandidate K))}
    (hschema : ∀ members ∈ groups, Bridged U g members → ∀ m ∈ members, m.schemaName ≠ "") :
    ∃ built, groups.mapM (joinGroupOf U g) = .ok built ∧
      ∀ group, group ∈ built.reduceOption ↔ ∃ members ∈ groups, joinGroupOf U g members = .ok (some group) := by
  have hbuilt : ∀ members ∈ groups, ∃ group, joinGroupOf U g members = .ok group := by
    intro members hmem
    by_cases hbridged : Bridged U g members
    · obtain ⟨group, hgroup, -⟩ := joinGroupOf_of_bridged hbridged (hschema members hmem hbridged)
      exact ⟨_, hgroup⟩
    · exact ⟨_, joinGroupOf_of_not_bridged hbridged⟩
  obtain ⟨built, hmap⟩ := Except.exists_mapM_eq_ok.2 hbuilt
  refine ⟨built, hmap, fun group => ?_⟩
  rw [List.reduceOption_mem_iff]
  constructor
  · exact fun hgroup => Except.exists_of_mem_mapM_eq_ok hmap hgroup
  · rintro ⟨members, hmem, hgroup⟩
    obtain ⟨group', hgroup', hok⟩ := Except.exists_of_mapM_eq_ok hmap hmem
    rwa [Except.ok.inj (hgroup.symm.trans hok)]

/-- Groups built of some components are connected iff the components hold. -/
theorem groupsConnected_mapM_iff (hkeyed : ∀ b ∈ g.bridges, b.Keyed U)
    {groups : List (List (DecisionCandidate K))} {cands : Dict String (DecisionCandidate K)}
    (hgroups : ∀ members, members ∈ groups ↔ ∃ k ∈ cands.map Prod.fst, members = component g cands k) :
    GroupsConnected U (do
      let built ← groups.mapM (joinGroupOf U g)
      return built.reduceOption) ↔ ComponentsHold U g cands := by
  by_cases hreject : ∃ k ∈ cands.map Prod.fst,
      Bridged U g (component g cands k) ∧ ∃ m ∈ component g cands k, m.schemaName = ""
  · refine ⟨fun _ => Or.inl hreject, fun _ built hok => ?_⟩
    obtain ⟨k, hk, hbridged, m, hm, hschema⟩ := hreject
    obtain ⟨_, hmap, -⟩ := Except.bind_eq_ok.1 hok
    obtain ⟨_, -, hgroup⟩ := Except.exists_of_mapM_eq_ok hmap ((hgroups _).2 ⟨k, hk, rfl⟩)
    exact absurd hgroup (joinGroupOf_of_noSchema hbridged hm hschema _)
  · have hschema : ∀ members ∈ groups, Bridged U g members → ∀ m ∈ members, m.schemaName ≠ "" := by
      intro members hmem hbridged m hm hempty
      obtain ⟨k, hk, rfl⟩ := (hgroups members).1 hmem
      exact hreject ⟨k, hk, hbridged, m, hm, hempty⟩
    obtain ⟨built, hmap, hbuilt⟩ := exists_mapM_joinGroupOf hschema
    rw [hmap]
    constructor
    · intro h
      refine Or.inr fun k hk hbridged => ?_
      have hmem : component g cands k ∈ groups := (hgroups _).2 ⟨k, hk, rfl⟩
      obtain ⟨group, hgroup, -⟩ := joinGroupOf_of_bridged hbridged (hschema _ hmem hbridged)
      exact (linked_members_iff hkeyed hgroup).1 (h _ rfl group ((hbuilt group).2 ⟨_, hmem, hgroup⟩))
    · rintro (hrejected | h) built' hok group hmem
      · exact absurd hrejected hreject
      · obtain rfl := Except.ok.inj hok
        obtain ⟨members, hmembers, hgroup⟩ := (hbuilt group).1 hmem
        obtain ⟨k, hk, rfl⟩ := (hgroups members).1 hmembers
        exact (linked_members_iff hkeyed hgroup).2 (h k hk (joinGroupOf_eq_some hgroup).1)

/-- **When join groups are connected.**  For every pool, all relations fetched for
    it and every choice of final candidates among the pool, the bridges that
    each group lists link its members iff the components hold. -/
theorem joinGroups_connected_iff {settings : JoinSettings K} {fetch : Fetches K}
    {joinPool final : List (TableCandidate K)} (dbLabel : TableCandidate K → String) {fuel : ℕ}
    (hfuel : (poolKeys U joinPool).length ≤ fuel) (hgraph : joinGraph U fuel settings fetch joinPool = some g)
    (hfinal : ∀ t ∈ final, t ∈ joinPool) :
    ∃ result, joinGroups U fuel g (final.map (decisionCandidate dbLabel)) = some result ∧
      (GroupsConnected U result ↔ ComponentsHold U g (finalMap U (final.map (decisionCandidate dbLabel)))) := by
  obtain ⟨hg, hkeyed⟩ := JoinGraph.joinGraph_partitioned U settings fetch joinPool hfuel hgraph
  have hcands : ∀ item ∈ finalMap U (final.map (decisionCandidate dbLabel)), item.1 ∈ poolKeys U joinPool := by
    intro item hitem
    obtain ⟨name, hname, hlower⟩ := mem_keys_candMap.1 (List.mem_map.2 ⟨item, hitem, rfl⟩)
    obtain ⟨c, hc, hfqn⟩ := List.mem_filterMap.1 hname
    obtain ⟨t, ht, rfl⟩ := List.mem_map.1 hc
    exact mem_keys_candMap.2 ⟨name, List.mem_filterMap.2 ⟨t, hfinal t ht, hfqn⟩, hlower⟩
  unfold joinGroups
  by_cases hnone : g.keys = [] ∨ g.bridges = []
  · rw [if_pos hnone]
    refine ⟨.ok [], rfl, fun _ => Or.inr fun k _ hbridged => ?_, fun _ groups hok group hgroup => ?_⟩
    · have hbridges : g.bridges = [] := by
        rcases hnone with hkeys | hbridges
        · refine List.eq_nil_iff_forall_not_mem.2 fun b hb => ?_
          have hfrom := (hg.edges_mem _ (List.mem_map.2 ⟨b, hb, rfl⟩)).1
          rw [← hg.keys_eq, hkeys] at hfrom
          exact nomatch hfrom
        · exact hbridges
      exact absurd (by simp [groupBridges, hbridges]) hbridged.2
    · rw [← Except.ok.inj hok] at hgroup
      exact nomatch hgroup
  · obtain ⟨groups, hrun, hgroups⟩ := groupsByRoot_eq_some hg hfuel hcands
    rw [if_neg hnone, hrun]
    exact ⟨_, rfl, groupsConnected_mapM_iff hkeyed hgroups⟩

end

/-! ## A table that drops out -/

/-- Foreign keys `dam`–`plant`, `plant`–`tag` and `tag`–`measure`. -/
def chainFetches : Fetches ℚ where
  fkRelationships _ := [("dam", "plant"), ("plant", "tag"), ("tag", "measure")].map fun e =>
    { fromSchema := some "rwis", fromTable := some e.1, toSchema := some "rwis", toTable := some e.2 }
  ontologyRelationships _ := []
  conventionJoins _ := []

def chainTable (name : String) : TableCandidate ℚ := { schema := "rwis", name, score := 1 }

def chainPool : List (TableCandidate ℚ) := ["dam", "plant", "tag", "measure"].map chainTable

/-- The pool without `tag`. -/
def chainFinal : List (TableCandidate ℚ) := ["dam", "plant", "measure"].map chainTable

/-- Some group has the members and joins just the edges. -/
def builds (members : List TableKey) (edges : List (String × String)) :
    Option (Except PyError (List (JoinGroup ℚ))) → Bool
  | some (.ok groups) => groups.any fun group => group.members = members ∧ group.edges .ascii = edges
  | _ => false

/-- Without the table `tag` nothing links `measure` with the others, and it stays
    in their group. -/
theorem not_forall_groupsConnected :
    ¬ ∀ (fetch : Fetches ℚ) (joinPool final : List (TableCandidate ℚ)), (∀ t ∈ final, t ∈ joinPool) →
      ∀ g result, joinGraph .ascii joinPool.length joinDefaults fetch joinPool = some g →
        joinGroups .ascii joinPool.length g (final.map (decisionCandidate fun _ => "RWIS")) = some result →
          GroupsConnected .ascii result := by
  intro h
  have hbuilds : builds (["dam", "plant", "measure"].map fun name => ⟨some "RWIS", "rwis", name⟩)
      [("rwis.dam", "rwis.plant")] ((joinGraph .ascii 4 joinDefaults chainFetches chainPool).bind fun g =>
        joinGroups .ascii 4 g (chainFinal.map (decisionCandidate fun _ => "RWIS"))) = true := by
    decide +kernel
  cases hgraph : joinGraph .ascii 4 joinDefaults chainFetches chainPool with
  | none =>
    rw [hgraph] at hbuilds
    cases hbuilds
  | some g =>
    rw [hgraph, Option.bind_some] at hbuilds
    unfold builds at hbuilds
    split at hbuilds
    · rename_i groups hgroups
      obtain ⟨group, hgroup, hmatch⟩ := List.any_eq_true.1 hbuilds
      obtain ⟨hmembers, hedges⟩ := of_decide_eq_true hmatch
      have hfinal : ∀ t ∈ chainFinal, t ∈ chainPool := by decide +kernel
      have hlinked := h chainFetches chainPool chainFinal hfinal g _ hgraph hgroups groups rfl group hgroup
        ⟨some "RWIS", "rwis", "measure"⟩ (by simp [hmembers]) ⟨some "RWIS", "rwis", "dam"⟩ (by simp [hmembers])
      rw [hedges] at hlinked
      have heq := hlinked.eq_of_isolated (by decide +kernel)
      exact absurd heq (by decide +kernel)
    · cases hbuilds

theorem joinGroups_connected_iff_chain :
    ∃ g, joinGraph .ascii 4 joinDefaults chainFetches chainPool = some g ∧
      ∃ result, joinGroups .ascii 4 g (chainFinal.map (decisionCandidate fun _ => "RWIS")) = some result ∧
        (GroupsConnected .ascii result ↔
          ComponentsHold .ascii g (finalMap .ascii (chainFinal.map (decisionCandidate fun _ => "RWIS")))) := by
  have hsome : (joinGraph .ascii 4 joinDefaults chainFetches chainPool).isSome = true := by decide +kernel
  obtain ⟨g, hgraph⟩ := Option.isSome_iff_exists.1 hsome
  exact ⟨g, hgraph, joinGroups_connected_iff _ (by decide +kernel) hgraph (by decide +kernel)⟩

end RoboMeta
