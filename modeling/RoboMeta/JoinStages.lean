/-
  What the three stages of the join graph leave behind.

  * `ThreeStages`: the forest of `parent` has the components of the recorded
    bridges, and no bridge of a later stage touches a table that an earlier
    stage joined with another one;
  * `Partitioned.recordBridges`, `Partitioned.isolatedFqns`,
    `Partitioned.fallbackStage`: the loops, each with what it leaves of the
    graph before it.
-/
import Mathlib.Algebra.Field.Rat
import RoboMeta.JoinGraph

namespace RoboMeta

open UnionFind

variable {K : Type}

def RecordedBridge.Touches (b : RecordedBridge K) (x : String) : Prop := b.fromKey = x ∨ b.toKey = x

/-- The keys of a bridge are its ends in lower case. -/
def RecordedBridge.Keyed (U : Unicode) (b : RecordedBridge K) : Prop :=
  b.fromKey = U.lower b.bridge.from_ ∧ b.toKey = U.lower b.bridge.to_

def RecordedBridge.Joins (b : RecordedBridge K) (x y : String) : Prop :=
  b.fromKey = x ∧ b.toKey = y ∨ b.fromKey = y ∧ b.toKey = x

namespace JoinGraph

/-- The components of the forest are those of the bridges. -/
structure Partitioned (g : JoinGraph K) (keys : List String) : Prop where
  keys_eq : g.keys = keys
  partitions : Partitions g.parent keys g.edges
  edges_mem : ∀ e ∈ g.edges, e.1 ∈ keys ∧ e.2 ∈ keys

/-- `g'` has the bridges of `g` and further ones, of which `P` holds. -/
def Extends (P : RecordedBridge K → Prop) (g g' : JoinGraph K) : Prop :=
  ∃ added, g'.bridges = g.bridges ++ added ∧ ∀ b ∈ added, P b

/-- The bridge is recorded for one of the relations. -/
def RecordedFor (U : Unicode) (via : BridgeVia) (rels : List (Rel K)) (b : RecordedBridge K) : Prop :=
  b.bridge.via = via ∧ b.Keyed U ∧ ∃ rel ∈ rels, b.fromKey = U.lower rel.fromFqn ∧ b.toKey = U.lower rel.toFqn

/-- No key but `x` is linked with `x`. -/
def Isolated (g : JoinGraph K) (keys : List String) (x : String) : Prop :=
  ∀ y ∈ keys, Linked g.edges x y → y = x

variable {g : JoinGraph K} {keys : List String}

theorem Extends.mem_cases {P : RecordedBridge K → Prop} {g' : JoinGraph K} (h : Extends P g g')
    {b : RecordedBridge K} (hb : b ∈ g'.bridges) : b ∈ g.bridges ∨ P b := by
  obtain ⟨added, hbridges, hadded⟩ := h
  rw [hbridges] at hb
  exact (List.mem_append.1 hb).imp_right (hadded b)

theorem Partitioned.not_joins (h : g.Partitioned keys) {x y : String} (hx : g.Isolated keys x) {b : RecordedBridge K}
    (hb : b ∈ g.bridges) (hjoins : b.Joins x y) : y = x := by
  have he : (b.fromKey, b.toKey) ∈ g.edges := List.mem_map.2 ⟨b, hb, rfl⟩
  obtain ⟨hfrom, hto⟩ := h.edges_mem _ he
  rcases hjoins with ⟨rfl, rfl⟩ | ⟨rfl, rfl⟩
  · exact hx _ hto (Linked.of_mem he)
  · exact hx _ hfrom (Linked.of_mem he).symm

/-! ## Recording bridges -/

section
variable (U : Unicode) [Field K] (settings : JoinSettings K) {fuel : ℕ}

theorem Partitioned.recordBridge (h : g.Partitioned keys) (hfuel : keys.length ≤ fuel) (via : BridgeVia)
    (rel : Rel K) :
    ∃ g', RoboMeta.recordBridge U settings fuel via g rel = some g' ∧ g'.Partitioned keys ∧
      Extends (RecordedFor U via [rel]) g g' := by
  unfold RoboMeta.recordBridge
  simp only [h.partitions.forest.isSome_iff]
  split_ifs with hmem
  · obtain ⟨parent, hunion, hparent⟩ := h.partitions.union hmem.1 hmem.2 hfuel
    rw [hunion]
    refine ⟨_, rfl, ⟨h.keys_eq, ?_, ?_⟩, [_], rfl, ?_⟩
    · simpa [JoinGraph.edges] using hparent
    · intro e he
      simp only [JoinGraph.edges, List.map_append, List.map_cons, List.map_nil, List.mem_append,
        List.mem_singleton] at he
      rcases he with he | rfl
      · exact h.edges_mem e he
      · exact hmem
    · intro b hb
      rw [List.mem_singleton] at hb
      subst hb
      exact ⟨rfl, ⟨rfl, rfl⟩, rel, List.mem_singleton_self rel, rfl, rfl⟩
  · exact ⟨g, rfl, h, [], by simp, by simp⟩

theorem Partitioned.recordBridges (hfuel : keys.length ≤ fuel) (via : BridgeVia) (rels : List (Rel K))
    {g : JoinGraph K} (h : g.Partitioned keys) :
    ∃ g', RoboMeta.recordBridges U settings fuel via g rels = some g' ∧ g'.Partitioned keys ∧
      Extends (RecordedFor U via rels) g g' := by
  induction rels generalizing g with
  | nil => exact ⟨g, rfl, h, [], by simp, by simp⟩
  | cons rel rels ih =>
    obtain ⟨g₁, hstep, h₁, added₁, hbridges₁, hadded₁⟩ := h.recordBridge U settings hfuel via rel
    obtain ⟨g', hrun, h', added', hbridges', hadded'⟩ := ih h₁
    refine ⟨g', ?_, h', added₁ ++ added', by rw [hbridges', hbridges₁, List.append_assoc], ?_⟩
    · rw [RoboMeta.recordBridges, List.foldlM_cons, hstep]
      exact hrun
    · intro b hb
      rcases List.mem_append.1 hb with hb | hb
      · obtain ⟨hvia, hkeyed, r, hr, hends⟩ := hadded₁ b hb
        rw [List.mem_singleton.1 hr] at hends
        exact ⟨hvia, hkeyed, rel, List.mem_cons_self, hends⟩
      · obtain ⟨hvia, hkeyed, r, hr, hends⟩ := hadded' b hb
        exact ⟨hvia, hkeyed, r, List.mem_cons_of_mem rel hr, hends⟩

end

/-! ## Sizes of components -/

section
open Classical

variable {U : Unicode} {fuel : ℕ} {parent : Parents String} {es : List (String × String)}

/-- The loop of `_component_size` counts the keys under one root. -/
theorem foldlM_countMember (hfuel : keys.length ≤ fuel) {root x : String} (hx : x ∈ keys) (hroot : Root parent x root)
    (ks : List String) (hks : ∀ k ∈ ks, k ∈ keys) (n : ℕ) {parent' : Parents String} (hsame : SameRoots parent parent')
    (hpart : Partitions parent' keys es) :
    ∃ parent'', ks.foldlM (countMember fuel root) (n, parent') =
      some (n + ks.countP fun k => Linked es x k, parent'') ∧ Partitions parent'' keys es := by
  induction ks generalizing n parent' with
  | nil => exact ⟨parent', by simp, hpart⟩
  | cons k ks ih =>
    have hk : k ∈ keys := hks k List.mem_cons_self
    obtain ⟨r, parent₁, hfind, hr, hforest, hsame₁⟩ := find_eq_some hpart.forest hk hfuel
    obtain ⟨parent'', hrun, hpart''⟩ := ih (fun k' hk' => hks k' (List.mem_cons_of_mem k hk'))
      (if r = root then n + 1 else n) (hsame.trans hsame₁) (hpart.of_sameRoots hforest hsame₁)
    refine ⟨parent'', ?_, hpart''⟩
    have hlinked : Linked es x k ↔ r = root := by
      rw [← hpart.joined_iff x hx k hk, UnionFind.joined_iff ((hsame x root).2 hroot) hr, eq_comm]
    have hcount : n + (k :: ks).countP (fun k => Linked es x k) =
        (if r = root then n + 1 else n) + ks.countP fun k => Linked es x k := by
      simp only [List.countP_cons, hlinked, decide_eq_true_eq]
      split_ifs <;> omega
    rw [List.foldlM_cons, countMember, hfind, hcount]
    exact hrun

theorem componentSize_eq_some (hfuel : keys.length ≤ fuel) (hpart : Partitions parent keys es) {x : String}
    (hx : x ∈ keys) :
    ∃ parent', componentSize fuel keys parent x = some (keys.countP fun k => Linked es x k, parent') ∧
      Partitions parent' keys es := by
  obtain ⟨root, parent₁, hfind, hroot, hforest, hsame⟩ := find_eq_some hpart.forest hx hfuel
  have hpart₁ := hpart.of_sameRoots hforest hsame
  obtain ⟨parent', hrun, hpart'⟩ := foldlM_countMember hfuel hx ((hsame x root).2 hroot) keys (fun _ hk => hk) 0
    (SameRoots.refl parent₁) hpart₁
  refine ⟨parent', ?_, hpart'⟩
  rw [Nat.zero_add] at hrun
  simp only [componentSize, hfind]
  exact hrun

theorem eq_of_countP_lt_two {P : String → Prop} {x y : String} (h : (keys.countP fun k => P k) < 2) (hx : x ∈ keys)
    (hPx : P x) (hy : y ∈ keys) (hPy : P y) : y = x := by
  rw [List.countP_eq_length_filter] at h
  have hx : x ∈ keys.filter fun k => P k := List.mem_filter.2 ⟨hx, by simpa using hPx⟩
  have hy : y ∈ keys.filter fun k => P k := List.mem_filter.2 ⟨hy, by simpa using hPy⟩
  match hkept : keys.filter fun k => P k with
  | [] =>
    rw [hkept] at hx
    exact nomatch hx
  | [z] =>
    rw [hkept, List.mem_singleton] at hx hy
    rw [hx, hy]
  | _ :: _ :: _ =>
    rw [hkept, List.length_cons, List.length_cons] at h
    omega

theorem Partitioned.isolatedFqns (hfuel : keys.length ≤ fuel) (fqns : List String)
    (hfqns : ∀ fqn ∈ fqns, U.lower fqn ∈ keys) {g : JoinGraph K} (h : g.Partitioned keys) :
    ∃ isolated g', RoboMeta.isolatedFqns U fuel g fqns = some (isolated, g') ∧ g'.Partitioned keys ∧
      g'.bridges = g.bridges ∧ ∀ fqn ∈ isolated, g.Isolated keys (U.lower fqn) := by
  unfold RoboMeta.isolatedFqns
  suffices hloop : ∀ acc : List String, (∀ fqn ∈ acc, g.Isolated keys (U.lower fqn)) →
      ∃ isolated g', fqns.foldlM (addIsolated U fuel) (acc, g) = some (isolated, g') ∧
        g'.Partitioned keys ∧ g'.bridges = g.bridges ∧
          ∀ fqn ∈ isolated, g.Isolated keys (U.lower fqn) from
    hloop [] (by simp)
  induction fqns generalizing g with
  | nil => exact fun acc hacc => ⟨acc, g, rfl, h, rfl, hacc⟩
  | cons fqn fqns ih =>
    intro acc hacc
    have hfqn : U.lower fqn ∈ keys := hfqns fqn List.mem_cons_self
    obtain ⟨parent, hsize, hparent⟩ := componentSize_eq_some hfuel h.partitions hfqn
    have h₁ : ({ g with parent := parent } : JoinGraph K).Partitioned keys :=
      ⟨h.keys_eq, hparent, h.edges_mem⟩
    rw [List.foldlM_cons, addIsolated, h.keys_eq, hsize]
    refine ih (fun fqn' hfqn' => hfqns fqn' (List.mem_cons_of_mem fqn hfqn')) h₁ _ ?_
    split_ifs with hlt
    · intro fqn' hfqn'
      rcases List.mem_append.1 hfqn' with hfqn' | hfqn'
      · exact hacc fqn' hfqn'
      · rw [List.mem_singleton.1 hfqn']
        exact fun y hy hlinked => eq_of_countP_lt_two hlt hfqn (Linked.refl _ _) hy hlinked
    · exact hacc

end

/-! ## Stages -/

section
variable (U : Unicode) [Field K] (settings : JoinSettings K) {fuel : ℕ}

/-- The fetch returns pairs among the names that it was given. -/
def FetchesAmong (fetch : List String → List (Rel K)) : Prop :=
  ∀ fqns, ∀ rel ∈ fetch fqns, U.lower rel.fromFqn ∈ fqns.map U.lower ∧ U.lower rel.toFqn ∈ fqns.map U.lower

/-- The bridge touches no table that `g` joins with another one. -/
def Fresh (g : JoinGraph K) (b : RecordedBridge K) : Prop :=
  ∀ x, b.Touches x → ∀ c ∈ g.bridges, ∀ y, c.Joins x y → y = x

theorem Partitioned.fallbackStage (hfuel : keys.length ≤ fuel) (enabled : Bool) (via : BridgeVia)
    (fetch : List String → List (Rel K)) {fqns : List String} (hfqns : ∀ fqn ∈ fqns, U.lower fqn ∈ keys)
    {g : JoinGraph K} (h : g.Partitioned keys) :
    ∃ g', RoboMeta.fallbackStage U fuel settings enabled via fetch fqns g = some g' ∧ g'.Partitioned keys ∧
      Extends (fun b => b.bridge.via = via ∧ b.Keyed U ∧ (FetchesAmong U fetch → Fresh g b)) g g' := by
  unfold RoboMeta.fallbackStage
  cases enabled with
  | false => exact ⟨g, rfl, h, [], by simp, by simp⟩
  | true =>
    obtain ⟨isolated, g₁, hisolated, h₁, hbridges₁, hfresh⟩ := h.isolatedFqns (U := U) hfuel fqns hfqns
    simp only [if_true, hisolated]
    by_cases htwo : 2 ≤ isolated.length
    · obtain ⟨g', hrun, h', added, hbridges, hadded⟩ :=
        Partitioned.recordBridges U settings hfuel via (fetch isolated) h₁
      refine ⟨g', by simpa [htwo] using hrun, h', added, by rw [hbridges, hbridges₁], fun b hb => ?_⟩
      obtain ⟨hvia, hkeyed, rel, hrel, hfrom, hto⟩ := hadded b hb
      refine ⟨hvia, hkeyed, fun hfetch x hx c hc y hjoins => ?_⟩
      have hx : x ∈ isolated.map U.lower := by
        obtain ⟨hrfrom, hrto⟩ := hfetch isolated rel hrel
        rcases hx with rfl | rfl
        · rwa [hfrom]
        · rwa [hto]
      obtain ⟨fqn, hfqn, rfl⟩ := List.mem_map.1 hx
      exact h.not_joins (hfresh fqn hfqn) hc hjoins
    · exact ⟨g₁, by simp [htwo], h₁, [], by simpa using hbridges₁, by simp⟩

end

/-! ## The three stages -/

theorem lower_mem_poolKeys {U : Unicode} {joinPool : List (TableCandidate K)} {fqn : String}
    (h : fqn ∈ tableFqns joinPool) : U.lower fqn ∈ poolKeys U joinPool :=
  mem_keys_candMap.2 ⟨fqn, h, rfl⟩

theorem Partitioned.find_eq_iff {fuel : ℕ} (h : g.Partitioned keys) (hfuel : keys.length ≤ fuel) {x y : String}
    (hx : x ∈ keys) (hy : y ∈ keys) :
    (find fuel g.parent x).map Prod.fst = (find fuel g.parent y).map Prod.fst ↔ Linked g.edges x y := by
  obtain ⟨rx, px, hfindx, hrx, -⟩ := find_eq_some h.partitions.forest hx hfuel
  obtain ⟨ry, py, hfindy, hry, -⟩ := find_eq_some h.partitions.forest hy hfuel
  rw [hfindx, hfindy, Option.map_some, Option.map_some, Option.some.injEq, ← UnionFind.joined_iff hrx hry,
    h.partitions.joined_iff x hx y hy]

theorem find_isSome {fuel : ℕ} {parent : Parents String} (h : Forest parent keys) (hfuel : keys.length ≤ fuel)
    {x : String} (hx : x ∈ keys) : (find fuel parent x).isSome := by
  obtain ⟨r, parent', hfind, -⟩ := find_eq_some h hx hfuel
  rw [hfind]
  rfl

/-- A bridge is a foreign key, or a later stage added it and leaves alone what the earlier ones joined. -/
theorem bridge_cases {U : Unicode} {fetch : Fetches K} {g₁ g₂ g : JoinGraph K}
    (hontology : FetchesAmong U fetch.ontologyRelationships)
    (hconvention : FetchesAmong U fetch.conventionJoins) (hfk : ∀ b ∈ g₁.bridges, b.bridge.via = .fk ∧ b.Keyed U)
    (hext₂ : Extends (fun b => b.bridge.via = .ontology ∧ b.Keyed U ∧
      (FetchesAmong U fetch.ontologyRelationships → Fresh g₁ b)) g₁ g₂)
    (hext : Extends (fun b => b.bridge.via = .convention ∧ b.Keyed U ∧
      (FetchesAmong U fetch.conventionJoins → Fresh g₂ b)) g₂ g) {b : RecordedBridge K} (hb : b ∈ g.bridges) :
    (b.bridge.via = .fk ∧ b ∈ g₁.bridges ∧ b ∈ g₂.bridges) ∨
      (b.bridge.via = .ontology ∧ b ∈ g₂.bridges ∧ Fresh g₁ b) ∨ (b.bridge.via = .convention ∧ Fresh g₂ b) := by
  rcases hext.mem_cases hb with hb | ⟨hvia, -, hfresh⟩
  · rcases hext₂.mem_cases hb with hb₁ | ⟨hvia, -, hfresh⟩
    · exact Or.inl ⟨(hfk b hb₁).1, hb₁, hb⟩
    · exact Or.inr (Or.inl ⟨hvia, hb, hfresh hontology⟩)
  · exact Or.inr (Or.inr ⟨hvia, hfresh hconvention⟩)

section
variable (U : Unicode) [Field K] (settings : JoinSettings K) {fuel : ℕ} (fetch : Fetches K)
  (joinPool : List (TableCandidate K))

/-- The graph is what the three stages appended, one after the other. -/
theorem exists_joinGraph (hfuel : (poolKeys U joinPool).length ≤ fuel) :
    ∃ g₁ g₂ g : JoinGraph K, joinGraph U fuel settings fetch joinPool = some g ∧
      g.Partitioned (poolKeys U joinPool) ∧ (∀ b ∈ g₁.bridges, b.bridge.via = .fk ∧ b.Keyed U) ∧
      Extends (fun b => b.bridge.via = .ontology ∧ b.Keyed U ∧
        (FetchesAmong U fetch.ontologyRelationships → Fresh g₁ b)) g₁ g₂ ∧
      Extends (fun b => b.bridge.via = .convention ∧ b.Keyed U ∧
        (FetchesAmong U fetch.conventionJoins → Fresh g₂ b)) g₂ g := by
  let g₀ : JoinGraph K := {
    keys := poolKeys U joinPool
    parent := singletons (poolKeys U joinPool)
    bridges := [] }
  have h₀ : g₀.Partitioned (poolKeys U joinPool) := ⟨rfl, partitions_singletons _, by simp [g₀, edges]⟩
  unfold joinGraph
  by_cases hempty : tableFqns joinPool = []
  · rw [if_pos hempty]
    exact ⟨g₀, g₀, g₀, rfl, h₀, by simp [g₀], ⟨[], rfl, by simp⟩, [], rfl, by simp⟩
  · obtain ⟨g₁, hfk, h₁, added₁, hbridges₁, hadded₁⟩ :=
      h₀.recordBridges U settings hfuel .fk (fetch.fkRelationships (tableFqns joinPool))
    obtain ⟨g₂, honto, h₂, hext₂⟩ := h₁.fallbackStage U settings hfuel settings.joinOntologyEnabled .ontology
      fetch.ontologyRelationships fun fqn => lower_mem_poolKeys
    obtain ⟨g, hconv, h, hext⟩ := h₂.fallbackStage U settings hfuel settings.joinConventionEnabled .convention
      fetch.conventionJoins fun fqn => lower_mem_poolKeys
    refine ⟨g₁, g₂, g, ?_, h, fun b hb => ?_, hext₂, hext⟩
    · rw [if_neg hempty]
      change (RoboMeta.recordBridges U settings fuel .fk g₀ _).bind _ = some g
      rw [hfk, Option.bind_some]
      change (RoboMeta.fallbackStage U fuel settings _ .ontology _ _ g₁).bind _ = some g
      rw [honto, Option.bind_some]
      exact hconv
    · rw [hbridges₁, List.nil_append] at hb
      obtain ⟨hvia, hkeyed, -⟩ := hadded₁ b hb
      exact ⟨hvia, hkeyed⟩

theorem joinGraph_partitioned (hfuel : (poolKeys U joinPool).length ≤ fuel) {g : JoinGraph K}
    (h : joinGraph U fuel settings fetch joinPool = some g) :
    g.Partitioned (poolKeys U joinPool) ∧ ∀ b ∈ g.bridges, b.Keyed U := by
  obtain ⟨g₁, g₂, g', hgraph, hpart, hfk, hext₂, hext⟩ := exists_joinGraph U settings fetch joinPool hfuel
  obtain rfl := Option.some.inj (hgraph.symm.trans h)
  refine ⟨hpart, fun b hb => ?_⟩
  rcases hext.mem_cases hb with hb | ⟨-, hkeyed, -⟩
  · rcases hext₂.mem_cases hb with hb | ⟨-, hkeyed, -⟩
    · exact (hfk b hb).2
    · exact hkeyed
  · exact hkeyed

/-- What the graph promises: `find` comes back and tells the components of the
    bridges, and a later stage leaves alone what an earlier one joined. -/
structure ThreeStages (fuel : ℕ) (keys : List String) (g : JoinGraph K) : Prop where
  find_returns : ∀ x ∈ keys, (find fuel g.parent x).isSome
  find_eq_iff : ∀ x ∈ keys, ∀ y ∈ keys,
    (find fuel g.parent x).map Prod.fst = (find fuel g.parent y).map Prod.fst ↔ Linked g.edges x y
  ontology : ∀ b ∈ g.bridges, b.bridge.via = .ontology → ∀ x, b.Touches x →
    ∀ c ∈ g.bridges, c.bridge.via = .fk → ∀ y, c.Joins x y → y = x
  convention : ∀ b ∈ g.bridges, b.bridge.via = .convention → ∀ x, b.Touches x →
    ∀ c ∈ g.bridges, c.bridge.via = .fk ∨ c.bridge.via = .ontology → ∀ y, c.Joins x y → y = x

/-- **The three-stage join graph.**  `find` comes back after any unions of
    tables of the pool, and the graph keeps what it promises. -/
theorem joinGraph_threeStages (hontology : FetchesAmong U fetch.ontologyRelationships)
    (hconvention : FetchesAmong U fetch.conventionJoins) (hfuel : (poolKeys U joinPool).length ≤ fuel) :
    (∀ es : List (String × String), (∀ e ∈ es, e.1 ∈ poolKeys U joinPool ∧ e.2 ∈ poolKeys U joinPool) →
      ∃ parent, unions fuel (singletons (poolKeys U joinPool)) es = some parent ∧
        ∀ x ∈ poolKeys U joinPool, (find fuel parent x).isSome) ∧
    ∃ g, joinGraph U fuel settings fetch joinPool = some g ∧ ThreeStages fuel (poolKeys U joinPool) g := by
  constructor
  · intro es hes
    obtain ⟨parent, hunions, hparent⟩ := partitions_unions hfuel es hes (partitions_singletons _)
    exact ⟨parent, hunions, fun x hx => find_isSome hparent.forest hfuel hx⟩
  · obtain ⟨g₁, g₂, g, hgraph, h, hfk, hext₂, hext⟩ := exists_joinGraph U settings fetch joinPool hfuel
    have hcases {b : RecordedBridge K} (hb : b ∈ g.bridges) :=
      bridge_cases hontology hconvention hfk hext₂ hext hb
    refine ⟨g, hgraph, fun x hx => find_isSome h.partitions.forest hfuel hx,
      fun x hx y hy => h.find_eq_iff hfuel hx hy, ?_, ?_⟩
    · intro b hb hvia x hx c hc hcvia y hjoins
      have hfresh : Fresh g₁ b := by
        rcases hcases hb with ⟨hfkvia, -⟩ | ⟨-, -, hfresh⟩ | ⟨hconvia, -⟩
        · exact absurd (hfkvia.symm.trans hvia) (by decide)
        · exact hfresh
        · exact absurd (hconvia.symm.trans hvia) (by decide)
      have hc₁ : c ∈ g₁.bridges := by
        rcases hcases hc with ⟨-, hc₁, -⟩ | ⟨hontvia, -⟩ | ⟨hconvia, -⟩
        · exact hc₁
        · exact absurd (hontvia.symm.trans hcvia) (by decide)
        · exact absurd (hconvia.symm.trans hcvia) (by decide)
      exact hfresh x hx c hc₁ y hjoins
    · intro b hb hvia x hx c hc hcvia y hjoins
      have hfresh : Fresh g₂ b := by
        rcases hcases hb with ⟨hfkvia, -⟩ | ⟨hontvia, -⟩ | ⟨-, hfresh⟩
        · exact absurd (hfkvia.symm.trans hvia) (by decide)
        · exact absurd (hontvia.symm.trans hvia) (by decide)
        · exact hfresh
      have hc₂ : c ∈ g₂.bridges := by
        rcases hcases hc with ⟨-, -, hc₂⟩ | ⟨-, hc₂, -⟩ | ⟨hconvia, -⟩
        · exact hc₂
        · exact hc₂
        · rw [hconvia] at hcvia
          exact absurd hcvia (by decide)
      exact hfresh x hx c hc₂ y hjoins

end

end JoinGraph

/-! ## A pool -/

def relBetween (fromTable toTable : String) : Rel ℚ := { fromTable := some fromTable, toTable := some toTable }

/-- A fetch that knows one relation. -/
def fetchRel (fromTable toTable : String) (fqns : List String) : List (Rel ℚ) :=
  if fromTable ∈ fqns ∧ toTable ∈ fqns then [relBetween fromTable toTable] else []

theorem fetchesAmong_fetchRel (fromTable toTable : String) :
    JoinGraph.FetchesAmong .ascii (fetchRel fromTable toTable) := by
  intro fqns rel hrel
  unfold fetchRel at hrel
  split_ifs at hrel with hmem
  · rw [List.mem_singleton] at hrel
    subst hrel
    exact ⟨List.mem_map_of_mem hmem.1, List.mem_map_of_mem hmem.2⟩
  · cases hrel

/-- Foreign keys `measure`–`tag` and `tag`–`plant`, and an ontology relation
    `river`–`dam`. -/
def riverFetches : Fetches ℚ where
  fkRelationships _ := [relBetween "measure" "tag", relBetween "tag" "plant"]
  ontologyRelationships := fetchRel "river" "dam"
  conventionJoins _ := []

def joinDefaults : JoinSettings ℚ where
  joinOntologyEnabled := true
  joinConventionEnabled := true
  joinConventionConfidence := 1 / 2
  joinConventionConfidenceMismatch := 7 / 20

def riverPool : List (TableCandidate ℚ) :=
  ["measure", "tag", "plant", "river", "dam"].map fun name => { schema := "", name, score := 1 }

theorem joinGraph_threeStages_river :
    (∀ es : List (String × String), (∀ e ∈ es, e.1 ∈ poolKeys .ascii riverPool ∧ e.2 ∈ poolKeys .ascii riverPool) →
      ∃ parent, unions 5 (singletons (poolKeys .ascii riverPool)) es = some parent ∧
        ∀ x ∈ poolKeys .ascii riverPool, (find 5 parent x).isSome) ∧
    ∃ g, joinGraph .ascii 5 joinDefaults riverFetches riverPool = some g ∧
      JoinGraph.ThreeStages 5 (poolKeys .ascii riverPool) g :=
  JoinGraph.joinGraph_threeStages .ascii joinDefaults riverFetches riverPool (fetchesAmong_fetchRel "river" "dam")
    (by simp [JoinGraph.FetchesAmong, riverFetches]) (by decide +kernel)

end RoboMeta
