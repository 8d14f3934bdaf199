/-
  Which bridges the three stages of the join graph record.

  * `bridgeOf`: the bridge of a relation;
  * `Partitioned.mem_recordBridges`, `Partitioned.isolatedFqns_eq_filter`: the
    loops, exactly;
  * `Recorded`: the relations that a stage records, given the graph before it;
  * `exists_stages`: the bridges of the join graph are those of its stages.
-/
import RoboMeta.JoinStages

namespace RoboMeta

open UnionFind

variable {K : Type}

/-- The bridge that is recorded for a relation. -/
def bridgeOf [Field K] (U : Unicode) (settings : JoinSettings K) (via : BridgeVia) (rel : Rel K) :
    RecordedBridge K where
  bridge := {
    from_ := rel.fromFqn
    to_ := rel.toFqn
    via := via
    path := (describe U settings via rel).1
    confidence := (describe U settings via rel).2 }
  fromKey := U.lower rel.fromFqn
  toKey := U.lower rel.toFqn

/-- The two ends of the relation are keys. -/
def Rel.Within (U : Unicode) (keys : List String) (rel : Rel K) : Prop :=
  U.lower rel.fromFqn ∈ keys ∧ U.lower rel.toFqn ∈ keys

theorem candMap_concat {ν : Type*} (U : Unicode) (fqn : ν → Option String) (items : List ν) (t : ν) :
    candMap U fqn (items ++ [t]) =
      (fqn t).elim (candMap U fqn items) fun name => (candMap U fqn items).set (U.lower name) t := by
  unfold candMap
  rw [List.foldl_append, List.foldl_cons, List.foldl_nil]
  cases fqn t <;> rfl

theorem nodup_keys_candMap {ν : Type*} (U : Unicode) (fqn : ν → Option String) (items : List ν) :
    ((candMap U fqn items).map Prod.fst).Nodup := by
  induction items using List.reverseRecOn with
  | nil => exact List.nodup_nil
  | append_singleton items t ih =>
    rw [candMap_concat]
    cases fqn t with
    | none => exact ih
    | some name => exact Dict.nodup_set ih _ _

namespace JoinGraph

variable {g : JoinGraph K} {keys : List String}

theorem Isolated.mono {g' : JoinGraph K} {x : String} (h : g.Isolated keys x) (hsub : ∀ b ∈ g'.bridges, b ∈ g.bridges) :
    g'.Isolated keys x := by
  refine fun y hy hlinked => h y hy (hlinked.mono fun e he => ?_)
  obtain ⟨b, hb, rfl⟩ := List.mem_map.1 he
  exact List.mem_map.2 ⟨b, hsub b hb, rfl⟩

/-! ## The loops -/

section
variable (U : Unicode) [Field K] (settings : JoinSettings K) {fuel : ℕ}

theorem Partitioned.mem_recordBridge (h : g.Partitioned keys) {via : BridgeVia} {rel : Rel K} {g' : JoinGraph K}
    (hrun : RoboMeta.recordBridge U settings fuel via g rel = some g') (b : RecordedBridge K) :
    b ∈ g'.bridges ↔ b ∈ g.bridges ∨ rel.Within U keys ∧ b = bridgeOf U settings via rel := by
  unfold RoboMeta.recordBridge at hrun
  simp only [h.partitions.forest.isSome_iff] at hrun
  split_ifs at hrun with hmem
  · obtain ⟨parent, -, hg'⟩ := Option.bind_eq_some_iff.1 hrun
    obtain rfl := Option.some.inj hg'
    rw [List.mem_append, List.mem_singleton]
    exact or_congr_right ⟨fun hb => ⟨hmem, hb⟩, And.right⟩
  · obtain rfl := Option.some.inj hrun
    exact (or_iff_left fun hb => hmem hb.1).symm

/-- The loop records the relations between tables of the pool. -/
theorem Partitioned.mem_recordBridges (hfuel : keys.length ≤ fuel) (via : BridgeVia) (rels : List (Rel K))
    {g : JoinGraph K} (h : g.Partitioned keys) :
    ∃ g', RoboMeta.recordBridges U settings fuel via g rels = some g' ∧ g'.Partitioned keys ∧
      ∀ b, b ∈ g'.bridges ↔ b ∈ g.bridges ∨ ∃ rel ∈ rels, rel.Within U keys ∧ b = bridgeOf U settings via rel := by
  induction rels generalizing g with
  | nil => exact ⟨g, rfl, h, by simp⟩
  | cons rel rels ih =>
    obtain ⟨g₁, hstep, h₁, -⟩ := h.recordBridge U settings hfuel via rel
    obtain ⟨g', hrun, h', hmem⟩ := ih h₁
    refine ⟨g', ?_, h', fun b => ?_⟩
    · rw [RoboMeta.recordBridges, List.foldlM_cons, hstep]
      exact hrun
    · rw [hmem, h.mem_recordBridge U settings hstep, or_assoc, List.exists_mem_cons_iff]

end

section
open Classical

variable {U : Unicode} {fuel : ℕ}

/-- A key is alone iff it is the only one that is linked with it. -/
theorem countP_lt_two_iff (hkeys : keys.Nodup) {x : String} (hx : x ∈ keys) :
    (keys.countP fun k => Linked g.edges x k) < 2 ↔ g.Isolated keys x := by
  constructor
  · intro hlt y hy hlinked
    exact eq_of_countP_lt_two hlt hx (Linked.refl _ _) hy hlinked
  · intro halone
    have hcount : (keys.countP fun k => Linked g.edges x k) ≤ keys.count x := by
      rw [List.count]
      exact List.countP_mono_left fun k hk hlinked => beq_iff_eq.2 (halone k hk (of_decide_eq_true hlinked))
    rw [List.count_eq_one_of_mem hkeys hx] at hcount
    omega

theorem Partitioned.isolatedFqns_eq_filter (hkeys : keys.Nodup) (hfuel : keys.length ≤ fuel) (fqns : List String)
    (hfqns : ∀ fqn ∈ fqns, U.lower fqn ∈ keys) {g : JoinGraph K} (h : g.Partitioned keys) :
    ∃ g', RoboMeta.isolatedFqns U fuel g fqns =
        some (fqns.filter fun fqn => g.Isolated keys (U.lower fqn), g') ∧
      g'.Partitioned keys ∧ g'.bridges = g.bridges := by
  unfold RoboMeta.isolatedFqns
  suffices hloop : ∀ acc : List String,
      ∃ g', fqns.foldlM (addIsolated U fuel) (acc, g) =
          some (acc ++ fqns.filter fun fqn => g.Isolated keys (U.lower fqn), g') ∧
        g'.Partitioned keys ∧ g'.bridges = g.bridges from hloop []
  induction fqns generalizing g with
  | nil => exact fun acc => ⟨g, by rw [List.filter_nil, List.append_nil]; rfl, h, rfl⟩
  | cons fqn fqns ih =>
    intro acc
    have hfqn : U.lower fqn ∈ keys := hfqns fqn List.mem_cons_self
    obtain ⟨parent, hsize, hparent⟩ := componentSize_eq_some hfuel h.partitions hfqn
    have h₁ : ({ g with parent := parent } : JoinGraph K).Partitioned keys := ⟨h.keys_eq, hparent, h.edges_mem⟩
    obtain ⟨g', hrun, h', hbridges⟩ := ih (fun fqn' hfqn' => hfqns fqn' (List.mem_cons_of_mem fqn hfqn')) h₁
      (if g.Isolated keys (U.lower fqn) then acc ++ [fqn] else acc)
    refine ⟨g', ?_, h', hbridges⟩
    rw [List.foldlM_cons, addIsolated, h.keys_eq, hsize]
    simp only [Option.bind_eq_bind, Option.bind_some, Option.pure_def, countP_lt_two_iff hkeys hfqn]
    rw [hrun]
    by_cases halone : g.Isolated keys (U.lower fqn)
    · rw [if_pos halone, List.filter_cons, if_pos (decide_eq_true halone), List.append_assoc]
      rfl
    · rw [if_neg halone, List.filter_cons, if_neg (by simpa using halone)]
      rfl

end

/-! ## The stages -/

section
variable (U : Unicode)

open Classical in
/-- The tables that a later stage asks for: the ones that are alone. -/
noncomputable def alone (keys : List String) (g : JoinGraph K) (fqns : List String) : List String :=
  fqns.filter fun fqn => g.Isolated keys (U.lower fqn)

theorem mem_alone {keys : List String} {g : JoinGraph K} {fqns : List String} {fqn : String} :
    fqn ∈ alone U keys g fqns ↔ fqn ∈ fqns ∧ g.Isolated keys (U.lower fqn) := by
  simp [alone]

theorem mem_map_alone {keys : List String} {g : JoinGraph K} {fqns : List String} {x : String} :
    x ∈ (alone U keys g fqns).map U.lower ↔ x ∈ fqns.map U.lower ∧ g.Isolated keys x := by
  simp only [List.mem_map, mem_alone]
  constructor
  · rintro ⟨fqn, ⟨hfqn, halone⟩, rfl⟩
    exact ⟨⟨fqn, hfqn, rfl⟩, halone⟩
  · rintro ⟨⟨fqn, hfqn, rfl⟩, halone⟩
    exact ⟨fqn, ⟨hfqn, halone⟩, rfl⟩

theorem two_le_length_alone {keys : List String} {g : JoinGraph K} {fqns : List String} {x y : String}
    (hx : x ∈ (alone U keys g fqns).map U.lower) (hy : y ∈ (alone U keys g fqns).map U.lower) (hne : x ≠ y) :
    2 ≤ (alone U keys g fqns).length := by
  rw [← List.length_map (f := U.lower)]
  match hlist : (alone U keys g fqns).map U.lower with
  | [] => simp [hlist] at hx
  | [z] =>
    rw [hlist, List.mem_singleton] at hx hy
    exact absurd (hx.trans hy.symm) hne
  | _ :: _ :: _ => simp

variable [Field K] (settings : JoinSettings K) (keys : List String)

/-- What a stage records for the relations that it fetched. -/
def Recorded (via : BridgeVia) (rels : List (Rel K)) (b : RecordedBridge K) : Prop :=
  ∃ rel ∈ rels, rel.Within U keys ∧ b = bridgeOf U settings via rel

/-- What a later stage records, if it runs, for the tables that are alone. -/
def FallbackRecorded (enabled : Bool) (via : BridgeVia) (fetch : List String → List (Rel K)) (fqns : List String)
    (g : JoinGraph K) (b : RecordedBridge K) : Prop :=
  enabled = true ∧ 2 ≤ (alone U keys g fqns).length ∧ Recorded U settings keys via (fetch (alone U keys g fqns)) b

variable {keys} {fuel : ℕ}

theorem Partitioned.mem_fallbackStage (hkeys : keys.Nodup) (hfuel : keys.length ≤ fuel) (enabled : Bool)
    (via : BridgeVia) (fetch : List String → List (Rel K)) {fqns : List String}
    (hfqns : ∀ fqn ∈ fqns, U.lower fqn ∈ keys) {g : JoinGraph K} (h : g.Partitioned keys) :
    ∃ g', RoboMeta.fallbackStage U fuel settings enabled via fetch fqns g = some g' ∧ g'.Partitioned keys ∧
      ∀ b, b ∈ g'.bridges ↔ b ∈ g.bridges ∨ FallbackRecorded U settings keys enabled via fetch fqns g b := by
  unfold RoboMeta.fallbackStage FallbackRecorded
  cases enabled with
  | false => exact ⟨g, rfl, h, by simp⟩
  | true =>
    obtain ⟨g₁, hisolated, h₁, hbridges₁⟩ := h.isolatedFqns_eq_filter (U := U) hkeys hfuel fqns hfqns
    simp only [if_true, hisolated, ← alone.eq_1, true_and]
    by_cases htwo : 2 ≤ (alone U keys g fqns).length
    · obtain ⟨g', hrun, h', hmem⟩ :=
        Partitioned.mem_recordBridges U settings hfuel via (fetch (alone U keys g fqns)) h₁
      refine ⟨g', by simpa [htwo] using hrun, h', fun b => ?_⟩
      rw [hmem, hbridges₁]
      exact or_congr_right ⟨fun hb => ⟨htwo, hb⟩, And.right⟩
    · refine ⟨g₁, by simp [htwo], h₁, fun b => ?_⟩
      rw [hbridges₁]
      exact (or_iff_left fun hb => htwo hb.1).symm

/-- The stages that lead to the join graph of a pool. -/
structure Stages (fuel : ℕ) (fetch : Fetches K) (joinPool : List (TableCandidate K)) (g₁ g₂ g : JoinGraph K) :
    Prop where
  joinGraph_eq : joinGraph U fuel settings fetch joinPool = some g
  fkStage_eq : tableFqns joinPool ≠ [] → fkStage U fuel settings fetch (tableFqns joinPool)
    ⟨poolKeys U joinPool, singletons (poolKeys U joinPool), []⟩ = some g₁
  ontologyStage_eq : tableFqns joinPool ≠ [] →
    ontologyStage U fuel settings fetch (tableFqns joinPool) g₁ = some g₂
  partitioned₁ : g₁.Partitioned (poolKeys U joinPool)
  partitioned₂ : g₂.Partitioned (poolKeys U joinPool)
  partitioned : g.Partitioned (poolKeys U joinPool)
  mem_fk : ∀ b, b ∈ g₁.bridges ↔ tableFqns joinPool ≠ [] ∧
    Recorded U settings (poolKeys U joinPool) .fk (fetch.fkRelationships (tableFqns joinPool)) b
  mem_ontology : ∀ b, b ∈ g₂.bridges ↔ b ∈ g₁.bridges ∨ FallbackRecorded U settings (poolKeys U joinPool)
    settings.joinOntologyEnabled .ontology fetch.ontologyRelationships (tableFqns joinPool) g₁ b
  mem_convention : ∀ b, b ∈ g.bridges ↔ b ∈ g₂.bridges ∨ FallbackRecorded U settings (poolKeys U joinPool)
    settings.joinConventionEnabled .convention fetch.conventionJoins (tableFqns joinPool) g₂ b

theorem exists_stages (fetch : Fetches K) (joinPool : List (TableCandidate K))
    (hfuel : (poolKeys U joinPool).length ≤ fuel) :
    ∃ g₁ g₂ g : JoinGraph K, Stages U settings fuel fetch joinPool g₁ g₂ g := by
  let g₀ : JoinGraph K := {
    keys := poolKeys U joinPool
    parent := singletons (poolKeys U joinPool)
    bridges := [] }
  have h₀ : g₀.Partitioned (poolKeys U joinPool) := ⟨rfl, partitions_singletons _, by simp [g₀, edges]⟩
  have hkeys : (poolKeys U joinPool).Nodup := nodup_keys_candMap U _ joinPool
  by_cases hempty : tableFqns joinPool = []
  · have hnone : ∀ enabled via fetch b, ¬ FallbackRecorded U settings (poolKeys U joinPool) enabled via fetch
        (tableFqns joinPool) g₀ b := by
      intro enabled via fetch b hb
      rw [FallbackRecorded, alone, hempty, List.filter_nil, List.length_nil] at hb
      exact absurd hb.2.1 (by omega)
    refine ⟨g₀, g₀, g₀, ?_, absurd hempty, absurd hempty, h₀, h₀, h₀, ?_, ?_, ?_⟩
    · rw [joinGraph, if_pos hempty]
    · exact fun b => iff_of_false List.not_mem_nil fun hb => hb.1 hempty
    · exact fun b => (or_iff_left (hnone _ _ _ b)).symm
    · exact fun b => (or_iff_left (hnone _ _ _ b)).symm
  · obtain ⟨g₁, hfk, h₁, hmem₁⟩ := Partitioned.mem_recordBridges U settings hfuel .fk
      (fetch.fkRelationships (tableFqns joinPool)) h₀
    obtain ⟨g₂, honto, h₂, hmem₂⟩ := h₁.mem_fallbackStage U settings hkeys hfuel settings.joinOntologyEnabled
      .ontology fetch.ontologyRelationships fun fqn => lower_mem_poolKeys
    obtain ⟨g, hconv, h, hmem⟩ := h₂.mem_fallbackStage U settings hkeys hfuel settings.joinConventionEnabled
      .convention fetch.conventionJoins fun fqn => lower_mem_poolKeys
    refine ⟨g₁, g₂, g, ?_, fun _ => hfk, fun _ => honto, h₁, h₂, h, fun b => ?_, hmem₂, hmem⟩
    · unfold joinGraph
      rw [if_neg hempty]
      change (RoboMeta.recordBridges U settings fuel .fk g₀ _).bind _ = some g
      rw [hfk, Option.bind_some]
      change (RoboMeta.fallbackStage U fuel settings _ .ontology _ _ g₁).bind _ = some g
      rw [honto, Option.bind_some]
      exact hconv
    · rw [hmem₁]
      exact ⟨fun hb => ⟨hempty, hb.resolve_left List.not_mem_nil⟩, fun hb => Or.inr hb.2⟩

end

end JoinGraph

end RoboMeta
