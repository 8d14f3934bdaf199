/-
  The selection and the order of the rows in the store.

  The queries of `PostgresV2Store` have no ORDER BY.  The similarity of an
  artifact is a maximum over its rows, and no two candidates have the same id to
  be sorted by, so neither order shows in a selection.

  * `selected_eq_of_perm`: other orders of artifacts and rows, the same selection;
  * `PostgresV2Store.selected_eq`: the rows of the tables in other orders.
-/
import RoboMeta.Decision
import RoboMeta.RankingOrder

namespace RoboMeta

/-! ## Rows of embeddings -/

/-- Every artifact has the same rows, in whatever order. -/
def SameRows {K : Type*} (embeddings embeddings' : Dict String (List (EmbeddingRow K))) : Prop :=
  ∀ artifactId, ((embeddings.get? artifactId).getD []).Perm ((embeddings'.get? artifactId).getD [])

theorem foldl_max_eq_of_perm {α K : Type*} [LinearOrder K] (f : α → K) {xs ys : List α} (h : xs.Perm ys) (best : K) :
    xs.foldl (fun best x => max best (f x)) best = ys.foldl (fun best x => max best (f x)) best :=
  h.foldl_eq' (fun x _ y _ best => max_right_comm best (f x) (f y)) best

section
variable {K : Type*} [Field K] [LinearOrder K] {N : Numerics K} {args : SelectionArgs K}
  {embeddings : Dict String (List (EmbeddingRow K))} {artifacts artifacts' : List Record}

theorem candidate_eq_of_sameRows (h : SameRows args.artifactEmbeddings embeddings) (r : Record) :
    candidate N { args with artifactEmbeddings := embeddings } r = candidate N args r := by
  have hsimilarity : similarity N { args with artifactEmbeddings := embeddings } r = similarity N args r :=
    (foldl_max_eq_of_perm _ ((h r.artifactId).filter _) 0).symm
  simp only [candidate, hsimilarity]
  rfl

theorem candidates_perm (hartifacts : artifacts'.Perm artifacts)
    (hrows : SameRows args.artifactEmbeddings embeddings) :
    (candidates N { args with artifactEmbeddings := embeddings } artifacts').Perm (candidates N args artifacts) := by
  have hcandidate : candidate N { args with artifactEmbeddings := embeddings } = candidate N args :=
    funext (candidate_eq_of_sameRows hrows)
  unfold candidates
  rw [hcandidate]
  exact (hartifacts.filter _).map _

/-! ## The selection -/

theorem artifactId_injOn_candidates (hids : (artifacts.map Record.artifactId).Nodup) :
    ∀ c ∈ candidates N args artifacts, ∀ d ∈ candidates N args artifacts,
      c.record.artifactId = d.record.artifactId → c = d := by
  intro c hc d hd hid
  obtain ⟨r, hr, rfl⟩ := List.mem_map.1 hc
  obtain ⟨s, hs, rfl⟩ := List.mem_map.1 hd
  rw [List.inj_on_of_nodup_map hids (List.mem_filter.1 hr).1 (List.mem_filter.1 hs).1 hid]

/-- Neither order shows in the ranking. -/
theorem ranked_candidates_eq (hids : (artifacts.map Record.artifactId).Nodup) (hartifacts : artifacts'.Perm artifacts)
    (hrows : SameRows args.artifactEmbeddings embeddings) :
    ranked rank (candidates N { args with artifactEmbeddings := embeddings } artifacts') =
      ranked rank (candidates N args artifacts) := by
  refine (ranked_eq_of_perm (candidates_perm hartifacts hrows).symm fun c hc d hd hkey => ?_).symm
  refine artifactId_injOn_candidates hids c hc d hd ?_
  -- equal keys are equal scores and equal ids
  exact (Prod.mk.inj (toLex_inj.1 (OrderDual.toDual_inj.1 hkey))).2

/-- **The selection does not depend on storage order**, of the artifacts or of
    the rows of each. -/
theorem selected_eq_of_perm (hids : (artifacts.map Record.artifactId).Nodup) (hartifacts : artifacts'.Perm artifacts)
    (hrows : SameRows args.artifactEmbeddings embeddings) (topK : ℕ) :
    (selectArtifacts N { args with artifactEmbeddings := embeddings } artifacts' topK).selected =
      (selectArtifacts N args artifacts topK).selected := by
  rw [selected_eq_take, selected_eq_take, ranked_candidates_eq hids hartifacts hrows]

end

/-- A row of another model and one that is as the question. -/
def twoRows : List (EmbeddingRow ℚ) :=
  [{ embeddingModel := "other", embedding := [0] }, { embeddingModel := "fixture", embedding := [1] }]

def twoRowsArgs : SelectionArgs ℚ := { embeddedArgs with artifactEmbeddings := [("art-rainfall", twoRows)] }

theorem sameRows_reverse : SameRows twoRowsArgs.artifactEmbeddings [("art-rainfall", twoRows.reverse)] := by
  intro artifactId
  by_cases h : artifactId = "art-rainfall"
  · subst h
    exact (List.reverse_perm twoRows).symm
  · have hne : (artifactId == "art-rainfall") = false := by simpa using h
    simp [twoRowsArgs, Dict.get?, List.lookup_cons, hne]

theorem selected_eq_of_perm_rainfall :
    (selectArtifacts wholeNumerics { twoRowsArgs with artifactEmbeddings := [("art-rainfall", twoRows.reverse)] }
      [rainfall, rainfallConcept] 3).selected =
    (selectArtifacts wholeNumerics twoRowsArgs [rainfallConcept, rainfall] 3).selected :=
  selected_eq_of_perm (by decide) (List.Perm.swap _ _ _) sameRows_reverse 3

/-! ## The tables of the store -/

namespace PostgresV2Store

variable {K : Type*} {store store' : PostgresV2Store K}

theorem sameRows (hartifacts : store'.semanticArtifacts.Perm store.semanticArtifacts)
    (hrows : store'.artifactEmbeddingRows.Perm store.artifactEmbeddingRows) (tenantId : String) :
    SameRows (store.artifactEmbeddings tenantId) (store'.artifactEmbeddings tenantId) := by
  have hjoin : ∀ s : PostgresV2Store K, s.artifactEmbeddings tenantId =
      groupBy Prod.fst Prod.snd (s.artifactEmbeddingRows.flatMap fun row =>
        (s.semanticArtifacts.filter fun a => a.artifactId = row.1 ∧ a.tenantId = tenantId).map fun _ => row) :=
    fun s => rfl
  intro artifactId
  rw [hjoin, hjoin, get?_groupBy, get?_groupBy]
  have hperm : (store.artifactEmbeddingRows.flatMap fun row =>
      (store.semanticArtifacts.filter fun a => a.artifactId = row.1 ∧ a.tenantId = tenantId).map fun _ => row).Perm
      (store'.artifactEmbeddingRows.flatMap fun row =>
        (store'.semanticArtifacts.filter fun a => a.artifactId = row.1 ∧ a.tenantId = tenantId).map fun _ => row) :=
    (List.Perm.flatMap_left _ fun row _ => (hartifacts.symm.filter _).map _).trans (hrows.symm.flatMap_right _)
  by_cases hmem : artifactId ∈ (store.artifactEmbeddingRows.flatMap fun row =>
      (store.semanticArtifacts.filter fun a => a.artifactId = row.1 ∧ a.tenantId = tenantId).map
        fun _ => row).map Prod.fst
  · rw [if_pos hmem, if_pos ((hperm.map _).mem_iff.1 hmem)]
    exact (hperm.filter _).map _
  · rw [if_neg hmem, if_neg (mt (hperm.map _).mem_iff.2 hmem)]

/-- The tables of the store in another order, and the same selection. -/
theorem selected_eq [Field K] [LinearOrder K] {N : Numerics K} (args : SelectionArgs K)
    (hids : (store.semanticArtifacts.map ArtifactRow.artifactId).Nodup)
    (hartifacts : store'.semanticArtifacts.Perm store.semanticArtifacts)
    (hrows : store'.artifactEmbeddingRows.Perm store.artifactEmbeddingRows) (tenantId : String) (topK : ℕ) :
    (selectArtifacts N { args with artifactEmbeddings := store'.artifactEmbeddings tenantId }
      (store'.listPublishedArtifacts tenantId) topK).selected =
    (selectArtifacts N { args with artifactEmbeddings := store.artifactEmbeddings tenantId }
      (store.listPublishedArtifacts tenantId) topK).selected := by
  have hlisted : ((store.listPublishedArtifacts tenantId).map Record.artifactId).Nodup := by
    rw [listPublishedArtifacts, List.map_map]
    exact hids.sublist (List.filter_sublist.map _)
  have hrows : SameRows ({ args with artifactEmbeddings := store.artifactEmbeddings tenantId } :
      SelectionArgs K).artifactEmbeddings (store'.artifactEmbeddings tenantId) := sameRows hartifacts hrows tenantId
  rw [selected_eq_take, selected_eq_take]
  exact congrArg (List.take topK) (ranked_candidates_eq hlisted ((hartifacts.filter _).map _) hrows)

end PostgresV2Store

end RoboMeta
