/-
  The documented ranking (`services/artifact_selector.py`): terms in common with
  the question come before similarity, and similarity before ids.

  The order that the candidates are sorted in goes by one number, in which terms
  and similarity are blended.

  * `selected_eq_take`: the selection as a ranked list that is cut;
  * `documentedOrder_iff`: which pairs of artifacts the order keeps.
-/
import Mathlib.Algebra.Order.Ring.Rat
import RoboMeta.Bundle
import RoboMeta.Lib.Ranking

namespace RoboMeta

section
variable {K : Type*} [Field K] [LinearOrder K] (N : Numerics K) (args : SelectionArgs K)

/-! ## Documented order -/

/-- By term score, then by similarity, then by id. -/
def DocumentedBefore (a b : Record) : Prop :=
  termScore args b < termScore args a ∨ termScore args a = termScore args b ∧
    (similarity N args b < similarity N args a ∨ similarity N args a = similarity N args b ∧
      a.artifactId < b.artifactId)

/-- Wherever the selection is cut: if `b` is selected, `a` comes before it, and
    nowhere after it. -/
def ComesFirst (artifacts : List Record) (a b : Record) : Prop :=
  ∀ topK, candidate N args b ∈ (selectArtifacts N args artifacts topK).selected →
    [candidate N args a, candidate N args b].Sublist (selectArtifacts N args artifacts topK).selected ∧
      ¬ [candidate N args b, candidate N args a].Sublist (selectArtifacts N args artifacts topK).selected

/-- The blended number puts `a` first, or it is the same, and the ids do, or the
    list where these are the same. -/
def Ahead (artifacts : List Record) (a b : Record) : Prop :=
  blend N (termScore args b) (similarity N args b) < blend N (termScore args a) (similarity N args a) ∨
    blend N (termScore args a) (similarity N args a) = blend N (termScore args b) (similarity N args b) ∧
      (a.artifactId < b.artifactId ∨ a.artifactId = b.artifactId ∧ ¬ [b, a].Sublist artifacts)

theorem documentedBefore_irrefl (a : Record) : ¬ DocumentedBefore N args a a := by
  simp [DocumentedBefore]

/-! ## The selection as a ranked list -/

/-- What the candidates are sorted by, the greatest first. -/
def rank (c : SelectedArtifact K) : (K ×ₗ String)ᵒᵈ := OrderDual.toDual c.key

theorem selected_eq_take (artifacts : List Record) (topK : ℕ) :
    (selectArtifacts N args artifacts topK).selected = (ranked rank (candidates N args artifacts)).take topK := by
  have hsort : (candidates N args artifacts).insertionSort SelectedArtifact.Before =
      ranked rank (candidates N args artifacts) := rfl
  by_cases hranked : ranked rank (candidates N args artifacts) = []
  · simp [selectArtifacts, hsort, hranked]
  · simp [selectArtifacts, hsort, hranked]

theorem candidate_injective : Function.Injective (candidate N args) := fun _ _ h =>
  congrArg SelectedArtifact.record h

theorem mem_candidates {artifacts : List Record} {r : Record} :
    candidate N args r ∈ candidates N args artifacts ↔ r ∈ artifacts ∧ Qualifies args r := by
  rw [candidates_eq, List.mem_map_of_injective (candidate_injective N args), List.mem_filter, decide_eq_true_eq]

theorem before_candidates_iff {artifacts : List Record} {a b : Record} (ha : Qualifies args a)
    (hb : Qualifies args b) :
    [candidate N args b, candidate N args a].Sublist (candidates N args artifacts) ↔ [b, a].Sublist artifacts := by
  rw [candidates_eq]
  constructor
  · intro h
    obtain ⟨l, hl, hmap⟩ := List.sublist_map_iff.1 h
    have hl' : [b, a] = l := List.map_injective_iff.2 (candidate_injective N args) hmap
    exact (hl' ▸ hl).trans List.filter_sublist
  · intro h
    have hfilter := (h.filter fun r => decide (Qualifies args r)).map (candidate N args)
    simpa [ha, hb] using hfilter

theorem rank_eq_iff {a b : Record} :
    rank (candidate N args a) = rank (candidate N args b) ↔
      (candidate N args a).score = (candidate N args b).score ∧ a.artifactId = b.artifactId := by
  rw [rank, rank, OrderDual.toDual_inj, SelectedArtifact.key, SelectedArtifact.key, toLex_inj, Prod.mk.injEq, neg_inj]
  rfl

variable [IsStrictOrderedRing K]

theorem rank_lt_iff {a b : Record} :
    rank (candidate N args b) < rank (candidate N args a) ↔
      (candidate N args b).score < (candidate N args a).score ∨
        (candidate N args a).score = (candidate N args b).score ∧ a.artifactId < b.artifactId := by
  rw [rank, rank, OrderDual.toDual_lt_toDual, SelectedArtifact.key, SelectedArtifact.key, Prod.Lex.toLex_lt_toLex,
    neg_lt_neg_iff, neg_inj]
  rfl

/-- What ranks first is ahead. -/
theorem ahead_iff {artifacts : List Record} {a b : Record} :
    Ahead N args artifacts a b ↔
      rank (candidate N args b) < rank (candidate N args a) ∨
        rank (candidate N args a) = rank (candidate N args b) ∧ ¬ [b, a].Sublist artifacts := by
  rw [rank_lt_iff, rank_eq_iff, and_assoc, or_assoc, ← and_or_left]
  rfl

/-! ## Which pairs are kept -/

/-- **The documented ranking** is kept for a pair of artifacts iff the blended
    numbers put the two in the same order. -/
theorem documentedOrder_iff {artifacts : List Record} {a b : Record} (ha : a ∈ artifacts) (hb : b ∈ artifacts)
    (hqa : Qualifies args a) (hqb : Qualifies args b) (h : DocumentedBefore N args a b) :
    ComesFirst N args artifacts a b ↔ Ahead N args artifacts a b := by
  have hca := (mem_candidates N args).2 ⟨ha, hqa⟩
  have hcb := (mem_candidates N args).2 ⟨hb, hqb⟩
  have hperm := perm_ranked rank (candidates N args artifacts)
  have hne : candidate N args a ≠ candidate N args b := by
    intro heq
    obtain rfl := candidate_injective N args heq
    exact documentedBefore_irrefl N args a h
  simp only [ComesFirst, selected_eq_take]
  rw [forall_take_iff (hperm.mem_iff.2 hca) (hperm.mem_iff.2 hcb) hne, not_before_ranked_iff hca hcb,
    before_candidates_iff N args hqa hqb, ahead_iff]

/-- What the blended numbers put behind does not come first. -/
theorem not_comesFirst {artifacts : List Record} {a b : Record} (ha : a ∈ artifacts) (hb : b ∈ artifacts)
    (hqa : Qualifies args a) (hqb : Qualifies args b)
    (h : blend N (termScore args a) (similarity N args a) < blend N (termScore args b) (similarity N args b)) :
    ¬ ComesFirst N args artifacts a b := by
  intro hfirst
  have hca := (mem_candidates N args).2 ⟨ha, hqa⟩
  have hcb := (mem_candidates N args).2 ⟨hb, hqb⟩
  have hbefore := before_ranked_of_outranks hcb hca (Or.inl ((rank_lt_iff N args).2 (Or.inl h)))
  have hall := hfirst (ranked rank (candidates N args artifacts)).length
  rw [selected_eq_take, List.take_length] at hall
  exact (hall (hbefore.subset List.mem_cons_self)).2 hbefore

end

/-! ## A pair out of order -/

/-- A question about rainfall with an embedding, which is also that of one of
    the two artifacts. -/
def embeddedArgs : SelectionArgs ℚ :=
  { rainfallArgs with
    glossary := {}
    questionEmbedding := [1]
    artifactEmbeddings := [("art-rainfall", [{ embeddingModel := "fixture", embedding := [1] }])] }

/-- An artifact whose concept has the label that is in the question. -/
def rainfallConcept : Record :=
  { rainfall with
    artifactId := "art-concept"
    payload := { bindings := [{
      bindingType := .metric, name := "metric", concept := some { label := some "rainfall", iri := none } }] } }

/-- The similarity of the one outweighs the terms of the other. -/
theorem documentedOrder_outweighed :
    DocumentedBefore wholeNumerics embeddedArgs rainfallConcept rainfall ∧
      Qualifies embeddedArgs rainfallConcept ∧ Qualifies embeddedArgs rainfall ∧
      ¬ ComesFirst wholeNumerics embeddedArgs [rainfallConcept, rainfall] rainfallConcept rainfall := by
  have hconcept : Qualifies embeddedArgs rainfallConcept := by decide +kernel
  have hrainfall : Qualifies embeddedArgs rainfall := by decide +kernel
  have hterms : termScore embeddedArgs rainfall < termScore embeddedArgs rainfallConcept := by decide +kernel
  have hblend : blend wholeNumerics (termScore embeddedArgs rainfallConcept)
      (similarity wholeNumerics embeddedArgs rainfallConcept) <
        blend wholeNumerics (termScore embeddedArgs rainfall) (similarity wholeNumerics embeddedArgs rainfall) := by
    decide +kernel
  exact ⟨Or.inl hterms, hconcept, hrainfall,
    not_comesFirst wholeNumerics embeddedArgs (by simp) (by simp) hconcept hrainfall hblend⟩

theorem documentedOrder_iff_rainfall :
    ComesFirst wholeNumerics embeddedArgs [rainfallConcept, rainfall] rainfallConcept rainfall ↔
      Ahead wholeNumerics embeddedArgs [rainfallConcept, rainfall] rainfallConcept rainfall :=
  documentedOrder_iff wholeNumerics embeddedArgs (by simp) (by simp) (by decide +kernel) (by decide +kernel)
    (Or.inl (by decide +kernel))

end RoboMeta
