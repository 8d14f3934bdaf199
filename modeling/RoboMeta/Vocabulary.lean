/-
  Whose vocabulary an artifact is selected on (`services/artifact_selector.py`).

  `_lexical_terms` counts the whole glossary of the tenant among the surfaces of
  every artifact, besides the artifact's own labels.

  * `mem_termHits`: what the term hits of an artifact are;
  * `ownVocabulary_iff`: when all artifacts selected have a hit of their own.
-/
import RoboMeta.Bundle

namespace RoboMeta

/-! ## Term hits -/

/-- A concept label or binding name of the artifact. -/
def OwnLabel (record : Record) (surface : String) : Prop :=
  surface ∈ (record.payload.bindings.flatMap Binding.surfaces).map Prod.fst

/-- A standard term or synonym. -/
def GlossaryWord (glossary : Glossary) (surface : String) : Prop :=
  (∃ term ∈ glossary.terms, term.standardTerm = some surface) ∨
    ∃ synonym ∈ glossary.synonyms, synonym.synonym = some surface

/-- A label of the artifact, be it a standard term or not, or a synonym whose
    standard term is one. -/
def Owns (glossary : Glossary) (record : Record) (surface : String) : Prop :=
  OwnLabel record surface ∨ ∃ synonym ∈ glossary.synonyms,
    synonym.synonym = some surface ∧ ∃ label, synonym.standardTerm = some label ∧ OwnLabel record label

def Occurs (question surface : String) : Prop := surface ≠ "" ∧ occursIn surface question

section
variable {K : Type*} {args : SelectionArgs K} {record : Record} {surface : String}

theorem nonempty_eq_some_iff {text : Option String} :
    nonempty text = some surface ↔ text = some surface ∧ surface ≠ "" := by
  cases text with
  | none => simp [nonempty]
  | some t =>
    simp only [nonempty, Option.filter_some, decide_eq_true_eq, Option.some.injEq]
    by_cases ht : t = ""
    · rw [if_neg (not_not.2 ht)]
      simp [ht, eq_comm]
    · rw [if_pos ht, Option.some.injEq]
      refine (and_iff_left_of_imp ?_).symm
      rintro rfl
      exact ht

theorem mem_keys_lexicalTerms {glossary : Glossary} (h : surface ≠ "") :
    surface ∈ (lexicalTerms record glossary).map Prod.fst ↔
      OwnLabel record surface ∨ GlossaryWord glossary surface := by
  rw [lexicalTerms, Dict.mem_keys_foldl_set, List.map_append, List.map_append, List.mem_append, List.mem_append,
    GlossaryWord, or_assoc, OwnLabel, List.map_nil]
  have hterm : surface ∈ (glossary.terms.filterMap fun term =>
      (nonempty term.standardTerm).map fun s => (s, SurfaceKind.standardTerm)).map Prod.fst ↔
        ∃ term ∈ glossary.terms, term.standardTerm = some surface := by
    simp only [List.map_filterMap, Option.map_map, Function.comp_def, Option.map_id', List.mem_filterMap,
      nonempty_eq_some_iff, h, ne_eq, not_false_eq_true, and_true]
  have hsynonym : surface ∈ (glossary.synonyms.filterMap fun synonym =>
      (nonempty synonym.synonym).map fun s => (s, SurfaceKind.synonym)).map Prod.fst ↔
        ∃ synonym ∈ glossary.synonyms, synonym.synonym = some surface := by
    simp only [List.map_filterMap, Option.map_map, Function.comp_def, Option.map_id', List.mem_filterMap,
      nonempty_eq_some_iff, h, ne_eq, not_false_eq_true, and_true]
  rw [hterm, hsynonym, or_iff_right List.not_mem_nil]

theorem mem_termHits :
    surface ∈ termHits args record ↔
      Occurs args.question surface ∧ (OwnLabel record surface ∨ GlossaryWord args.glossary surface) := by
  have hkeys : surface ∈ termHits args record ↔
      surface ∈ (lexicalTerms record args.glossary).map Prod.fst ∧ Occurs args.question surface := by
    simp only [termHits, matchedSurfaces, List.mem_map, List.mem_filter, decide_eq_true_eq, Occurs]
    constructor
    · rintro ⟨item, ⟨hitem, hoccurs⟩, rfl⟩
      exact ⟨⟨item, hitem, rfl⟩, hoccurs⟩
    · rintro ⟨⟨item, hitem, rfl⟩, hoccurs⟩
      exact ⟨item, ⟨hitem, hoccurs⟩, rfl⟩
  rw [hkeys, and_comm]
  exact and_congr_right fun hoccurs => mem_keys_lexicalTerms hoccurs.1

theorem mem_termHits_of_owns (hoccurs : Occurs args.question surface) (h : Owns args.glossary record surface) :
    surface ∈ termHits args record := by
  refine mem_termHits.2 ⟨hoccurs, ?_⟩
  rcases h with h | ⟨synonym, hmem, hsynonym, -⟩
  · exact Or.inl h
  · exact Or.inr (Or.inr ⟨synonym, hmem, hsynonym⟩)

end

/-! ## Selection -/

/-- The glossary answers to the question, the artifact does not. -/
structure OnlyGlossary {K : Type*} (args : SelectionArgs K) (record : Record) : Prop where
  word : ∃ surface, Occurs args.question surface ∧ GlossaryWord args.glossary surface
  notOwn : ∀ surface, Occurs args.question surface → ¬ Owns args.glossary record surface

section
variable {K : Type*} (args : SelectionArgs K)

/-- A qualified artifact has no hit of its own iff the glossary alone answers. -/
theorem exists_own_hit_iff {record : Record} (h : Qualifies args record) :
    (∃ hit ∈ termHits args record, Owns args.glossary record hit) ↔ ¬ OnlyGlossary args record := by
  constructor
  · rintro ⟨hit, hhit, howns⟩ honly
    exact honly.notOwn hit (mem_termHits.1 hhit).1 howns
  · intro honly
    by_contra! hnone
    refine honly ⟨?_, fun surface hoccurs howns => hnone surface (mem_termHits_of_owns hoccurs howns) howns⟩
    -- the artifact has a hit, and that is a word of the glossary
    obtain ⟨hit, hhit⟩ := List.exists_mem_of_ne_nil _ h.2
    obtain ⟨hoccurs, hlabel | hword⟩ := mem_termHits.1 hhit
    · exact absurd (Or.inl hlabel) (hnone hit hhit)
    · exact ⟨hit, hoccurs, hword⟩

theorem qualifies_of_onlyGlossary {record : Record} (hfilter : hardFilter args.toAccess record = none)
    (h : OnlyGlossary args record) : Qualifies args record := by
  obtain ⟨surface, hoccurs, hword⟩ := h.word
  exact ⟨hfilter, List.ne_nil_of_mem (mem_termHits.2 ⟨hoccurs, Or.inr hword⟩)⟩

end

section
variable {K : Type*} [Field K] [LinearOrder K] (N : Numerics K) (args : SelectionArgs K)

/-- However many are selected, each has a hit of its own. -/
def OwnVocabulary (artifacts : List Record) : Prop :=
  ∀ topK, ∀ c ∈ (selectArtifacts N args artifacts topK).selected, ∃ hit ∈ c.termHits, Owns args.glossary c.record hit

theorem exists_selected_iff {artifacts : List Record} {c : SelectedArtifact K} :
    (∃ topK, c ∈ (selectArtifacts N args artifacts topK).selected) ↔
      ∃ r ∈ artifacts, Qualifies args r ∧ c = candidate N args r := by
  have hcandidate : (∃ r ∈ artifacts, Qualifies args r ∧ c = candidate N args r) ↔
      c ∈ (artifacts.filter fun r => Qualifies args r).map (candidate N args) := by
    simp only [List.mem_map, List.mem_filter, decide_eq_true_eq, and_assoc, eq_comm (a := c)]
  rw [hcandidate]
  constructor
  · rintro ⟨topK, hc⟩
    obtain ⟨ranked, hperm, -, hselected⟩ := selectArtifacts_selected N args artifacts topK
    rw [hselected] at hc
    exact hperm.mem_iff.1 (List.mem_of_mem_take hc)
  · intro hc
    obtain ⟨ranked, hperm, -, hselected⟩ := selectArtifacts_selected N args artifacts artifacts.length
    refine ⟨artifacts.length, ?_⟩
    have hlength : ranked.length ≤ artifacts.length := by
      rw [hperm.length_eq, List.length_map]
      exact List.length_filter_le _ _
    rw [hselected, List.take_of_length_le hlength]
    exact hperm.mem_iff.2 hc

theorem not_onlyGlossary_of_ownVocabulary {artifacts : List Record} (h : OwnVocabulary N args artifacts)
    {r : Record} (hr : r ∈ artifacts) (hfilter : hardFilter args.toAccess r = none) : ¬ OnlyGlossary args r := by
  intro honly
  have hqualifies := qualifies_of_onlyGlossary args hfilter honly
  obtain ⟨topK, hc⟩ := (exists_selected_iff N args).2 ⟨r, hr, hqualifies, rfl⟩
  exact (exists_own_hit_iff args hqualifies).1 (h topK _ hc) honly

/-- **No selection on someone else's vocabulary**, iff no artifact passes the
    hard filter to which only the glossary relates the question. -/
theorem ownVocabulary_iff (artifacts : List Record) :
    OwnVocabulary N args artifacts ↔
      ∀ r ∈ artifacts, hardFilter args.toAccess r = none → ¬ OnlyGlossary args r := by
  constructor
  · exact fun h r hr hfilter => not_onlyGlossary_of_ownVocabulary N args h hr hfilter
  · intro h topK c hc
    obtain ⟨r, hr, hqualifies, rfl⟩ := (exists_selected_iff N args).1 ⟨topK, hc⟩
    exact (exists_own_hit_iff args hqualifies).2 (h r hr hqualifies.1)

end

/-- A question about floods, which are a standard term. -/
def floodArgs : SelectionArgs ℚ :=
  { rainfallArgs with question := "flood of September", glossary := { terms := [{ standardTerm := some "flood" }] } }

theorem onlyGlossary_flood : OnlyGlossary floodArgs rainfall where
  word := ⟨"flood", by rw [Occurs]; decide +kernel, Or.inl ⟨_, List.mem_singleton_self _, rfl⟩⟩
  notOwn := by
    have hlabels : (rainfall.payload.bindings.flatMap Binding.surfaces).map Prod.fst = ["rainfall"] := by
      decide +kernel
    have hnot : ¬ Occurs floodArgs.question "rainfall" := by rw [Occurs]; decide +kernel
    rintro surface hoccurs (hlabel | ⟨synonym, hsynonym, -⟩)
    · rw [OwnLabel, hlabels, List.mem_singleton] at hlabel
      rw [hlabel] at hoccurs
      exact hnot hoccurs
    · exact absurd hsynonym List.not_mem_nil

/-- The rainfall artifact is selected for it. -/
theorem ownVocabulary_flood : ¬ OwnVocabulary wholeNumerics floodArgs [rainfall] := fun h =>
  not_onlyGlossary_of_ownVocabulary wholeNumerics floodArgs h (List.mem_singleton_self _) (by decide +kernel)
    onlyGlossary_flood

end RoboMeta
