/-
  The matched vocabulary of a bundle against the term hits of the selector
  (`services/bundle_assembler.py`, `services/artifact_selector.py`).

  Both scan the glossary for words that occur in the question: the selector
  writes them into one dict, the assembler appends them to a list, the standard
  terms as they come and of the synonyms those it does not have yet.

  * `VocabularyAgrees`: the mentions are the words of the glossary in the
    question, each once, and the same among the hits of every artifact selected;
  * `vocabularyAgrees_iff`: this holds iff no standard term of the question
    stands in two rows.
-/
import RoboMeta.Vocabulary

namespace RoboMeta

/-! ## The two loops of `_matched_terms` -/

/-- The standard terms that occur in the question, row by row. -/
def standardMentions (question : String) (glossary : Glossary) : List String :=
  (glossary.terms.filterMap fun term => nonempty term.standardTerm).filter fun surface => occursIn surface question

/-- What the body of the second loop does to the mentions. -/
def matchMention (question : String) (mentions : List String) (synonym : Synonym) : List String :=
  (nonempty synonym.synonym).elim mentions fun surface =>
    if occursIn surface question ∧ surface ∉ mentions then mentions ++ [surface] else mentions

section
variable {question surface : String} {mentions : List String}

theorem mem_matchMention {synonym : Synonym} : surface ∈ matchMention question mentions synonym ↔
    surface ∈ mentions ∨ synonym.synonym = some surface ∧ Occurs question surface := by
  unfold matchMention
  cases hsynonym : nonempty synonym.synonym with
  | none =>
    refine (or_iff_left ?_).symm
    rintro ⟨htext, hoccurs⟩
    rw [nonempty_eq_some_iff.2 ⟨htext, hoccurs.1⟩] at hsynonym
    cases hsynonym
  | some s =>
    obtain ⟨htext, hne⟩ := nonempty_eq_some_iff.1 hsynonym
    rw [htext, Option.some.injEq, Option.elim_some]
    by_cases hnew : occursIn s question ∧ s ∉ mentions
    · rw [if_pos hnew, List.mem_append, List.mem_singleton]
      refine or_congr_right ⟨?_, fun h => h.1.symm⟩
      rintro rfl
      exact ⟨rfl, hne, hnew.1⟩
    · rw [if_neg hnew]
      refine (or_iff_left_of_imp ?_).symm
      rintro ⟨rfl, hoccurs⟩
      exact not_not.1 fun hmem => hnew ⟨hoccurs.2, hmem⟩

theorem nodup_matchMention {synonym : Synonym} : (matchMention question mentions synonym).Nodup ↔ mentions.Nodup := by
  unfold matchMention
  cases nonempty synonym.synonym with
  | none => exact Iff.rfl
  | some s =>
    rw [Option.elim_some]
    split_ifs with hnew
    · rw [List.nodup_append_comm, List.singleton_append, List.nodup_cons]
      exact and_iff_right hnew.2
    · exact Iff.rfl

theorem mem_foldl_matchMention {synonyms : List Synonym} : surface ∈ synonyms.foldl (matchMention question) mentions ↔
    surface ∈ mentions ∨ (∃ synonym ∈ synonyms, synonym.synonym = some surface) ∧ Occurs question surface := by
  induction synonyms generalizing mentions with
  | nil => simp
  | cons synonym synonyms ih =>
    rw [List.foldl_cons, ih, mem_matchMention, or_assoc, ← or_and_right, List.exists_mem_cons_iff]

theorem nodup_foldl_matchMention {synonyms : List Synonym} :
    (synonyms.foldl (matchMention question) mentions).Nodup ↔ mentions.Nodup := by
  induction synonyms generalizing mentions with
  | nil => exact Iff.rfl
  | cons synonym synonyms ih => rw [List.foldl_cons, ih, nodup_matchMention]

end

/-! ## The mentions -/

section
variable {K : Type*} [Field K] {question surface : String} {glossary : Glossary}

theorem mentions_eq : (matchedTerms (K := K) question glossary).map MatchedTerm.mention =
    glossary.synonyms.foldl (matchMention question) (standardMentions question glossary) := by
  have hexact : (standardMentions question glossary).map (MatchedTerm.mention (K := K) ∘ fun surface =>
      ⟨surface, surface, .exact_, 1⟩) = standardMentions question glossary := List.map_id _
  rw [matchedTerms, ← hexact, ← List.map_map]
  refine (List.foldl_hom (List.map MatchedTerm.mention) fun matched synonym => ?_).symm
  rw [matchMention]
  cases nonempty synonym.synonym with
  | none => rfl
  | some s =>
    rw [Option.elim_some, apply_ite (List.map MatchedTerm.mention), List.map_append]
    rfl

theorem mem_standardMentions : surface ∈ standardMentions question glossary ↔
    (∃ term ∈ glossary.terms, term.standardTerm = some surface) ∧ Occurs question surface := by
  simp only [standardMentions, List.mem_filter, List.mem_filterMap, nonempty_eq_some_iff, decide_eq_true_eq, Occurs]
  constructor
  · rintro ⟨⟨term, hterm, htext, hne⟩, hoccurs⟩
    exact ⟨⟨term, hterm, htext⟩, hne, hoccurs⟩
  · rintro ⟨⟨term, hterm, htext⟩, hne, hoccurs⟩
    exact ⟨⟨term, hterm, htext, hne⟩, hoccurs⟩

/-- The mentions are the words of the glossary that occur in the question. -/
theorem mem_mentions : surface ∈ (matchedTerms (K := K) question glossary).map MatchedTerm.mention ↔
    Occurs question surface ∧ GlossaryWord glossary surface := by
  rw [mentions_eq, mem_foldl_matchMention, mem_standardMentions, ← or_and_right, and_comm, GlossaryWord]

/-- No standard term that occurs in the question stands in two rows. -/
def TermsOnce (question : String) (glossary : Glossary) : Prop :=
  glossary.terms.Pairwise fun term term' =>
    ∀ surface, Occurs question surface → ¬ (term.standardTerm = some surface ∧ term'.standardTerm = some surface)

theorem nodup_mentions_iff :
    ((matchedTerms (K := K) question glossary).map MatchedTerm.mention).Nodup ↔ TermsOnce question glossary := by
  rw [mentions_eq, nodup_foldl_matchMention, standardMentions, List.Nodup, List.pairwise_filter,
    List.pairwise_filterMap, TermsOnce]
  refine iff_of_eq (congrFun (congrArg List.Pairwise (funext₂ fun term term' => propext ?_)) _)
  constructor
  · rintro h surface hoccurs ⟨hterm, hterm'⟩
    exact h surface (nonempty_eq_some_iff.2 ⟨hterm, hoccurs.1⟩) surface
      (nonempty_eq_some_iff.2 ⟨hterm', hoccurs.1⟩) (decide_eq_true hoccurs.2) (decide_eq_true hoccurs.2) rfl
  · rintro h surface hterm surface' hterm' hoccurs - rfl
    obtain ⟨hterm, hne⟩ := nonempty_eq_some_iff.1 hterm
    exact h surface ⟨hne, of_decide_eq_true hoccurs⟩ ⟨hterm, (nonempty_eq_some_iff.1 hterm').1⟩

end

/-! ## The bundle -/

section
variable {K : Type*} [Field K] [LinearOrder K] (N : Numerics K) (args : SelectionArgs K)

/-- Selector and bundle agree on the words of the glossary in the question. -/
structure VocabularyAgrees (bundle : Bundle K) : Prop where
  distinct : (bundle.matchedTerms.map MatchedTerm.mention).Nodup
  mentions : ∀ surface, surface ∈ bundle.matchedTerms.map MatchedTerm.mention ↔
    Occurs args.question surface ∧ GlossaryWord args.glossary surface
  hits : ∀ rows ∈ bundle.evidence, ∀ evidence ∈ rows, ∀ surface,
    surface ∈ evidence.termHits ∧ GlossaryWord args.glossary surface ↔
      surface ∈ bundle.matchedTerms.map MatchedTerm.mention

variable {args} (question : String) (snapshots : Dict String Snapshot)
  (executionContext : Option Json) (profiles codeValues fewShots : List Json)

omit [LinearOrder K] in
theorem assembleBundle_matchedTerms (selection : SelectionResult K) (glossary : Glossary) :
    (assembleBundle question selection snapshots glossary executionContext profiles codeValues
      fewShots).matchedTerms = matchedTerms question glossary := by
  unfold assembleBundle
  split_ifs
  · rfl
  · rfl

omit [LinearOrder K] in
/-- The evidence of a bundle has the term hits of the artifacts selected. -/
theorem exists_selected_of_mem_evidence {selection : SelectionResult K} {glossary : Glossary} {rows : List (Evidence K)}
    (hrows : rows ∈ (assembleBundle question selection snapshots glossary executionContext profiles codeValues
      fewShots).evidence) {evidence : Evidence K} (h : evidence ∈ rows) :
    ∃ s ∈ selection.selected, evidence.termHits = s.termHits := by
  unfold assembleBundle at hrows
  split_ifs at hrows
  · cases hrows
  · obtain rfl := Option.some.inj hrows
    obtain ⟨s, hs, rfl⟩ := List.mem_map.1 h
    exact ⟨s, hs, rfl⟩

/-- **Selector and bundle agree on the matched vocabulary** iff no standard term of the question stands in
two rows of the glossary. -/
theorem vocabularyAgrees_iff (artifacts : List Record) (topK : ℕ) :
    VocabularyAgrees args (assembleBundle args.question (selectArtifacts N args artifacts topK) snapshots args.glossary
      executionContext profiles codeValues fewShots) ↔ TermsOnce args.question args.glossary := by
  constructor
  · intro h
    have hdistinct := h.distinct
    rwa [assembleBundle_matchedTerms, nodup_mentions_iff] at hdistinct
  · intro h
    constructor
    · rwa [assembleBundle_matchedTerms, nodup_mentions_iff]
    · intro surface
      rw [assembleBundle_matchedTerms, mem_mentions]
    · intro rows hrows evidence hevidence surface
      obtain ⟨s, hs, hhits⟩ := exists_selected_of_mem_evidence _ _ _ _ _ _ hrows hevidence
      obtain ⟨r, -, -, rfl⟩ := (exists_selected_iff N args).1 ⟨topK, hs⟩
      rw [assembleBundle_matchedTerms, mem_mentions, hhits]
      constructor
      · rintro ⟨hhit, hword⟩
        exact ⟨(mem_termHits.1 hhit).1, hword⟩
      · rintro ⟨hoccurs, hword⟩
        exact ⟨mem_termHits.2 ⟨hoccurs, Or.inr hword⟩, hword⟩

end

/-! ### A term in two rows -/

/-- Floods stand in two rows, of two domains. -/
def twoFloods : SelectionArgs ℚ :=
  { floodArgs with glossary := { terms := [
      { standardTerm := some "flood", rest := [("domain", "river")] },
      { standardTerm := some "flood", rest := [("domain", "dam")] }] } }

theorem not_vocabularyAgrees_flood : ¬ VocabularyAgrees twoFloods (assembleBundle twoFloods.question
    (selectArtifacts wholeNumerics twoFloods [rainfall] 3) [] twoFloods.glossary none [] [] []) := fun h =>
  absurd h.distinct (by decide +kernel)

end RoboMeta
