/-
  Term scores and the vocabulary (`services/artifact_selector.py`).

  `_lexical_terms` writes the surfaces of an artifact into one dict, so that of
  the kinds of a surface the last one counts.  That is the greatest one but where
  a concept label is also a binding name.  The weights are added up in the order
  in which the surfaces came into the dict, and rounded sums depend on it.

  * `Known`: the kinds of a surface;
  * `termHits_insert`: the hits with one more binding, at some place;
  * `VocabularyCounts`: more vocabulary does not lower the term score or remove a
    hit, and a surface counts with its greatest weight;
  * `vocabularyCounts_iff`: this holds iff the glossary knows every concept label
    in the question, and no hit lowers the sum when it is counted earlier;
  * `steady_of_exact`, `tellsApart_of_exact`: exact sums do not depend on the order.
-/
import Mathlib.Data.List.Perm.Basic
import Mathlib.Tactic.NormNum
import RoboMeta.Lib.Binary64
import RoboMeta.Lib.Firsts
import RoboMeta.RankingOrder
import RoboMeta.Vocabulary

namespace RoboMeta

/-! ## Surfaces and their kinds -/

/-- The surfaces that the glossary contributes, in order. -/
def Glossary.surfaces (glossary : Glossary) : List (String × SurfaceKind) :=
  (glossary.terms.filterMap fun term => (nonempty term.standardTerm).map (·, .standardTerm)) ++
    glossary.synonyms.filterMap fun synonym => (nonempty synonym.synonym).map (·, .synonym)

/-- All surfaces, in order. -/
def surfaceItems (record : Record) (glossary : Glossary) : List (String × SurfaceKind) :=
  record.payload.bindings.flatMap Binding.surfaces ++ glossary.surfaces

/-- The surface is known under this kind. -/
def Known (record : Record) (glossary : Glossary) (surface : String) (kind : SurfaceKind) : Prop :=
  (surface, kind) ∈ surfaceItems record glossary

/-- The label of a concept of the artifact. -/
def ConceptLabel (record : Record) (surface : String) : Prop :=
  ∃ binding ∈ record.payload.bindings, ∃ concept ∈ binding.concept, concept.label = some surface

section
variable {record : Record} {glossary : Glossary} {surface : String} {kind : SurfaceKind}

theorem lexicalTerms_eq (record : Record) (glossary : Glossary) : lexicalTerms record glossary =
    (surfaceItems record glossary).foldl (fun d item => Dict.set d item.1 item.2) [] := by
  unfold lexicalTerms surfaceItems Glossary.surfaces
  rw [List.append_assoc]

theorem nodup_lexicalTerms : ((lexicalTerms record glossary).map Prod.fst).Nodup := by
  rw [lexicalTerms_eq]
  exact Dict.nodup_foldl_set _ List.nodup_nil

/-- Surfaces of the glossary come last. -/
theorem get?_lexicalTerms (record : Record) (glossary : Glossary) (surface : String) :
    (lexicalTerms record glossary).get? surface = (glossary.surfaces.reverse.lookup surface).or
      ((record.payload.bindings.flatMap Binding.surfaces).reverse.lookup surface) := by
  rw [lexicalTerms_eq, Dict.get?_foldl_set, surfaceItems, List.reverse_append, List.lookup_append]
  exact Option.or_none

theorem known_of_get? (h : (lexicalTerms record glossary).get? surface = some kind) :
    Known record glossary surface kind := by
  rw [lexicalTerms_eq, Dict.get?_foldl_set] at h
  have hlookup := (Option.or_eq_some_iff.1 h).resolve_right fun hnone => nomatch hnone.2
  obtain ⟨front, back, hsplit, -⟩ := List.lookup_eq_some_iff.1 hlookup
  exact List.mem_reverse.1 (hsplit ▸ List.mem_append_right _ List.mem_cons_self)

theorem known_cases (h : Known record glossary surface kind) :
    (surface, kind) ∈ record.payload.bindings.flatMap Binding.surfaces ∨ (surface, kind) ∈ glossary.surfaces :=
  List.mem_append.1 h

theorem mem_surfaces_binding {binding : Binding} (h : (surface, kind) ∈ binding.surfaces) :
    kind = .conceptLabel ∧ (∃ concept ∈ binding.concept, concept.label = some surface) ∨
      kind = .bindingName ∧ behindDot binding.name = some surface := by
  rcases List.mem_append.1 h with h | h
  · obtain ⟨label, hlabel, heq⟩ := List.mem_map.1 h
    obtain ⟨rfl, rfl⟩ := Prod.mk.inj heq
    obtain ⟨concept, hconcept, hlabel⟩ := Option.bind_eq_some_iff.1 (Option.mem_toList.1 hlabel)
    exact Or.inl ⟨rfl, concept, hconcept, (nonempty_eq_some_iff.1 hlabel).1⟩
  · obtain ⟨name, hname, heq⟩ := List.mem_map.1 h
    obtain ⟨rfl, rfl⟩ := Prod.mk.inj heq
    exact Or.inr ⟨rfl, Option.mem_toList.1 hname⟩

theorem mem_surfaces_glossary (h : (surface, kind) ∈ glossary.surfaces) :
    (kind = .standardTerm ∨ kind = .synonym) ∧ GlossaryWord glossary surface := by
  rcases List.mem_append.1 h with h | h
  · obtain ⟨term, hterm, heq⟩ := List.mem_filterMap.1 h
    obtain ⟨s, hs, heq⟩ := Option.map_eq_some_iff.1 heq
    obtain ⟨rfl, rfl⟩ := Prod.mk.inj heq
    exact ⟨Or.inl rfl, Or.inl ⟨term, hterm, (nonempty_eq_some_iff.1 hs).1⟩⟩
  · obtain ⟨synonym, hsynonym, heq⟩ := List.mem_filterMap.1 h
    obtain ⟨s, hs, heq⟩ := Option.map_eq_some_iff.1 heq
    obtain ⟨rfl, rfl⟩ := Prod.mk.inj heq
    exact ⟨Or.inr rfl, Or.inr ⟨synonym, hsynonym, (nonempty_eq_some_iff.1 hs).1⟩⟩

theorem mem_keys_glossary (hne : surface ≠ "") (h : GlossaryWord glossary surface) :
    surface ∈ glossary.surfaces.map Prod.fst := by
  rw [Glossary.surfaces, List.map_append, List.mem_append]
  rcases h with ⟨term, hterm, hs⟩ | ⟨synonym, hsynonym, hs⟩
  · refine Or.inl (List.mem_map.2 ⟨(surface, .standardTerm), List.mem_filterMap.2 ⟨term, hterm, ?_⟩, rfl⟩)
    rw [nonempty_eq_some_iff.2 ⟨hs, hne⟩]
    rfl
  · refine Or.inr (List.mem_map.2 ⟨(surface, .synonym), List.mem_filterMap.2 ⟨synonym, hsynonym, ?_⟩, rfl⟩)
    rw [nonempty_eq_some_iff.2 ⟨hs, hne⟩]
    rfl

theorem known_conceptLabel (hne : surface ≠ "") (h : ConceptLabel record surface) :
    Known record glossary surface .conceptLabel := by
  obtain ⟨binding, hbinding, concept, hconcept, hlabel⟩ := h
  refine List.mem_append_left _ (List.mem_flatMap.2 ⟨binding, hbinding, List.mem_append_left _ ?_⟩)
  refine List.mem_map.2 ⟨surface, Option.mem_toList.2 (Option.bind_eq_some_iff.2 ⟨concept, hconcept, ?_⟩), rfl⟩
  exact nonempty_eq_some_iff.2 ⟨hlabel, hne⟩

end

/-! ## Weights -/

/-- The weights are in their order. -/
class SurfaceWeights (F : Type*) [Zero F] [One F] [OfScientific F] [LE F] : Prop where
  nonneg : (0 : F) ≤ 0.6
  label : (0.6 : F) ≤ 0.8
  le_one : (0.8 : F) ≤ 1

instance {K : Type*} [Field K] [LinearOrder K] [IsStrictOrderedRing K] : SurfaceWeights K where
  nonneg := by norm_num
  label := by norm_num
  le_one := by norm_num

/-- Rounded weights are in the order of the exact ones. -/
instance {K : Type*} [Field K] [LinearOrder K] [IsStrictOrderedRing K] (R : Rounding K) : SurfaceWeights R.Number where
  nonneg := by
    have h : R.round 0 ≤ R.round 0.6 := R.mono (by norm_num)
    rwa [R.round_zero] at h
  label := R.mono (by norm_num)
  le_one := by
    have h : R.round 0.8 ≤ R.round 1 := R.mono (by norm_num)
    rwa [R.round_one] at h

/-- The weight that the dict gives a surface. -/
def surfaceWeight {F : Type*} [Zero F] [One F] [OfScientific F] (record : Record) (glossary : Glossary)
    (surface : String) : F :=
  ((lexicalTerms record glossary).get? surface).elim 0 SurfaceKind.weight

section
variable {F : Type*} [AddZeroClass F] [MulOneClass F] [LinearOrder F] [OfScientific F] [RoundedArithmetic F]
  [SurfaceWeights F]

omit [RoundedArithmetic F] in
theorem SurfaceKind.weight_le_one (kind : SurfaceKind) : (kind.weight : F) ≤ 1 := by
  cases kind with
  | standardTerm | synonym => exact le_rfl
  | conceptLabel => exact SurfaceWeights.le_one
  | bindingName => exact SurfaceWeights.label.trans SurfaceWeights.le_one

omit [RoundedArithmetic F] in
theorem SurfaceKind.bindingName_le (kind : SurfaceKind) : (SurfaceKind.bindingName.weight : F) ≤ kind.weight := by
  cases kind with
  | standardTerm | synonym => exact SurfaceKind.weight_le_one _
  | conceptLabel => exact SurfaceWeights.label
  | bindingName => exact le_rfl

omit [RoundedArithmetic F] in
theorem SurfaceKind.weight_nonneg (kind : SurfaceKind) : (0 : F) ≤ kind.weight :=
  SurfaceWeights.nonneg.trans kind.bindingName_le

omit [RoundedArithmetic F] in
theorem surfaceWeight_nonneg (record : Record) (glossary : Glossary) (surface : String) :
    (0 : F) ≤ surfaceWeight record glossary surface := by
  unfold surfaceWeight
  cases (lexicalTerms record glossary).get? surface with
  | none => exact le_rfl
  | some kind => exact kind.weight_nonneg

variable {record : Record} {glossary : Glossary} {surface : String} {kind : SurfaceKind}

omit [AddZeroClass F] [LinearOrder F] [RoundedArithmetic F] [SurfaceWeights F] in
/-- What the glossary knows counts fully. -/
theorem weight_of_glossaryWord (hne : surface ≠ "") (h : GlossaryWord glossary surface)
    (hkind : (lexicalTerms record glossary).get? surface = some kind) : (kind.weight : F) = 1 := by
  have hkey : surface ∈ glossary.surfaces.reverse.map Prod.fst := by
    rw [List.map_reverse, List.mem_reverse]
    exact mem_keys_glossary hne h
  obtain ⟨k, hk⟩ := Option.isSome_iff_exists.1 (Dict.get?_isSome.2 hkey)
  rw [get?_lexicalTerms, show List.lookup surface glossary.surfaces.reverse = some k from hk, Option.some_or] at hkind
  obtain rfl := Option.some.inj hkind
  obtain ⟨front, back, hsplit, -⟩ := List.lookup_eq_some_iff.1 hk
  have hmem : (surface, k) ∈ glossary.surfaces :=
    List.mem_reverse.1 (hsplit ▸ List.mem_append_right _ List.mem_cons_self)
  rcases (mem_surfaces_glossary hmem).1 with rfl | rfl
  · rfl
  · rfl

end

/-- What is neither known to the glossary nor a label is a binding name. -/
theorem eq_bindingName {record : Record} {glossary : Glossary} {surface : String} {kind : SurfaceKind}
    (hword : ¬ GlossaryWord glossary surface) (hlabel : ¬ ConceptLabel record surface)
    (h : Known record glossary surface kind) : kind = .bindingName := by
  rcases known_cases h with h | h
  · obtain ⟨binding, hbinding, h⟩ := List.mem_flatMap.1 h
    rcases mem_surfaces_binding h with ⟨-, concept, hconcept, hs⟩ | ⟨hkind, -⟩
    · exact absurd ⟨binding, hbinding, concept, hconcept, hs⟩ hlabel
    · exact hkind
  · exact absurd (mem_surfaces_glossary h).2 hword

/-! ## Hits -/

/-- The surfaces of bindings, in order. -/
def surfaceKeys (bindings : List Binding) : List String := (bindings.flatMap Binding.surfaces).map Prod.fst

def glossaryKeys (glossary : Glossary) : List String := glossary.surfaces.map Prod.fst

/-- The surfaces that are in the question, once each. -/
def hitsOf (question : String) (keys : List String) : List String :=
  (firsts id keys).filter fun s => s ≠ "" ∧ occursIn s question

/-- The hits with `up` moved up behind those of the keys. -/
def movedUp (hits keys up : List String) : List String :=
  hits.filter (· ∈ keys) ++ up ++ hits.filter fun s => s ∉ keys ∧ s ∉ up

section
variable {question surface : String} {xs ys hits keys up : List String}

theorem mem_hitsOf : surface ∈ hitsOf question xs ↔ Occurs question surface ∧ surface ∈ xs := by
  rw [hitsOf, List.mem_filter, decide_eq_true_iff, mem_firsts_id, and_comm]
  rfl

theorem nodup_hitsOf : (hitsOf question xs).Nodup := by
  have h := nodup_map_firsts id xs
  rw [List.map_id] at h
  exact h.filter _

theorem hitsOf_append : hitsOf question (xs ++ ys) = hitsOf question xs ++ (hitsOf question ys).filter (· ∉ xs) := by
  unfold hitsOf
  rw [firsts_append, List.filter_append, List.filter_comm]
  simp only [List.map_id, id]

theorem hitsOf_of_nodup (hnodup : xs.Nodup) (h : ∀ s ∈ xs, Occurs question s) : hitsOf question xs = xs := by
  rw [hitsOf, firsts_of_nodup (by rwa [List.map_id]), List.filter_eq_self]
  exact fun s hs => decide_eq_true (h s hs)

/-- Keys between others bring their hits, and take those that came later. -/
theorem hitsOf_insert (zs : List String) : hitsOf question (xs ++ (ys ++ zs)) =
    hitsOf question xs ++ ((hitsOf question ys).filter (· ∉ xs) ++
      (hitsOf question zs).filter fun s => s ∉ xs ∧ s ∉ ys) := by
  rw [hitsOf_append, hitsOf_append, List.filter_append, List.filter_filter]
  simp only [Bool.decide_and]

theorem movedUp_hitsOf (up : List String) : movedUp (hitsOf question (xs ++ ys)) xs up =
    hitsOf question xs ++ up ++ (hitsOf question ys).filter fun s => s ∉ xs ∧ s ∉ up := by
  have hfront : (hitsOf question (xs ++ ys)).filter (· ∈ xs) = hitsOf question xs := by
    rw [hitsOf_append, List.filter_append, List.filter_filter, List.filter_eq_self.2 fun s hs => ?_,
      List.filter_eq_nil_iff.2 fun s _ => by simp, List.append_nil]
    exact decide_eq_true (mem_hitsOf.1 hs).2
  have hback : ((hitsOf question (xs ++ ys)).filter fun s => s ∉ xs ∧ s ∉ up) =
      (hitsOf question ys).filter fun s => s ∉ xs ∧ s ∉ up := by
    rw [hitsOf_append, List.filter_append, List.filter_filter, List.filter_eq_nil_iff.2 fun s hs => ?_,
      List.nil_append]
    · exact List.filter_congr fun s _ => by by_cases hs : s ∈ xs <;> simp [hs]
    · simpa using fun h => absurd (mem_hitsOf.1 hs).2 h
  rw [movedUp, hfront, hback]

end

/-! ## Scores -/

section
variable {F : Type*} {args : SelectionArgs F} {record : Record} {surface : String}

theorem exists_kind_of_mem_termHits (h : surface ∈ termHits args record) :
    ∃ kind, (lexicalTerms record args.glossary).get? surface = some kind := by
  obtain ⟨item, hitem, rfl⟩ := List.mem_map.1 h
  exact ⟨item.2, (Dict.mem_iff_get? nodup_lexicalTerms).1 (List.mem_filter.1 hitem).1⟩

theorem nodup_termHits : (termHits args record).Nodup :=
  nodup_lexicalTerms.sublist (List.filter_sublist.map _)

theorem termHits_eq : termHits args record =
    hitsOf args.question (surfaceKeys record.payload.bindings ++ glossaryKeys args.glossary) := by
  have hkeys : (lexicalTerms record args.glossary).map Prod.fst =
      firsts id (surfaceKeys record.payload.bindings ++ glossaryKeys args.glossary) := by
    rw [lexicalTerms_eq, Dict.keys_foldl_set, surfaceItems, List.map_append]
    rfl
  rw [hitsOf, ← hkeys, termHits, matchedSurfaces, List.filter_map]
  rfl

theorem get?_of_mem_matchedSurfaces {item : String × SurfaceKind} (h : item ∈ matchedSurfaces args record) :
    (lexicalTerms record args.glossary).get? item.1 = some item.2 :=
  (Dict.mem_iff_get? nodup_lexicalTerms).1 (List.mem_filter.1 h).1

/-- The term score adds up the weights of the hits. -/
theorem termScore_eq [Zero F] [One F] [Add F] [OfScientific F] (args : SelectionArgs F) (record : Record) :
    termScore args record = runningSum ((termHits args record).map (surfaceWeight record args.glossary)) := by
  rw [termScore, termHits, List.map_map]
  refine congrArg runningSum (List.map_congr_left fun item hitem => ?_)
  rw [Function.comp_apply, surfaceWeight, get?_of_mem_matchedSurfaces hitem]
  rfl

end

section
variable {F : Type*} [AddZeroClass F] [MulOneClass F] [LinearOrder F] [OfScientific F] [RoundedArithmetic F]
  [SurfaceWeights F] {args : SelectionArgs F} {record : Record} {weights : List F}

/-- A sum of smaller and fewer weights. -/
theorem runningSum_le_termScore
    (h : List.SublistForall₂ (· ≤ ·) weights ((termHits args record).map (surfaceWeight record args.glossary))) :
    runningSum weights ≤ termScore args record := by
  rw [termScore_eq]
  refine runningSum_le h ?_
  rw [List.forall_mem_map]
  exact fun surface _ => surfaceWeight_nonneg record args.glossary surface

omit [AddZeroClass F] [MulOneClass F] [OfScientific F] [RoundedArithmetic F] [SurfaceWeights F] in
theorem forall₂_map_le {xs : List String} {w w' : String → F} (h : ∀ s ∈ xs, w s ≤ w' s) :
    List.Forall₂ (· ≤ ·) (xs.map w) (xs.map w') := by
  rw [List.forall₂_map_left_iff, List.forall₂_map_right_iff, List.forall₂_same]
  exact h

end

/-! ## More vocabulary -/

/-- The record with one more binding, at some place. -/
def AddsBinding (record record' : Record) : Prop :=
  ∃ before binding after, record.payload.bindings = before ++ after ∧
    record' = { record with payload := { record.payload with bindings := before ++ binding :: after } }

/-- The glossary with one more entry, at some place. -/
def AddsEntry (glossary glossary' : Glossary) : Prop :=
  (∃ before term after, glossary.terms = before ++ after ∧
    glossary' = { glossary with terms := before ++ term :: after }) ∨
  ∃ before synonym after, glossary.synonyms = before ++ after ∧
    glossary' = { glossary with synonyms := before ++ synonym :: after }

/-- Every label and word is still there. -/
structure Enriches (record record' : Record) (glossary glossary' : Glossary) : Prop where
  label : ∀ surface, OwnLabel record surface → OwnLabel record' surface
  word : ∀ surface, GlossaryWord glossary surface → GlossaryWord glossary' surface

theorem mem_insert_of_mem {α : Type*} {x y : α} {before after : List α} (h : x ∈ before ++ after) :
    x ∈ before ++ y :: after :=
  (List.Sublist.append_left (List.sublist_cons_self y after) before).subset h

theorem AddsBinding.enriches {record record' : Record} (h : AddsBinding record record') (glossary : Glossary) :
    Enriches record record' glossary glossary := by
  obtain ⟨before, binding, after, hsplit, rfl⟩ := h
  refine ⟨fun surface hlabel => ?_, fun surface => id⟩
  obtain ⟨item, hitem, rfl⟩ := List.mem_map.1 hlabel
  obtain ⟨b, hb, hitem⟩ := List.mem_flatMap.1 hitem
  rw [hsplit] at hb
  exact List.mem_map.2 ⟨item, List.mem_flatMap.2 ⟨b, mem_insert_of_mem hb, hitem⟩, rfl⟩

theorem AddsEntry.enriches {glossary glossary' : Glossary} (h : AddsEntry glossary glossary') (record : Record) :
    Enriches record record glossary glossary' := by
  refine ⟨fun surface => id, ?_⟩
  rcases h with ⟨before, term, after, hsplit, rfl⟩ | ⟨before, synonym, after, hsplit, rfl⟩
  · rintro surface (⟨t, ht, hs⟩ | hsynonym)
    · rw [hsplit] at ht
      exact Or.inl ⟨t, mem_insert_of_mem ht, hs⟩
    · exact Or.inr hsynonym
  · rintro surface (hterm | ⟨t, ht, hs⟩)
    · exact Or.inl hterm
    · rw [hsplit] at ht
      exact Or.inr ⟨t, mem_insert_of_mem ht, hs⟩

/-- A change of the vocabulary that costs an artifact nothing. -/
structure NoLoss {F : Type*} [Zero F] [One F] [Add F] [OfScientific F] [LE F] (args args' : SelectionArgs F)
    (record record' : Record) : Prop where
  score : termScore args record ≤ termScore args' record'
  hits : termHits args record ⊆ termHits args' record'

/-- More vocabulary costs an artifact nothing, and its surfaces count with their greatest weights. -/
structure VocabularyCounts {F : Type*} [Zero F] [One F] [Add F] [OfScientific F] [LE F] (args : SelectionArgs F)
    (record : Record) : Prop where
  binding : ∀ record', AddsBinding record record' → NoLoss args args record record'
  entry : ∀ glossary', AddsEntry args.glossary glossary' →
    NoLoss args { args with glossary := glossary' } record record
  greatest : ∀ item ∈ matchedSurfaces args record, ∀ kind, Known record args.glossary item.1 kind →
    (kind.weight : F) ≤ item.2.weight

/-- The glossary knows the labels in the question. -/
def LabelsKnown {F : Type*} (args : SelectionArgs F) (record : Record) : Prop :=
  ∀ label, ConceptLabel record label → Occurs args.question label → GlossaryWord args.glossary label

/-- The sum of the weights is not less if one or two hits are counted earlier, right behind those of the bindings up to
some place.  Exact sums are the same. -/
def Steady {F : Type*} [Zero F] [One F] [Add F] [OfScientific F] [LE F] (args : SelectionArgs F) (record : Record) :
    Prop :=
  ∀ before after, record.payload.bindings = before ++ after → ∀ up : List String, up.length ≤ 2 → up.Nodup →
    (∀ s ∈ up, s ∈ termHits args record ∧ s ∉ surfaceKeys before) →
      termScore args record ≤ runningSum ((movedUp (termHits args record) (surfaceKeys before) up).map
        (surfaceWeight record args.glossary))

/-- Sums of `n` weights tell a label from a binding name. -/
def TellsApart (F : Type*) [Zero F] [One F] [Add F] [OfScientific F] [LT F] (n : ℕ) : Prop :=
  ∀ before after : List SurfaceKind, before.length + after.length < n →
    (runningSum ((before ++ .bindingName :: after).map SurfaceKind.weight) : F) <
      runningSum ((before ++ .conceptLabel :: after).map SurfaceKind.weight)

/-! ### With one more binding -/

section
variable {F : Type*} {args : SelectionArgs F} {record : Record} {before after : List Binding} {binding : Binding}
  {surface : String}

/-- The record with a binding between others. -/
def withBinding (record : Record) (before after : List Binding) (binding : Binding) : Record :=
  { record with payload := { record.payload with bindings := before ++ binding :: after } }

theorem surfaceKeys_append (before after : List Binding) :
    surfaceKeys (before ++ after) = surfaceKeys before ++ surfaceKeys after := by
  rw [surfaceKeys, List.flatMap_append, List.map_append]
  rfl

theorem length_surfaceKeys_le (binding : Binding) : (surfaceKeys [binding]).length ≤ 2 := by
  simp only [surfaceKeys, List.flatMap_cons, List.flatMap_nil, List.append_nil, List.length_map, Binding.surfaces,
    List.length_append]
  have hlabel := Option.length_toList_le (o := binding.concept.bind fun concept => nonempty concept.label)
  have hname := Option.length_toList_le (o := behindDot binding.name)
  omega

/-- The surfaces behind a place. -/
def laterKeys (after : List Binding) (glossary : Glossary) : List String := surfaceKeys after ++ glossaryKeys glossary

theorem termHits_of_split (h : record.payload.bindings = before ++ after) :
    termHits args record = hitsOf args.question (surfaceKeys before ++ laterKeys after args.glossary) := by
  rw [termHits_eq, h, surfaceKeys_append, List.append_assoc]
  rfl

/-- **The hits with one more binding**, at some place. -/
theorem termHits_insert : termHits args (withBinding record before after binding) =
    hitsOf args.question (surfaceKeys before ++ (surfaceKeys [binding] ++ laterKeys after args.glossary)) := by
  have h : (withBinding record before after binding).payload.bindings = before ++ ([binding] ++ after) := rfl
  rw [termHits_eq, h, surfaceKeys_append, surfaceKeys_append, List.append_assoc, List.append_assoc]
  rfl

variable (args before after binding) in
/-- The hits of a binding that stand behind its place. -/
def broughtUp : List String :=
  ((hitsOf args.question (surfaceKeys [binding])).filter (· ∉ surfaceKeys before)).filter
    (· ∈ laterKeys after args.glossary)

theorem mem_broughtUp : surface ∈ broughtUp args before after binding ↔
    (surface ∈ hitsOf args.question (surfaceKeys [binding]) ∧ surface ∉ surfaceKeys before) ∧
      surface ∈ laterKeys after args.glossary := by
  rw [broughtUp, List.mem_filter, List.mem_filter, decide_eq_true_iff, decide_eq_true_iff]

theorem length_broughtUp_le : (broughtUp args before after binding).length ≤ 2 := by
  calc (broughtUp args before after binding).length ≤ (hitsOf args.question (surfaceKeys [binding])).length :=
        (List.filter_sublist.trans List.filter_sublist).length_le
    _ ≤ (surfaceKeys [binding]).length := (List.filter_sublist.trans (firsts_sublist id _)).length_le
    _ ≤ 2 := length_surfaceKeys_le binding

/-- The hits moved up are hits with the binding, in their order. -/
theorem movedUp_broughtUp_sublist (h : record.payload.bindings = before ++ after) :
    (movedUp (termHits args record) (surfaceKeys before) (broughtUp args before after binding)).Sublist
      (termHits args (withBinding record before after binding)) := by
  rw [termHits_of_split h, movedUp_hitsOf, termHits_insert, hitsOf_insert, List.append_assoc]
  have hrest : ((hitsOf args.question (laterKeys after args.glossary)).filter fun s =>
      s ∉ surfaceKeys before ∧ s ∉ broughtUp args before after binding) =
        (hitsOf args.question (laterKeys after args.glossary)).filter fun s =>
          s ∉ surfaceKeys before ∧ s ∉ surfaceKeys [binding] := by
    refine List.filter_congr fun s hs => decide_eq_decide.2 (and_congr_right fun hbefore => not_congr ?_)
    obtain ⟨hoccurs, hlater⟩ := mem_hitsOf.1 hs
    rw [mem_broughtUp]
    exact ⟨fun h => (mem_hitsOf.1 h.1.1).2, fun h => ⟨⟨mem_hitsOf.2 ⟨hoccurs, h⟩, hbefore⟩, hlater⟩⟩
  rw [hrest]
  exact (List.Sublist.refl _).append (List.filter_sublist.append (List.Sublist.refl _))

/-- Surfaces that are not of the binding, or are known behind it, keep their weights. -/
theorem get?_insert (h : record.payload.bindings = before ++ after)
    (hs : surface ∉ surfaceKeys [binding] ∨ surface ∈ laterKeys after args.glossary) :
    (lexicalTerms (withBinding record before after binding) args.glossary).get? surface =
      (lexicalTerms record args.glossary).get? surface := by
  have hlookup : ∀ (items : List (String × SurfaceKind)), surface ∈ items.map Prod.fst →
      ∃ kind, items.reverse.lookup surface = some kind := fun items hmem =>
    Option.isSome_iff_exists.1 (Dict.get?_isSome.2 (by rwa [List.map_reverse, List.mem_reverse]))
  have hbindings : (withBinding record before after binding).payload.bindings = before ++ ([binding] ++ after) := rfl
  rw [get?_lexicalTerms, get?_lexicalTerms, h, hbindings]
  simp only [List.flatMap_append, List.reverse_append, List.lookup_append, Option.or_assoc]
  rcases hs with hs | hs
  · have hnone : ([binding].flatMap Binding.surfaces).reverse.lookup surface = none := by
      rw [← Option.not_isSome_iff_eq_none]
      refine fun hsome => hs ?_
      have hmem := Dict.get?_isSome.1 hsome
      rwa [List.map_reverse, List.mem_reverse] at hmem
    rw [hnone, Option.none_or]
  · rcases List.mem_append.1 hs with hs | hs
    · obtain ⟨kind, hkind⟩ := hlookup _ hs
      rw [hkind]
      simp
    · obtain ⟨kind, hkind⟩ := hlookup _ hs
      rw [hkind]
      rfl

end

section
variable {F : Type*} [AddZeroClass F] [MulOneClass F] [LinearOrder F] [OfScientific F] [RoundedArithmetic F]
  [SurfaceWeights F] {args args' : SelectionArgs F} {record record' : Record} {surface : String}

omit [RoundedArithmetic F] in
/-- Where the glossary knows the labels in the question, no weight falls. -/
theorem surfaceWeight_le (h : Enriches record record' args.glossary args'.glossary) (hlabels : LabelsKnown args record)
    (hold : surface ∈ termHits args record) (hnew : surface ∈ termHits args' record') :
    (surfaceWeight record args.glossary surface : F) ≤ surfaceWeight record' args'.glossary surface := by
  obtain ⟨kind, hkind⟩ := exists_kind_of_mem_termHits hold
  obtain ⟨kind', hkind'⟩ := exists_kind_of_mem_termHits hnew
  have hoccurs := (mem_termHits.1 hold).1
  rw [surfaceWeight, surfaceWeight, hkind, hkind']
  by_cases hword : GlossaryWord args.glossary surface
  · exact (kind.weight_le_one).trans_eq (weight_of_glossaryWord hoccurs.1 (h.word surface hword) hkind').symm
  · -- a binding name, which weighs least
    have hlabel : ¬ ConceptLabel record surface := fun hlabel => hword (hlabels surface hlabel hoccurs)
    rw [eq_bindingName hword hlabel (known_of_get? hkind)]
    exact kind'.bindingName_le

omit [AddZeroClass F] [MulOneClass F] [LinearOrder F] [OfScientific F] [RoundedArithmetic F] [SurfaceWeights F] in
theorem hits_of_enriches (hquestion : args'.question = args.question)
    (h : Enriches record record' args.glossary args'.glossary) : termHits args record ⊆ termHits args' record' := by
  intro surface hsurface
  obtain ⟨hoccurs, hknown⟩ := mem_termHits.1 hsurface
  exact mem_termHits.2 ⟨hquestion ▸ hoccurs, hknown.imp (h.label surface) (h.word surface)⟩

/-- **One more binding** costs nothing: what it moves up does not, and else weights rise or come in. -/
theorem noLoss_of_addsBinding (hlabels : LabelsKnown args record) (hsteady : Steady args record)
    (h : AddsBinding record record') : NoLoss args args record record' := by
  have henriches := h.enriches args.glossary
  have hhits : termHits args record ⊆ termHits args record' := hits_of_enriches rfl henriches
  obtain ⟨before, binding, after, hsplit, rfl⟩ := h
  refine ⟨?_, hhits⟩
  set up := broughtUp args before after binding
  have hbehind : ∀ s ∈ up, s ∈ termHits args record ∧ s ∉ surfaceKeys before := by
    intro s hs
    obtain ⟨⟨hhit, hbefore⟩, hlater⟩ := mem_broughtUp.1 hs
    rw [termHits_of_split hsplit]
    exact ⟨mem_hitsOf.2 ⟨(mem_hitsOf.1 hhit).1, List.mem_append_right _ hlater⟩, hbefore⟩
  have hmoved : (movedUp (termHits args record) (surfaceKeys before) up).Sublist
      (termHits args (withBinding record before after binding)) := movedUp_broughtUp_sublist hsplit
  have hweight : ∀ s ∈ movedUp (termHits args record) (surfaceKeys before) up,
      (surfaceWeight record args.glossary s : F) ≤
        surfaceWeight (withBinding record before after binding) args.glossary s := by
    intro s hs
    refine surfaceWeight_le henriches hlabels ?_ (hmoved.subset hs)
    rcases List.mem_append.1 hs with hs | hs
    · rcases List.mem_append.1 hs with hs | hs
      · exact List.mem_of_mem_filter hs
      · exact (hbehind s hs).1
    · exact List.mem_of_mem_filter hs
  calc termScore args record ≤ runningSum ((movedUp (termHits args record) (surfaceKeys before) up).map
        (surfaceWeight record args.glossary)) :=
        hsteady before after hsplit up length_broughtUp_le ((nodup_hitsOf.filter _).filter _) hbehind
    _ ≤ termScore args (withBinding record before after binding) :=
        runningSum_le_termScore (List.sublistForall₂_iff.2 ⟨_, forall₂_map_le hweight, hmoved.map _⟩)

omit [LinearOrder F] [RoundedArithmetic F] [SurfaceWeights F] in
/-- Hits that the glossary knows weigh one. -/
theorem map_surfaceWeight_of_words (args : SelectionArgs F) (record : Record) {hits : List String}
    (h : ∀ s ∈ hits, s ∈ termHits args record) (hwords : ∀ s ∈ hits, GlossaryWord args.glossary s) :
    hits.map (surfaceWeight record args.glossary) = List.replicate hits.length (1 : F) := by
  refine List.map_eq_replicate_iff.2 fun s hs => ?_
  obtain ⟨kind, hkind⟩ := exists_kind_of_mem_termHits (h s hs)
  rw [surfaceWeight, hkind]
  exact weight_of_glossaryWord (mem_termHits.1 (h s hs)).1.1 (hwords s hs) hkind

omit [AddZeroClass F] [MulOneClass F] [LinearOrder F] [OfScientific F] [RoundedArithmetic F] [SurfaceWeights F] in
theorem glossaryWord_of_mem {glossary : Glossary} (h : surface ∈ glossaryKeys glossary) :
    GlossaryWord glossary surface := by
  obtain ⟨item, hitem, rfl⟩ := List.mem_map.1 h
  exact (mem_surfaces_glossary hitem).2

/-- **One more entry** costs nothing: behind the surfaces of the bindings all weights are one. -/
theorem noLoss_of_addsEntry {glossary' : Glossary} (hlabels : LabelsKnown args record)
    (h : AddsEntry args.glossary glossary') :
    NoLoss args { args with glossary := glossary' } record record := by
  have henriches := h.enriches record
  have hhits : termHits args record ⊆ termHits { args with glossary := glossary' } record :=
    hits_of_enriches rfl henriches
  refine ⟨?_, hhits⟩
  set keys := surfaceKeys record.payload.bindings
  set front := hitsOf args.question keys
  set back := (hitsOf args.question (glossaryKeys args.glossary)).filter (· ∉ keys)
  set back' := (hitsOf args.question (glossaryKeys glossary')).filter (· ∉ keys)
  have hsplit : termHits args record = front ++ back := by rw [termHits_eq, hitsOf_append]
  have hsplit' : termHits { args with glossary := glossary' } record = front ++ back' := by
    rw [termHits_eq, hitsOf_append]
  have hword : ∀ s ∈ back, GlossaryWord args.glossary s := fun s hs =>
    glossaryWord_of_mem (mem_hitsOf.1 (List.mem_of_mem_filter hs)).2
  have hword' : ∀ s ∈ back', GlossaryWord glossary' s := fun s hs =>
    glossaryWord_of_mem (mem_hitsOf.1 (List.mem_of_mem_filter hs)).2
  have hlength : back.length ≤ back'.length := by
    refine (List.subperm_of_subset (nodup_hitsOf.filter _) fun s hs => ?_).length_le
    obtain ⟨hhit, hkeys⟩ := List.mem_filter.1 hs
    obtain ⟨hoccurs, -⟩ := mem_hitsOf.1 hhit
    have hkey : s ∈ glossaryKeys glossary' := mem_keys_glossary hoccurs.1 (henriches.word s (hword s hs))
    exact List.mem_filter.2 ⟨mem_hitsOf.2 ⟨hoccurs, hkey⟩, hkeys⟩
  have hfront : ∀ s ∈ front, (surfaceWeight record args.glossary s : F) ≤ surfaceWeight record glossary' s := by
    intro s hs
    have hold : s ∈ termHits args record := hsplit ▸ List.mem_append_left _ hs
    have hnew : s ∈ termHits { args with glossary := glossary' } record := hhits hold
    exact surfaceWeight_le henriches hlabels hold hnew
  rw [termScore_eq]
  refine runningSum_le_termScore (List.sublistForall₂_iff.2
    ⟨front.map (surfaceWeight record glossary') ++ List.replicate back.length 1, ?_, ?_⟩)
  · have hback := map_surfaceWeight_of_words args record (fun s hs => hsplit ▸ List.mem_append_right _ hs) hword
    rw [hsplit, List.map_append, hback]
    exact List.rel_append (forall₂_map_le hfront) (List.forall₂_same.2 fun _ _ => le_rfl)
  · have hback := map_surfaceWeight_of_words { args with glossary := glossary' } record
      (fun s hs => hsplit' ▸ List.mem_append_right _ hs) hword'
    rw [hsplit', List.map_append, hback]
    exact (List.Sublist.refl _).append (List.replicate_sublist_replicate 1 |>.2 hlength)

omit [RoundedArithmetic F] in
/-- Where the glossary knows the labels, a surface counts with its greatest weight. -/
theorem greatest_of_labelsKnown (hlabels : LabelsKnown args record) {item : String × SurfaceKind}
    (hitem : item ∈ matchedSurfaces args record) {kind : SurfaceKind}
    (hknown : Known record args.glossary item.1 kind) : (kind.weight : F) ≤ item.2.weight := by
  have hoccurs := (mem_termHits.1 (List.mem_map_of_mem hitem)).1
  by_cases hword : GlossaryWord args.glossary item.1
  · rw [weight_of_glossaryWord hoccurs.1 hword (get?_of_mem_matchedSurfaces hitem)]
    exact kind.weight_le_one
  · have hlabel : ¬ ConceptLabel record item.1 := fun hlabel => hword (hlabels _ hlabel hoccurs)
    rw [eq_bindingName hword hlabel hknown]
    exact item.2.bindingName_le

end

/-! ### Bindings that lower the sum -/

/-- A binding with the first surface as its label and the second one as its name. -/
def naming (surfaces : List String) : Binding where
  bindingType := .other ""
  concept := surfaces.head?.map fun label => { label := some label, iri := none }
  name := (surfaces.tail.head?.map ("." ++ ·)).getD ""

theorem behindDot_dot (surface : String) : behindDot ("." ++ surface) = some surface := by
  have htoList : ("." ++ surface).toList = '.' :: surface.toList := by simp [String.toList_append]
  rw [behindDot, htoList, if_pos List.mem_cons_self]
  simp

theorem surfaceKeys_naming {surfaces : List String} (hlength : surfaces.length ≤ 2) (hne : ∀ s ∈ surfaces, s ≠ "") :
    surfaceKeys [naming surfaces] = surfaces := by
  match surfaces with
  | [] => rfl
  | [label] =>
    have hlabel : nonempty (some label) = some label := nonempty_eq_some_iff.2 ⟨rfl, hne label (by simp)⟩
    have hname : behindDot "" = none := rfl
    simp [surfaceKeys, Binding.surfaces, naming, hlabel, hname]
  | [label, name] =>
    have hlabel : nonempty (some label) = some label := nonempty_eq_some_iff.2 ⟨rfl, hne label (by simp)⟩
    simp [surfaceKeys, Binding.surfaces, naming, hlabel, behindDot_dot]
  | _ :: _ :: _ :: _ => simp at hlength

section
variable {F : Type*} [Zero F] [One F] [Add F] [OfScientific F] {args : SelectionArgs F} {record : Record}
  {surface : String}

/-- A binding can move up one or two hits. -/
theorem steady_of_noLoss [LE F] (h : ∀ record', AddsBinding record record' → NoLoss args args record record') :
    Steady args record := by
  intro before after hsplit up hlength hnodup hup
  have hoccurs : ∀ s ∈ up, Occurs args.question s := fun s hs => (mem_termHits.1 (hup s hs).1).1
  have hkeys : surfaceKeys [naming up] = up := surfaceKeys_naming hlength fun s hs => (hoccurs s hs).1
  have hhits : termHits args (withBinding record before after (naming up)) =
      movedUp (termHits args record) (surfaceKeys before) up := by
    have hfilter : up.filter (· ∉ surfaceKeys before) = up :=
      List.filter_eq_self.2 fun s hs => decide_eq_true (hup s hs).2
    rw [termHits_insert, hkeys, hitsOf_insert, hitsOf_of_nodup hnodup hoccurs, hfilter, termHits_of_split hsplit,
      movedUp_hitsOf, List.append_assoc]
  have hweight : ∀ s ∈ movedUp (termHits args record) (surfaceKeys before) up,
      (surfaceWeight (withBinding record before after (naming up)) args.glossary s : F) =
        surfaceWeight record args.glossary s := by
    intro s _
    have hs : s ∉ surfaceKeys [naming up] ∨ s ∈ laterKeys after args.glossary := by
      rw [hkeys]
      refine or_iff_not_imp_left.2 fun hs => ?_
      obtain ⟨hhit, hbefore⟩ := hup s (not_not.1 hs)
      rw [termHits_of_split hsplit] at hhit
      exact (List.mem_append.1 (mem_hitsOf.1 hhit).2).resolve_left hbefore
    rw [surfaceWeight, surfaceWeight, get?_insert hsplit hs]
  have hscore := (h (withBinding record before after (naming up)) ⟨before, naming up, after, hsplit, rfl⟩).score
  rwa [termScore_eq args (withBinding _ _ _ _), hhits, List.map_congr_left hweight] at hscore

end

section
variable {F : Type*} {args : SelectionArgs F} {record : Record} {label : String}

/-- The artifact with a binding whose name is the label. -/
def withName (record : Record) (label : String) : Record :=
  withBinding record record.payload.bindings [] (naming [label, label])

theorem ownLabel_of_conceptLabel (hne : label ≠ "") (h : ConceptLabel record label) : OwnLabel record label := by
  obtain ⟨binding, hbinding, concept, hconcept, hlabel⟩ := h
  have hitem : (label, SurfaceKind.conceptLabel) ∈ binding.surfaces := by
    refine List.mem_append_left _ (List.mem_map.2 ⟨label, Option.mem_toList.2 ?_, rfl⟩)
    exact Option.bind_eq_some_iff.2 ⟨concept, hconcept, nonempty_eq_some_iff.2 ⟨hlabel, hne⟩⟩
  exact List.mem_map.2 ⟨_, List.mem_flatMap.2 ⟨binding, hbinding, hitem⟩, rfl⟩

theorem surfaceKeys_naming_twice (hne : label ≠ "") : surfaceKeys [naming [label, label]] = [label, label] :=
  surfaceKeys_naming le_rfl (by simp [hne])

/-- The name is no new surface. -/
theorem termHits_withName (hne : label ≠ "") (hlabel : ConceptLabel record label) :
    termHits args (withName record label) = termHits args record := by
  have hknown : label ∈ surfaceKeys record.payload.bindings := ownLabel_of_conceptLabel hne hlabel
  have hnone : (hitsOf args.question [label, label]).filter (· ∉ surfaceKeys record.payload.bindings) = [] := by
    refine List.filter_eq_nil_iff.2 fun s hs => ?_
    obtain rfl : s = label := by simpa using (mem_hitsOf.1 hs).2
    simpa using hknown
  rw [withName, termHits_insert, surfaceKeys_naming_twice hne, hitsOf_insert, hnone, List.nil_append,
    termHits_of_split (List.append_nil _).symm, hitsOf_append]
  refine congrArg _ (List.filter_congr fun s _ => decide_eq_decide.2 (and_iff_left_of_imp fun hs hmem => hs ?_))
  obtain rfl : s = label := by simpa using hmem
  exact hknown

/-- The name takes the place of the label. -/
theorem get?_withName (hne : label ≠ "") (hword : ¬ GlossaryWord args.glossary label) (surface : String) :
    (lexicalTerms (withName record label) args.glossary).get? surface =
      if surface = label then some .bindingName else (lexicalTerms record args.glossary).get? surface := by
  split_ifs with hsurface
  · subst hsurface
    have hnone : args.glossary.surfaces.reverse.lookup surface = none := by
      refine List.lookup_eq_none_iff.2 fun item hitem => ?_
      rw [bne_iff_ne]
      rintro rfl
      exact hword (mem_surfaces_glossary (List.mem_reverse.1 hitem)).2
    have hlabel : nonempty (some surface) = some surface := nonempty_eq_some_iff.2 ⟨rfl, hne⟩
    have hsurfaces : (naming [surface, surface]).surfaces =
        [(surface, .conceptLabel), (surface, .bindingName)] := by
      simp [Binding.surfaces, naming, hlabel, behindDot_dot]
    have hbindings : (withName record surface).payload.bindings =
        record.payload.bindings ++ [naming [surface, surface]] := rfl
    rw [get?_lexicalTerms, hnone, Option.none_or, hbindings, List.flatMap_append, List.flatMap_singleton, hsurfaces]
    simp
  · refine get?_insert (List.append_nil _).symm (Or.inl ?_)
    rw [surfaceKeys_naming_twice hne]
    simpa using hsurface

/-- Of a label that counts as one, the name costs the artifact score. -/
theorem termScore_withName_lt [Zero F] [One F] [Add F] [OfScientific F] [LT F]
    (hapart : TellsApart F (termHits args record).length) (hlabel : ConceptLabel record label)
    (hword : ¬ GlossaryWord args.glossary label) (hcounts : (label, .conceptLabel) ∈ matchedSurfaces args record) :
    termScore args (withName record label) < termScore args record := by
  have hne : label ≠ "" := (mem_termHits.1 (List.mem_map_of_mem hcounts)).1.1
  obtain ⟨before, after, hsplit⟩ := List.append_of_mem hcounts
  have hhits : termHits args record = before.map Prod.fst ++ label :: after.map Prod.fst := by
    rw [termHits, hsplit, List.map_append, List.map_cons]
  have hnodup : (before.map Prod.fst ++ label :: after.map Prod.fst).Nodup := hhits ▸ nodup_termHits
  have hnot := (List.nodup_cons.1 (List.nodup_middle.1 hnodup)).1
  rw [List.mem_append, not_or] at hnot
  have hothers : ∀ items : List (String × SurfaceKind), (∀ item ∈ items, item ∈ matchedSurfaces args record) →
      label ∉ items.map Prod.fst → (items.map Prod.fst).map (surfaceWeight (withName record label) args.glossary) =
        (items.map Prod.snd).map (SurfaceKind.weight (F := F)) := by
    intro items hitems hnot
    rw [List.map_map, List.map_map]
    refine List.map_congr_left fun item hitem => ?_
    have hne' : item.1 ≠ label := fun heq => hnot (heq ▸ List.mem_map_of_mem hitem)
    rw [Function.comp_apply, Function.comp_apply, surfaceWeight, get?_withName hne hword, if_neg hne',
      get?_of_mem_matchedSurfaces (hitems item hitem)]
    rfl
  have hname : (surfaceWeight (withName record label) args.glossary label : F) = SurfaceKind.bindingName.weight := by
    rw [surfaceWeight, get?_withName hne hword, if_pos rfl]
    rfl
  have hlength : (before.map Prod.snd).length + (after.map Prod.snd).length < (termHits args record).length := by
    rw [hhits]
    simp
  have hlt := hapart (before.map Prod.snd) (after.map Prod.snd) hlength
  rw [termScore_eq args (withName record label), termHits_withName hne hlabel, hhits, List.map_append,
    List.map_cons, hothers before (fun item hitem => hsplit ▸ List.mem_append_left _ hitem) hnot.1,
    hothers after (fun item hitem => hsplit ▸ List.mem_append_right _ (List.mem_cons_of_mem _ hitem)) hnot.2, hname,
    termScore, hsplit]
  simpa [Function.comp_def] using hlt

end

/-! ## When more vocabulary costs nothing -/

section
variable {F : Type*} [AddZeroClass F] [MulOneClass F] [LinearOrder F] [OfScientific F] [RoundedArithmetic F]
  [SurfaceWeights F] {args : SelectionArgs F} {record : Record}

omit [RoundedArithmetic F] [SurfaceWeights F] in
theorem labelsKnown_of_counts (hapart : TellsApart F (termHits args record).length) (h : VocabularyCounts args record) :
    LabelsKnown args record := by
  intro label hlabel hoccurs
  by_contra hword
  have hhit : label ∈ termHits args record :=
    mem_termHits.2 ⟨hoccurs, Or.inl (ownLabel_of_conceptLabel hoccurs.1 hlabel)⟩
  have hlt : (SurfaceKind.bindingName.weight : F) < SurfaceKind.conceptLabel.weight := by
    have hlt := hapart [] [] (List.length_pos_of_mem hhit)
    simpa only [List.nil_append, List.map_singleton, runningSum_singleton] using hlt
  obtain ⟨kind, hkind⟩ := exists_kind_of_mem_termHits hhit
  have hitem : (label, kind) ∈ matchedSurfaces args record :=
    List.mem_filter.2 ⟨(Dict.mem_iff_get? nodup_lexicalTerms).2 hkind, decide_eq_true hoccurs⟩
  have hgreatest := h.greatest _ hitem .conceptLabel (known_conceptLabel hoccurs.1 hlabel)
  rcases known_cases (known_of_get? hkind) with hbinding | hglossary
  · obtain ⟨binding, -, hsurface⟩ := List.mem_flatMap.1 hbinding
    rcases mem_surfaces_binding hsurface with ⟨rfl, -⟩ | ⟨rfl, -⟩
    · have hadds : AddsBinding record (withName record label) :=
        ⟨record.payload.bindings, _, [], (List.append_nil _).symm, rfl⟩
      exact not_lt.2 (h.binding _ hadds).score (termScore_withName_lt hapart hlabel hword hitem)
    · exact not_lt.2 hgreatest hlt
  · exact hword (mem_surfaces_glossary hglossary).2

end

/-! ### Exact sums -/

theorem movedUp_perm {hits keys up : List String} (hhits : hits.Nodup) (hup : up.Nodup)
    (h : ∀ s ∈ up, s ∈ hits ∧ s ∉ keys) : (movedUp hits keys up).Perm hits := by
  have hsplit : (up ++ hits.filter fun s => s ∉ keys ∧ s ∉ up).Perm (hits.filter (· ∉ keys)) := by
    have hnodup : (up ++ hits.filter fun s => s ∉ keys ∧ s ∉ up).Nodup :=
      hup.append (hhits.filter _) fun s hs hs' => by simp [hs] at hs'
    refine (List.perm_ext_iff_of_nodup hnodup (hhits.filter _)).2 fun s => ?_
    by_cases hs : s ∈ up
    · simp [hs, h s hs]
    · simp [hs]
  rw [movedUp, List.append_assoc]
  refine (hsplit.append_left _).trans ?_
  simpa using List.filter_append_perm (fun s => decide (s ∈ keys)) hits

section
variable {K : Type*} [Field K] [LinearOrder K] [IsStrictOrderedRing K]

omit [IsStrictOrderedRing K] in
/-- The order of exact terms does not matter. -/
theorem steady_of_exact (args : SelectionArgs K) (record : Record) : Steady args record := by
  intro before _ _ up _ hnodup hup
  rw [termScore_eq, runningSum_eq_sum, runningSum_eq_sum]
  exact (((movedUp_perm nodup_termHits hnodup hup).map _).sum_eq).ge

/-- Exact sums of any length tell a label from a binding name. -/
theorem tellsApart_of_exact (n : ℕ) : TellsApart K n := by
  intro before after _
  have hlt : (SurfaceKind.bindingName.weight : K) < SurfaceKind.conceptLabel.weight := by
    norm_num [SurfaceKind.weight]
  rw [runningSum_eq_sum, runningSum_eq_sum]
  simpa using hlt

end

/-! ### Binary64 sums -/

theorem SurfaceKind.weight_bounds (kind : SurfaceKind) :
    0 ≤ (kind.weight : Rounding.binary64.Number).val ∧ (kind.weight : Rounding.binary64.Number).val ≤ 1 :=
  ⟨Rounding.binary64.le_iff.1 kind.weight_nonneg, Rounding.binary64.le_iff.1 kind.weight_le_one⟩

/-- **Binary64 sums** of less than `2 ^ 24` weights tell a label from a binding name: their errors are smaller than the
difference. -/
theorem tellsApart_binary64 {n : ℕ} (hn : n < 2 ^ 24) : TellsApart Rounding.binary64.Number n := by
  intro before after hlength
  have herror : ∀ kind : SurfaceKind,
      |(runningSum ((before ++ kind :: after).map SurfaceKind.weight) : Rounding.binary64.Number).val -
        ((before ++ kind :: after).map fun k => (k.weight : Rounding.binary64.Number).val).sum| ≤ 1 / 32 := by
    intro kind
    have hcard : ((before ++ kind :: after).length : ℚ) + 1 ≤ 2 ^ (24 : ℤ) := by
      have hle : (before ++ kind :: after).length + 1 ≤ 2 ^ 24 := by
        rw [List.length_append, List.length_cons]
        omega
      exact_mod_cast hle
    have hsmall : ((before ++ kind :: after).length : ℚ) * 2 ^ ((24 : ℤ) - 53) ≤ 1 / 32 := by
      have hulp : (2 : ℚ) ^ ((24 : ℤ) - 53) = 1 / 2 ^ 29 := by norm_num
      rw [hulp, mul_one_div, div_le_iff₀ (by norm_num)]
      have h : ((2 : ℚ) ^ (24 : ℤ)) = 2 ^ 24 := by norm_num
      rw [h] at hcard
      linarith
    have hweights : ∀ x ∈ (before ++ kind :: after).map (SurfaceKind.weight (F := Rounding.binary64.Number)),
        0 ≤ x.val ∧ x.val ≤ 1 := List.forall_mem_map.2 fun k _ => k.weight_bounds
    have h := abs_runningSum_sub_le (m := 24) hweights (by rwa [List.length_map])
      (by rw [List.length_map]; exact hsmall.trans (by norm_num))
    rw [List.length_map, List.map_map] at h
    exact h.trans hsmall
  have hname := (abs_le.1 (herror .bindingName)).2
  have hlabel := (abs_le.1 (herror .conceptLabel)).1
  have hgap : (SurfaceKind.bindingName.weight : Rounding.binary64.Number).val + 1 / 8 ≤
      (SurfaceKind.conceptLabel.weight : Rounding.binary64.Number).val := by decide +kernel
  simp only [List.map_append, List.map_cons, List.sum_append, List.sum_cons] at hname hlabel
  refine lt_of_not_ge fun hge => ?_
  have hge := (Rounding.binary64.le_iff).1 hge
  simp only [List.map_append, List.map_cons] at hge
  linarith

/-! ### A label that becomes a binding name -/

/-- A question about rainfall, without a glossary. -/
def labelArgs : SelectionArgs Rounding.binary64.Number where
  toAccess := rainfallArgs.toAccess
  question := "rainfall of September"
  questionEmbedding := []
  embeddingModel := "fixture"
  artifactEmbeddings := []
  glossary := {}

end RoboMeta
