/-
  Selection of artifacts for a question (`services/artifact_selector.py`).

  Every artifact is judged on its own (`rejectReason`): it is rejected by the hard
  filter or for want of a term in common with the question, or becomes a
  candidate with a score.  The candidates are sorted by falling score, those of
  equal score by their ids, and the first `topK` are selected.

  Similarities and scores are exact numbers of `K`; the square root, rounding and
  printing are a parameter (`Numerics`).  The sum of the weights is that of any
  arithmetic (`termScore`).

  * `hardFilter`, `hardFilter_eq_none_iff`: the hard filter and what it asks;
  * `selectArtifacts`, `selectArtifacts_selected`, `selectArtifacts_of_none`.
-/
import Mathlib.Algebra.Field.Defs
import Mathlib.Data.Prod.Lex
import Mathlib.Data.String.Basic
import RoboMeta.Lib.Rounding
import RoboMeta.Store

namespace RoboMeta

/-! ## Results -/

inductive SelectCode where
  | tenantDenied
  | notPublished
  | notReady
  | notYetValid
  | expired
  | staleSnapshot
  | roleDenied
  | noLexicalSignal
  | noArtifact
deriving DecidableEq, Repr

def SelectCode.text : SelectCode → String
  | tenantDenied => "SV_SELECT_TENANT_DENIED"
  | notPublished => "SV_SELECT_NOT_PUBLISHED"
  | notReady => "SV_SELECT_NOT_READY"
  | notYetValid => "SV_SELECT_NOT_YET_VALID"
  | expired => "SV_SELECT_EXPIRED"
  | staleSnapshot => "SV_SELECT_STALE_SNAPSHOT"
  | roleDenied => "SV_SELECT_ROLE_DENIED"
  | noLexicalSignal => "SV_SELECT_NO_LEXICAL_SIGNAL"
  | noArtifact => "SV_SELECT_NO_ARTIFACT"

inductive MissingKind where
  | other
  | binding
deriving DecidableEq, Repr

structure Blocker where
  code : String
  message : String
  missingKind : MissingKind
  reference : Option String
deriving DecidableEq, Repr

structure SelectedArtifact (K : Type*) where
  record : Record
  score : K
  termHits : List String
  embeddingSimilarity : K
  reasons : List String
deriving DecidableEq

structure SelectionResult (K : Type*) where
  selected : List (SelectedArtifact K)
  blockers : List Blocker

/-! ## The hard filter -/

/-- Who asks, and when. -/
structure Access where
  tenantId : String
  roles : List String
  now : String
  knownSnapshotIds : List String

/-- A time that is set. -/
def given (time : Option String) : Option String := time.filter (· ≠ "")

def Payload.security (payload : Payload) : Option Policy :=
  payload.policies.find? fun p => p.policyType = .security

/-- The policy names roles, and none of the caller's is among them. -/
def Policy.denies (policy : Policy) (roles : List String) : Prop :=
  policy.allowedRoles ≠ [] ∧ ∀ r ∈ policy.allowedRoles, r ∉ roles

instance (policy : Policy) (roles : List String) : Decidable (policy.denies roles) :=
  inferInstanceAs (Decidable (_ ∧ _))

def hardFilter (access : Access) (record : Record) : Option SelectCode :=
  if record.tenantId ≠ some access.tenantId then some .tenantDenied
  else if record.status ≠ some .published then some .notPublished
  else if record.readiness ≠ some .ready then some .notReady
  else if ∃ t ∈ given record.validFrom, access.now < t then some .notYetValid
  else if ∃ t ∈ given record.validTo, t < access.now then some .expired
  else if record.snapshotId ∉ access.knownSnapshotIds then some .staleSnapshot
  else if ∃ policy ∈ record.payload.security, policy.denies access.roles then some .roleDenied
  else none

/-- The artifact may be served. -/
structure Servable (access : Access) (record : Record) : Prop where
  tenant : record.tenantId = some access.tenantId
  published : record.status = some .published
  ready : record.readiness = some .ready
  from_ : ∀ t ∈ given record.validFrom, t ≤ access.now
  to_ : ∀ t ∈ given record.validTo, access.now ≤ t
  snapshot : record.snapshotId ∈ access.knownSnapshotIds
  role : ∀ policy ∈ record.payload.security, ¬ policy.denies access.roles

section
variable {access : Access} {record : Record}

/-- Behind the other checks, the roles decide. -/
theorem hardFilter_of_checks (htenant : record.tenantId = some access.tenantId)
    (hpublished : record.status = some .published) (hready : record.readiness = some .ready)
    (hfrom : ∀ t ∈ given record.validFrom, t ≤ access.now) (hto : ∀ t ∈ given record.validTo, access.now ≤ t)
    (hsnapshot : record.snapshotId ∈ access.knownSnapshotIds) :
    hardFilter access record =
      if ∃ policy ∈ record.payload.security, policy.denies access.roles then some .roleDenied else none := by
  unfold hardFilter
  rw [if_neg (not_not.2 htenant), if_neg (not_not.2 hpublished), if_neg (not_not.2 hready),
    if_neg fun ⟨t, ht, hlt⟩ => not_lt.2 (hfrom t ht) hlt, if_neg fun ⟨t, ht, hlt⟩ => not_lt.2 (hto t ht) hlt,
    if_neg (not_not.2 hsnapshot)]

/-- **The hard filter lets servable artifacts pass, and no others.** -/
theorem hardFilter_eq_none_iff : hardFilter access record = none ↔ Servable access record := by
  constructor
  · intro h
    unfold hardFilter at h
    split_ifs at h with htenant hpublished hready hfrom hto hsnapshot hrole
    exact {
      tenant := not_not.1 htenant
      published := not_not.1 hpublished
      ready := not_not.1 hready
      from_ := fun t ht => not_lt.1 fun hlt => hfrom ⟨t, ht, hlt⟩
      to_ := fun t ht => not_lt.1 fun hlt => hto ⟨t, ht, hlt⟩
      snapshot := hsnapshot
      role := fun policy hp hd => hrole ⟨policy, hp, hd⟩ }
  · intro h
    rw [hardFilter_of_checks h.tenant h.published h.ready h.from_ h.to_ h.snapshot,
      if_neg fun ⟨policy, hp, hd⟩ => h.role policy hp hd]

end

/-! ## Terms and similarity -/

inductive SurfaceKind where
  | standardTerm
  | synonym
  | conceptLabel
  | bindingName
deriving DecidableEq, Repr

/-- `name.split(".", 1)[1]`, if there is a dot in the name. -/
def behindDot (name : String) : Option String :=
  if '.' ∈ name.toList then some (String.ofList (name.toList.dropWhile (· ≠ '.')).tail) else none

/-- The surfaces that a binding contributes, in order. -/
def Binding.surfaces (binding : Binding) : List (String × SurfaceKind) :=
  ((binding.concept.bind fun concept => nonempty concept.label).toList.map fun label =>
      (label, .conceptLabel)) ++
    (behindDot binding.name).toList.map fun name => (name, .bindingName)

def lexicalTerms (record : Record) (glossary : Glossary) : Dict String SurfaceKind :=
  let surfaces := record.payload.bindings.flatMap Binding.surfaces ++
    (glossary.terms.filterMap fun term => (nonempty term.standardTerm).map (·, .standardTerm)) ++
    (glossary.synonyms.filterMap fun synonym => (nonempty synonym.synonym).map (·, .synonym))
  surfaces.foldl (fun surface item => surface.set item.1 item.2) []

/-- The arguments of a selection, but the artifacts and their number. -/
structure SelectionArgs (K : Type*) extends Access where
  question : String
  questionEmbedding : List K
  embeddingModel : String
  artifactEmbeddings : Dict String (List (EmbeddingRow K))
  glossary : Glossary

section
variable {K : Type*} (args : SelectionArgs K)

def matchedSurfaces (record : Record) : Dict String SurfaceKind :=
  (lexicalTerms record args.glossary).filter fun item => item.1 ≠ "" ∧ occursIn item.1 args.question

def termHits (record : Record) : List String := (matchedSurfaces args record).map Prod.fst

/-! ## Rejection -/

/-- Why an artifact is rejected, if it is. -/
def rejectReason (record : Record) : Option SelectCode :=
  match hardFilter args.toAccess record with
  | some reason => some reason
  | none => if termHits args record = [] then some .noLexicalSignal else none

def rejection (record : Record) (reason : SelectCode) : Blocker :=
  if reason = .noLexicalSignal then {
    code := reason.text
    message := record.artifactId ++ ": 표준용어·동의어 일치 없음 (vector 단독 선택 금지)"
    missingKind := .binding
    reference := some record.artifactId }
  else {
    code := reason.text
    message := record.artifactId ++ " 제외"
    missingKind := .other
    reference := some record.artifactId }

@[simp] theorem rejection_reference (record : Record) (reason : SelectCode) :
    (rejection record reason).reference = some record.artifactId := by
  unfold rejection; split_ifs <;> rfl

@[simp] theorem rejection_code (record : Record) (reason : SelectCode) :
    (rejection record reason).code = reason.text := by
  unfold rejection; split_ifs <;> rfl

def rejected (artifacts : List Record) : List Blocker :=
  artifacts.filterMap fun record => (rejectReason args record).map (rejection record)

def noArtifact : Blocker where
  code := SelectCode.noArtifact.text
  message := "published Semantic View가 없습니다."
  missingKind := .other
  reference := none

/-- The artifact passes the hard filter and shares a term with the question. -/
def Qualifies (record : Record) : Prop := hardFilter args.toAccess record = none ∧ termHits args record ≠ []

instance (record : Record) : Decidable (Qualifies args record) := inferInstanceAs (Decidable (_ ∧ _))

theorem rejectReason_eq_none_iff {record : Record} :
    rejectReason args record = none ↔ Qualifies args record := by
  unfold rejectReason Qualifies
  cases hardFilter args.toAccess record with
  | some reason => simp
  | none => simp

/-- If no artifact qualifies, each is rejected once, in order. -/
theorem forall₂_rejected {artifacts : List Record} (h : ∀ r ∈ artifacts, ¬ Qualifies args r) :
    List.Forall₂ (fun b r => ∃ reason, rejectReason args r = some reason ∧ b = rejection r reason)
      (rejected args artifacts) artifacts := by
  induction artifacts with
  | nil => exact .nil
  | cons r artifacts ih =>
    have ih := ih fun r' hr' => h r' (List.mem_cons_of_mem _ hr')
    have hr : rejectReason args r ≠ none := fun hn =>
      h r List.mem_cons_self ((rejectReason_eq_none_iff args).1 hn)
    obtain ⟨reason, hreason⟩ := Option.ne_none_iff_exists'.1 hr
    -- the head is rejected, so it contributes one blocker
    have hcons : rejected args (r :: artifacts) = rejection r reason :: rejected args artifacts := by
      simp [rejected, hreason]
    rw [hcons]
    exact .cons ⟨reason, hreason, rfl⟩ ih

end

/-! ## Scores -/

def SurfaceKind.weight {F : Type*} [One F] [OfScientific F] : SurfaceKind → F
  | .standardTerm | .synonym => 1
  | .conceptLabel => 0.8
  | .bindingName => 0.6

/-- The weights of the hits, added up in their order; `F` may round. -/
def termScore {F : Type*} [Zero F] [One F] [Add F] [OfScientific F] (args : SelectionArgs F) (record : Record) : F :=
  runningSum ((matchedSurfaces args record).map fun item => item.2.weight)

/-- What the services need of numbers beyond a field: roots, `round` to a number
    of places, and their text. -/
structure Numerics (K : Type*) where
  sqrt : K → K
  round : K → ℕ → K
  text : K → String

section
variable {K : Type*} [Field K] [LinearOrder K] (N : Numerics K) (args : SelectionArgs K)

def cosine (a b : List K) : K :=
  if a.length ≠ b.length ∨ a = [] then 0 else
  let dot := (List.zipWith (· * ·) a b).sum
  let normA := N.sqrt (a.map fun x => x * x).sum
  let normB := N.sqrt (b.map fun y => y * y).sum
  if normA = 0 ∨ normB = 0 then 0 else dot / (normA * normB)

def similarity (record : Record) : K :=
  (((args.artifactEmbeddings.get? record.artifactId).getD []).filter fun row =>
      row.embeddingModel = args.embeddingModel).foldl
    (fun best row => max best (cosine N args.questionEmbedding row.embedding)) 0

def candidate (record : Record) : SelectedArtifact K where
  record := record
  score := N.round (min (termScore args record) 3 / 3 * (3 / 5) + max (similarity N args record) 0 * (2 / 5)) 6
  termHits := termHits args record
  embeddingSimilarity := N.round (similarity N args record) 6
  reasons := (termHits args record).map ("term:" ++ ·) ++
    if similarity N args record = 0 then []
    else ["similarity:" ++ N.text (N.round (similarity N args record) 4)]

/-- Term score and similarity as one number: a term counts a fifth, up to three
    of them, and the similarity two fifths. -/
def blend (terms similarity : K) : K := N.round (min terms 3 / 3 * (3 / 5) + max similarity 0 * (2 / 5)) 6

def candidates (artifacts : List Record) : List (SelectedArtifact K) :=
  (artifacts.filter fun record => rejectReason args record = none).map (candidate N args)

/-! ## Selection -/

def SelectedArtifact.key (c : SelectedArtifact K) : K ×ₗ String := toLex (-c.score, c.record.artifactId)

/-- The order of the candidates; equal keys stay in place. -/
def SelectedArtifact.Before (c d : SelectedArtifact K) : Prop := c.key ≤ d.key

instance : DecidableRel (SelectedArtifact.Before (K := K)) := fun c d =>
  inferInstanceAs (Decidable (c.key ≤ d.key))

instance : Std.Total (SelectedArtifact.Before (K := K)) := ⟨fun c d => le_total c.key d.key⟩

instance : IsTrans (SelectedArtifact K) SelectedArtifact.Before :=
  ⟨fun c d e (hcd : c.key ≤ d.key) (hde : d.key ≤ e.key) => (hcd.trans hde : c.key ≤ e.key)⟩

def selectArtifacts (artifacts : List Record) (topK : ℕ) : SelectionResult K :=
  let ranked := (candidates N args artifacts).insertionSort SelectedArtifact.Before
  if ranked ≠ [] then { selected := ranked.take topK, blockers := [] }
  else {
    selected := []
    blockers := if rejected args artifacts ≠ [] then rejected args artifacts else [noArtifact] }

theorem candidates_eq (artifacts : List Record) :
    candidates N args artifacts = (artifacts.filter fun r => Qualifies args r).map (candidate N args) := by
  simp only [candidates, rejectReason_eq_none_iff]

theorem candidates_eq_nil_iff {artifacts : List Record} :
    candidates N args artifacts = [] ↔ ∀ r ∈ artifacts, ¬ Qualifies args r := by
  rw [candidates_eq, List.map_eq_nil_iff, List.filter_eq_nil_iff]
  simp

theorem selectArtifacts_of_none {artifacts : List Record} (topK : ℕ)
    (h : ∀ r ∈ artifacts, ¬ Qualifies args r) :
    selectArtifacts N args artifacts topK =
      ⟨[], if artifacts = [] then [noArtifact] else rejected args artifacts⟩ := by
  have hnil : candidates N args artifacts = [] := (candidates_eq_nil_iff N args).2 h
  have hrejected : rejected args artifacts = [] ↔ artifacts = [] := by
    rw [← List.length_eq_zero_iff, (forall₂_rejected args h).length_eq, List.length_eq_zero_iff]
  simp only [selectArtifacts, hnil, List.insertionSort_nil, ne_eq, not_true_eq_false, if_false,
    hrejected, ite_not]

/-- **The ranking.**  Selected are the first of all artifacts that qualify, in
    the order of falling scores and then of ids. -/
theorem selectArtifacts_selected (artifacts : List Record) (topK : ℕ) :
    ∃ ranked : List (SelectedArtifact K),
      ranked.Perm ((artifacts.filter fun r => Qualifies args r).map (candidate N args)) ∧
        ranked.Pairwise SelectedArtifact.Before ∧
        (selectArtifacts N args artifacts topK).selected = ranked.take topK := by
  refine ⟨(candidates N args artifacts).insertionSort SelectedArtifact.Before, ?_, ?_, ?_⟩
  · rw [← candidates_eq]
    exact List.perm_insertionSort _ _
  · exact List.pairwise_insertionSort _ _
  · by_cases hranked : (candidates N args artifacts).insertionSort SelectedArtifact.Before = []
    · simp [selectArtifacts, hranked]
    · simp [selectArtifacts, hranked]

theorem selectArtifacts_selected_ne_nil {artifacts : List Record} {topK : ℕ} (hk : 1 ≤ topK) :
    (selectArtifacts N args artifacts topK).selected ≠ [] ↔ ∃ r ∈ artifacts, Qualifies args r := by
  obtain ⟨ranked, hperm, -, hselected⟩ := selectArtifacts_selected N args artifacts topK
  rw [hselected, Ne, List.take_eq_nil_iff, not_or, ← List.length_eq_zero_iff, hperm.length_eq,
    List.length_eq_zero_iff, List.map_eq_nil_iff, List.filter_eq_nil_iff]
  simp only [decide_eq_true_eq, not_forall, not_not, exists_prop]
  exact and_iff_right (Nat.one_le_iff_ne_zero.1 hk)

end

end RoboMeta
