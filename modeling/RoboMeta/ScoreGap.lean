/-
  Score-gap pruning (`services/decision_service.py`).

  The candidates are ranked by score, and from the first on they are taken until
  one is below the cutoff or too far below the one before it.  `decide` prunes
  twice, the second time what it has already pruned.

  * `PruneParams.Keeps`: the scores that pruning keeps together;
  * `longestFit_prune`: pruning keeps the longest initial part of the ranked
    candidates whose scores are kept together, so `prune_prune`;
  * `prune_spec` sums this up.
-/
import Mathlib.Algebra.Field.Rat
import Mathlib.Algebra.Order.Ring.Defs
import Mathlib.Data.List.Chain
import RoboMeta.Lib.Fitting
import RoboMeta.Lib.Ranking
import RoboMeta.Schemas

namespace RoboMeta

/-- A `TableCandidate` with the texts that are handed on with it. -/
structure SearchedTable (K : Type*) extends TableCandidate K where
  description : String := ""
  analyzedDescription : String := ""
  subjectArea : String := ""
deriving DecidableEq

structure PruneParams (K : Type*) where
  maxK : ℤ
  gapRatio : K
  minStep : K
  topRadius : K

variable {K : Type*} [Field K] [LinearOrder K]

/-- `_prune_by_score_gap` ranks by `float(t.score)`. -/
def tablesByScore (candidates : List (SearchedTable K)) : List (SearchedTable K) :=
  ranked (fun t => t.score) candidates

omit [Field K] in
theorem perm_tablesByScore (candidates : List (SearchedTable K)) : (tablesByScore candidates).Perm candidates :=
  perm_ranked _ candidates

/-! ## The code -/

def PruneParams.cutoff (p : PruneParams K) (topScore : K) : K :=
  let ratio := max 0 (min 1 p.gapRatio)
  if 0 < p.topRadius then max (topScore * ratio) (topScore - p.topRadius) else topScore * ratio

/-- The loop, with what is in `out` so far. -/
def pruneLoop (cutoff step : K) (out : List (SearchedTable K)) : List (SearchedTable K) → List (SearchedTable K)
  | [] => out
  | t :: ts =>
    match out.getLast? with
    | none => pruneLoop cutoff step (out ++ [t]) ts
    | some last =>
      if t.score < cutoff then out
      else if 0 < step ∧ step < last.score - t.score then out
      else pruneLoop cutoff step (out ++ [t]) ts

def pruneByScoreGap (p : PruneParams K) (candidates : List (SearchedTable K)) : List (SearchedTable K) :=
  match tablesByScore candidates with
  | [] => []
  | top :: rest =>
    if top.score ≤ 0 then [top]
    else pruneLoop (p.cutoff top.score) (max 0 p.minStep) [] ((top :: rest).take (max 1 p.maxK).toNat)

/-! ## What is kept together -/

/-- A score may stand behind another one in what is kept. -/
def PruneParams.Follows (p : PruneParams K) (top a b : K) : Prop :=
  p.cutoff top ≤ b ∧ (0 < p.minStep → a - b ≤ p.minStep)

/-- The scores that pruning keeps together, the top score first: no more than the cap, one only if the top score is not
positive, each behind the first above the cutoff and no more than the step below the one before it. -/
def PruneParams.Keeps (p : PruneParams K) : List K → Prop
  | [] => True
  | top :: rest => (rest.length + 1 : ℤ) ≤ max 1 p.maxK ∧ (top ≤ 0 → rest = []) ∧
      (top :: rest).IsChain (p.Follows top)

section
variable {p : PruneParams K} {top : K} {scores scores' : List K}

theorem PruneParams.keeps_singleton (p : PruneParams K) (s : K) : p.Keeps [s] :=
  ⟨by simp, fun _ => rfl, .singleton s⟩

theorem PruneParams.keeps_map_cons {t : SearchedTable K} {ts : List (SearchedTable K)} :
    p.Keeps ((t :: ts).map fun t => t.score) ↔ (ts.length + 1 : ℤ) ≤ max 1 p.maxK ∧ (t.score ≤ 0 → ts = []) ∧
      (t :: ts).IsChain fun a b => p.Follows t.score a.score b.score := by
  have hchain := List.isChain_map (R := p.Follows t.score) (fun t : SearchedTable K => t.score) (l := t :: ts)
  rw [List.map_cons] at hchain ⊢
  rw [← hchain, ← List.length_map (fun t : SearchedTable K => t.score), ← List.map_eq_nil_iff (l := ts)]
  rfl

/-- Of what is kept together, an initial part is. -/
theorem PruneParams.Keeps.initial (h : scores <+: scores') (hkeeps : p.Keeps scores') : p.Keeps scores := by
  cases scores with
  | nil => trivial
  | cons top rest =>
    obtain ⟨rest', rfl⟩ := h
    obtain ⟨hlength, halone, hchain⟩ := hkeeps
    refine ⟨?_, fun hle => ?_, List.IsChain.prefix hchain ⟨rest', rfl⟩⟩
    · simp only [List.append_eq, List.length_append] at hlength
      omega
    · exact (List.append_eq_nil_iff.1 (halone hle)).1

end

/-! ## The loop -/

section
variable (cutoff step : K)

/-- **The loop** takes the candidates as long as each may stand behind the one before it. -/
theorem longestFit_pruneLoop {out : List (SearchedTable K)} (hne : out ≠ [])
    (hchain : out.IsChain fun a b => cutoff ≤ b.score ∧ (0 < step → a.score - b.score ≤ step))
    (ts : List (SearchedTable K)) :
    ∃ cut, LongestFit (List.IsChain fun a b : SearchedTable K =>
      cutoff ≤ b.score ∧ (0 < step → a.score - b.score ≤ step)) (out ++ ts) (pruneLoop cutoff step out ts) cut := by
  induction ts generalizing out with
  | nil =>
    rw [List.append_nil]
    exact ⟨false, .of_fits hchain⟩
  | cons t ts ih =>
    have hlast := List.getLast?_eq_some_getLast hne
    have hconcat : (out ++ [t]).IsChain (fun a b => cutoff ≤ b.score ∧ (0 < step → a.score - b.score ≤ step)) ↔
        cutoff ≤ t.score ∧ (0 < step → (out.getLast hne).score - t.score ≤ step) := by
      simp [List.isChain_append, hchain, hlast]
    have hstop : ¬ (out ++ [t]).IsChain (fun a b => cutoff ≤ b.score ∧ (0 < step → a.score - b.score ≤ step)) →
        ∃ cut, LongestFit (List.IsChain fun a b : SearchedTable K =>
          cutoff ≤ b.score ∧ (0 < step → a.score - b.score ≤ step)) (out ++ t :: ts) out cut := fun hnot =>
      ⟨true, .of_not_fits (fun h hfits => List.IsChain.prefix hfits h) hchain hnot⟩
    rw [pruneLoop, hlast]
    dsimp only
    split_ifs with hcut hstep
    · exact hstop fun hfits => absurd (hconcat.1 hfits).1 (not_le.2 hcut)
    · exact hstop fun hfits => absurd ((hconcat.1 hfits).2 hstep.1) (not_le.2 hstep.2)
    · have hnext := ih (List.append_ne_nil_of_right_ne_nil out (List.cons_ne_nil t []))
        (hconcat.2 ⟨not_lt.1 hcut, fun hpos => not_lt.1 fun hlt => hstep ⟨hpos, hlt⟩⟩)
      rwa [List.append_assoc] at hnext

end

/-! ## Pruning -/

section
variable (p : PruneParams K) (candidates : List (SearchedTable K))

/-- **Pruning** keeps the longest initial part of the ranked candidates whose scores are kept together. -/
theorem longestFit_prune : ∃ cut, LongestFit (fun kept => p.Keeps (kept.map fun t => t.score))
    (tablesByScore candidates) (pruneByScoreGap p candidates) cut := by
  unfold pruneByScoreGap
  cases hranked : tablesByScore candidates with
  | nil => exact ⟨false, .of_fits trivial⟩
  | cons top rest =>
    have hinitial : ∀ {xs ys : List (SearchedTable K)}, xs <+: ys →
        p.Keeps (ys.map fun t => t.score) → p.Keeps (xs.map fun t => t.score) := fun h hkeeps =>
      PruneParams.Keeps.initial (h.map _) hkeeps
    dsimp only
    split_ifs with htop
    · -- nothing may stand behind a score that is not positive
      cases rest with
      | nil => exact ⟨false, .of_fits (p.keeps_singleton top.score)⟩
      | cons t rest =>
        have halone : p.Keeps ([top].map fun t => t.score) := p.keeps_singleton top.score
        have hnot : ¬ p.Keeps (([top] ++ [t]).map fun t => t.score) := fun hkeeps =>
          List.cons_ne_nil _ _ (hkeeps.2.1 htop)
        exact ⟨true, .of_not_fits hinitial halone hnot⟩
    · obtain ⟨n, hn⟩ : ∃ n, (max 1 p.maxK).toNat = n + 1 := ⟨(max 1 p.maxK).toNat - 1, by omega⟩
      rw [hn, List.take_succ_cons, pruneLoop]
      obtain ⟨cut, hloop⟩ := longestFit_pruneLoop (p.cutoff top.score) (max 0 p.minStep) (List.cons_ne_nil top [])
        (.singleton top) (rest.take n)
      have hloop : LongestFit _ ((top :: rest).take (n + 1)) _ cut := hloop
      refine ⟨_, hloop.capped.congr fun ys hys => ?_⟩
      -- an initial part of the ranked candidates is empty or begins with the first one
      cases ys with
      | nil => exact iff_of_true ⟨Nat.zero_le _, .nil⟩ trivial
      | cons t ys =>
        obtain rfl : t = top := (List.cons_prefix_cons.1 hys).1
        have hstep : ∀ d, (0 < max 0 p.minStep → d ≤ max 0 p.minStep) ↔ (0 < p.minStep → d ≤ p.minStep) := by
          intro d
          rw [lt_max_iff, or_iff_right (lt_irrefl 0)]
          exact forall_congr' fun hpos => by rw [max_eq_right hpos.le]
        rw [PruneParams.keeps_map_cons, List.length_cons]
        simp only [PruneParams.Follows, hstep, htop, false_imp_iff, true_and]
        exact and_congr_left' (by omega)

omit [Field K] p in
theorem tablesByScore_eq_nil : tablesByScore candidates = [] ↔ candidates = [] := ranked_eq_nil

variable {p candidates}

theorem prune_eq_nil : pruneByScoreGap p candidates = [] ↔ candidates = [] := by
  obtain ⟨cut, h⟩ := longestFit_prune p candidates
  rw [← tablesByScore_eq_nil candidates]
  constructor
  · intro hnil
    rw [hnil] at h
    by_contra hne
    obtain ⟨top, rest, hcons⟩ := List.exists_cons_of_ne_nil hne
    have hlength := h.longest [top] (hcons ▸ ⟨rest, rfl⟩) (p.keeps_singleton top.score)
    exact absurd hlength (by simp)
  · intro hnil
    exact List.prefix_nil.1 (hnil ▸ h.initial)

/-- The top score stays first. -/
theorem head?_prune : (pruneByScoreGap p candidates).head? = (tablesByScore candidates).head? := by
  obtain ⟨cut, h⟩ := longestFit_prune p candidates
  obtain ⟨rest, hrest⟩ := h.initial
  rw [← hrest]
  cases hkept : pruneByScoreGap p candidates with
  | nil =>
    obtain rfl := prune_eq_nil.1 hkept
    rw [hkept] at hrest
    exact congrArg List.head? hrest.symm
  | cons top kept => rfl

theorem pairwise_prune : (pruneByScoreGap p candidates).Pairwise fun a b => b.score ≤ a.score := by
  obtain ⟨cut, h⟩ := longestFit_prune p candidates
  exact (pairwise_ranked _ candidates).sublist h.initial.sublist

theorem mem_of_mem_prune {t : SearchedTable K} (h : t ∈ pruneByScoreGap p candidates) : t ∈ candidates := by
  obtain ⟨cut, hfit⟩ := longestFit_prune p candidates
  exact (perm_tablesByScore candidates).mem_iff.1 (hfit.initial.subset h)

theorem nodup_prune (h : candidates.Nodup) : (pruneByScoreGap p candidates).Nodup := by
  obtain ⟨cut, hfit⟩ := longestFit_prune p candidates
  exact ((perm_tablesByScore candidates).nodup_iff.2 h).sublist hfit.initial.sublist

/-- **Pruning again** changes nothing. -/
theorem prune_prune : pruneByScoreGap p (pruneByScoreGap p candidates) = pruneByScoreGap p candidates := by
  obtain ⟨cut, h⟩ := longestFit_prune p candidates
  obtain ⟨cut', h'⟩ := longestFit_prune p (pruneByScoreGap p candidates)
  rw [tablesByScore, ranked_of_pairwise pairwise_prune] at h'
  exact (h'.unique (.of_fits h.fits)).1

/-- Ranked candidates are ranked. -/
theorem prune_tablesByScore : pruneByScoreGap p (tablesByScore candidates) = pruneByScoreGap p candidates := by
  unfold pruneByScoreGap tablesByScore
  rw [ranked_of_pairwise (pairwise_ranked _ _)]

/-- Of the candidates of a score that is kept, the first one comes first. -/
theorem head?_filter_prune {t : SearchedTable K} {ts : List (SearchedTable K)}
    (hkept : t.score ∈ (pruneByScoreGap p (t :: ts)).map fun t => t.score) :
    ((pruneByScoreGap p (t :: ts)).filter fun x => x.score = t.score).head? = some t := by
  obtain ⟨cut, h⟩ := longestFit_prune p (t :: ts)
  have hinitial := h.initial.filter fun x => decide (x.score = t.score)
  have hfirst : (t :: ts).filter (fun x => x.score = t.score) = t :: ts.filter fun x => x.score = t.score :=
    List.filter_cons_of_pos (by simp)
  rw [tablesByScore, filter_ranked, hfirst] at hinitial
  obtain ⟨x, hx, heq⟩ := List.mem_map.1 hkept
  have hne : ((pruneByScoreGap p (t :: ts)).filter fun x => x.score = t.score) ≠ [] :=
    List.ne_nil_of_mem (List.mem_filter.2 ⟨hx, by simpa using heq⟩)
  obtain ⟨first, others, hcons⟩ := List.exists_cons_of_ne_nil hne
  rw [hcons, List.cons_prefix_cons] at hinitial
  rw [hcons, List.head?_cons, hinitial.1]

variable (p candidates) in
/-- **What pruning keeps**, and when it is nothing. -/
theorem prune_spec : (∃ cut, LongestFit (fun kept => p.Keeps (kept.map fun t => t.score)) (tablesByScore candidates)
      (pruneByScoreGap p candidates) cut) ∧
    (pruneByScoreGap p candidates = [] ↔ candidates = []) ∧
    pruneByScoreGap p (pruneByScoreGap p candidates) = pruneByScoreGap p candidates :=
  ⟨longestFit_prune p candidates, prune_eq_nil, prune_prune⟩

end

/-! ## The scores of what is kept -/

section
variable {p : PruneParams K} {candidates candidates' : List (SearchedTable K)} {s : K}

/-- The scores of the candidates, from the top score down. -/
def rankedScores (candidates : List (SearchedTable K)) : List K := (tablesByScore candidates).map fun t => t.score

/-- The score is kept, if it is that of a candidate. -/
def PruneParams.Survives (p : PruneParams K) (candidates : List (SearchedTable K)) (s : K) : Prop :=
  p.Keeps ((rankedScores candidates).filter (s < ·) ++ [s])

variable (p candidates) in
theorem longestFit_scores : ∃ cut, LongestFit p.Keeps (rankedScores candidates)
    ((pruneByScoreGap p candidates).map fun t => t.score) cut := by
  obtain ⟨cut, h⟩ := longestFit_prune p candidates
  exact ⟨cut, h.map _⟩

omit [Field K] in
theorem rankedScores_of_perm (h : candidates.Perm candidates') : rankedScores candidates = rankedScores candidates' :=
  map_ranked_of_perm h

/-- The scores that are kept depend on the scores only. -/
theorem map_score_prune_of_perm (h : candidates.Perm candidates') :
    (pruneByScoreGap p candidates).map (fun t => t.score) =
      (pruneByScoreGap p candidates').map fun t => t.score := by
  obtain ⟨cut, hfit⟩ := longestFit_scores p candidates
  obtain ⟨cut', hfit'⟩ := longestFit_scores p candidates'
  rw [rankedScores_of_perm h] at hfit
  exact (hfit.unique hfit').1

variable (candidates) in
omit [Field K] in
theorem pairwise_rankedScores : (rankedScores candidates).Pairwise fun a b => b ≤ a :=
  List.pairwise_map.2 (pairwise_ranked _ candidates)

omit [Field K] in
/-- The scores above one of them, and itself, come first. -/
theorem above_append_initial {scores : List K} (h : scores.Pairwise fun a b => b ≤ a) (hs : s ∈ scores) :
    scores.filter (s < ·) ++ [s] <+: scores := by
  induction scores with
  | nil => exact absurd hs List.not_mem_nil
  | cons top scores ih =>
    rw [List.pairwise_cons] at h
    by_cases hlt : s < top
    · rw [List.filter_cons_of_pos (by simpa using hlt), List.cons_append, List.cons_prefix_cons]
      exact ⟨rfl, ih h.2 ((List.mem_cons.1 hs).resolve_left hlt.ne)⟩
    · have heq : s = top := (List.mem_cons.1 hs).elim id fun hs => le_antisymm (h.1 s hs) (not_lt.1 hlt)
      have hnil : (top :: scores).filter (s < ·) = [] := by
        refine List.filter_eq_nil_iff.2 fun k hk => ?_
        simpa using (List.mem_cons.1 hk).elim (fun hk => (hk.trans heq.symm).le) fun hk => heq ▸ h.1 k hk
      rw [hnil, List.nil_append, ← heq]
      exact ⟨scores, rfl⟩

/-- **A score is kept** iff it is kept together with those above it. -/
theorem mem_scores_prune_iff (hs : s ∈ candidates.map fun t => t.score) :
    s ∈ (pruneByScoreGap p candidates).map (fun t => t.score) ↔ p.Survives candidates s := by
  obtain ⟨cut, h⟩ := longestFit_scores p candidates
  have hmem : s ∈ rankedScores candidates := (((perm_tablesByScore candidates).map _).mem_iff).2 hs
  have hinitial := above_append_initial (pairwise_rankedScores candidates) hmem
  constructor
  · intro hkept
    obtain ⟨rest, hrest⟩ := h.initial
    have hpairwise := pairwise_rankedScores candidates
    rw [← hrest, List.pairwise_append] at hpairwise
    -- no score that is cut is above one that is kept
    have hcut : rest.filter (s < ·) = [] := by
      refine List.filter_eq_nil_iff.2 fun k hk => ?_
      simpa using hpairwise.2.2 s hkept k hk
    rw [PruneParams.Survives, ← hrest, List.filter_append, hcut, List.append_nil]
    exact PruneParams.Keeps.initial (above_append_initial hpairwise.1 hkept) h.fits
  · intro hsurvives
    have hle := h.longest _ hinitial hsurvives
    exact (List.prefix_of_prefix_length_le hinitial h.initial hle).subset (by simp)

variable [IsStrictOrderedRing K]

/-- In the place of the last score a greater one may stand. -/
theorem PruneParams.Keeps.raise {scores : List K} {r : K} (hne : scores ≠ []) (h : p.Keeps (scores ++ [s]))
    (hle : s ≤ r) : p.Keeps (scores ++ [r]) := by
  obtain ⟨top, rest, rfl⟩ := List.exists_cons_of_ne_nil hne
  obtain ⟨hlength, halone, hchain⟩ := h
  refine ⟨?_, fun htop => absurd (halone htop) (by simp), ?_⟩
  · simpa using hlength
  · have hsplit : ∀ k, (top :: (rest ++ [k])).IsChain (p.Follows top) ↔
        (top :: rest).IsChain (p.Follows top) ∧ p.Follows top ((top :: rest).getLast hne) k := by
      intro k
      rw [← List.cons_append, List.isChain_append]
      simp [List.getLast?_eq_some_getLast hne]
    obtain ⟨hrest, hcutoff, hstep⟩ := (hsplit s).1 hchain
    exact (hsplit r).2 ⟨hrest, hcutoff.trans hle, fun hpos => (sub_le_sub_left hle _).trans (hstep hpos)⟩

/-- What is weaker than all that was cut is cut as well. -/
theorem longestFit_of_weaker {kept rest rest' : List K} {cut : Bool}
    (h : LongestFit p.Keeps (kept ++ rest) kept cut) (hne : kept ≠ [])
    (hweaker : ∀ e ∈ rest', ∃ r ∈ rest.head?, e ≤ r) : ∃ cut', LongestFit p.Keeps (kept ++ rest') kept cut' := by
  cases rest' with
  | nil =>
    rw [List.append_nil]
    exact ⟨false, .of_fits h.fits⟩
  | cons e rest' =>
    obtain ⟨r, hr, hle⟩ := hweaker e List.mem_cons_self
    refine ⟨true, .of_not_fits (fun h hkeeps => hkeeps.initial h) h.fits fun hkeeps => ?_⟩
    obtain ⟨rest, rfl⟩ := List.head?_eq_some_iff.1 hr
    have hlength := h.longest (kept ++ [r]) ⟨rest, by simp⟩ (hkeeps.raise hne hle)
    rw [List.length_append, List.length_singleton] at hlength
    omega

omit [Field K] [IsStrictOrderedRing K] in
/-- The first of a descending list is the greatest. -/
theorem exists_head?_ge {rest : List (SearchedTable K)} (hsorted : rest.Pairwise fun a b => b.score ≤ a.score)
    {t : SearchedTable K} (ht : t ∈ rest) : ∃ r ∈ (rest.map fun t => t.score).head?, t.score ≤ r := by
  cases rest with
  | nil => exact absurd ht List.not_mem_nil
  | cons r rest =>
    refine ⟨r.score, rfl, ?_⟩
    exact (List.mem_cons.1 ht).elim (fun h => h ▸ le_rfl) ((List.pairwise_cons.1 hsorted).1 t)

section
variable (hpool : candidates.Nodup) (hnodup : candidates'.Nodup) (hsub : ∀ t ∈ candidates', t ∈ candidates)
  (hsup : ∀ t ∈ pruneByScoreGap p candidates, t ∈ candidates')
include hpool hnodup hsub hsup

omit [IsStrictOrderedRing K] in
/-- Some candidates of the pool, those that are kept of the whole pool among them, have the scores of those first, and
then scores of what is cut. -/
theorem exists_rankedScores_append {rest : List (SearchedTable K)}
    (hrest : pruneByScoreGap p candidates ++ rest = tablesByScore candidates) :
    ∃ beside : List (SearchedTable K), (∀ t ∈ beside, t ∈ rest) ∧ rankedScores candidates' =
      (pruneByScoreGap p candidates).map (fun t => t.score) ++ beside.map fun t => t.score := by
  set kept := pruneByScoreGap p candidates with hkept
  have hpairwise : (kept ++ rest).Pairwise fun a b => b.score ≤ a.score := hrest ▸ pairwise_ranked _ candidates
  rw [List.pairwise_append] at hpairwise
  refine ⟨tablesByScore (candidates'.filter (· ∉ kept)), ?_⟩
  have hmem : ∀ t ∈ tablesByScore (candidates'.filter (· ∉ kept)), t ∈ rest := by
    intro t ht
    obtain ⟨ht, hnot⟩ := List.mem_filter.1 ((perm_tablesByScore _).mem_iff.1 ht)
    have htables : t ∈ kept ++ rest := hrest ▸ (perm_tablesByScore candidates).mem_iff.2 (hsub t ht)
    exact (List.mem_append.1 htables).resolve_left (by simpa using hnot)
  have hperm : candidates'.Perm (kept ++ tablesByScore (candidates'.filter (· ∉ kept))) := by
    have hfilter : (candidates'.filter (· ∈ kept)).Perm kept := by
      refine (List.perm_ext_iff_of_nodup (hnodup.filter _) (nodup_prune hpool)).2 fun t => ?_
      rw [List.mem_filter, decide_eq_true_eq]
      exact and_iff_right_of_imp (hsup t)
    refine (List.filter_append_perm (· ∈ kept) candidates').symm.trans (hfilter.append ?_)
    simpa using (perm_tablesByScore _).symm
  refine ⟨hmem, ?_⟩
  have hsorted : (kept ++ tablesByScore (candidates'.filter (· ∉ kept))).Pairwise fun a b => b.score ≤ a.score :=
    List.pairwise_append.2 ⟨hpairwise.1, pairwise_ranked _ _, fun a ha b hb => hpairwise.2.2 a ha b (hmem b hb)⟩
  rw [rankedScores_of_perm hperm, rankedScores, tablesByScore, ranked_of_pairwise hsorted, List.map_append]

/-- **Weaker candidates.**  Of some candidates of the pool, those that are kept of the whole pool among them, the same
scores are kept. -/
theorem map_score_prune_of_subset :
    (pruneByScoreGap p candidates').map (fun t => t.score) = (pruneByScoreGap p candidates).map fun t => t.score := by
  by_cases hne : pruneByScoreGap p candidates = []
  · obtain rfl := prune_eq_nil.1 hne
    rw [List.eq_nil_iff_forall_not_mem.2 fun t ht => List.not_mem_nil (hsub t ht)]
  obtain ⟨cut, hfit⟩ := longestFit_prune p candidates
  obtain ⟨rest, hrest⟩ := hfit.initial
  obtain ⟨beside, hmem, hscores⟩ := exists_rankedScores_append hpool hnodup hsub hsup hrest
  have hpairwise : (pruneByScoreGap p candidates ++ rest).Pairwise fun a b => b.score ≤ a.score :=
    hrest ▸ pairwise_ranked _ candidates
  have hsorted := (List.pairwise_append.1 hpairwise).2.1
  have hweaker : ∀ e ∈ beside.map (fun t => t.score), ∃ r ∈ (rest.map fun t => t.score).head?, e ≤ r := by
    intro e he
    obtain ⟨t, ht, rfl⟩ := List.mem_map.1 he
    exact exists_head?_ge hsorted (hmem t ht)
  have hall := hfit.map fun t : SearchedTable K => t.score
  rw [← hrest, List.map_append] at hall
  obtain ⟨cut', hfit'⟩ := longestFit_of_weaker hall (by simpa using hne) hweaker
  obtain ⟨cut'', hfit''⟩ := longestFit_scores p candidates'
  rw [hscores] at hfit''
  exact (hfit''.unique hfit').1

end

end

end RoboMeta
