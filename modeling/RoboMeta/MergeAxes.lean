/-
  `_merge_table_candidates` (`services/neo4j_client/api.py`) against
  `_merge_candidates` (`services/decision_service.py`).

  The one keeps a dict of scores and a dict of tables under the lowered joined
  name, the other one dict under `table_lookup_key`, which lowers the schema and
  the name apart.

  Without tables of the HyDE axis the one adds up the scores of the question as
  they are, the other one weights them.  In rounded arithmetic this is one factor
  only where it can be taken out of the sums.

  * `axisDicts_eq`: the two dicts are the columns of one;
  * `mergeTableCandidates_eq`: what is merged under the joined names;
  * `EvenlyWeighted`: the weight of the question can be taken out of the sums;
  * `mergesAgree_iff`: two lists of tables are merged alike, however they score, iff
    both keys tell the same tables apart.
-/
import RoboMeta.MergedCandidates

namespace RoboMeta

/-! ## The code -/

/-- `scores` and `by_fqn`. -/
structure AxisDicts (K : Type*) where
  scores : Dict String K
  byFqn : Dict String (SearchedTable K)

section
variable {K : Type*} (U : Unicode)

/-- `t.fqn.lower()`. -/
def SearchedTable.loweredFqn (t : SearchedTable K) : String := U.lower (fqnOf t.schema t.name)

variable [Zero K] [Add K] [Mul K]

/-- The body of both loops. -/
def addAxisRow (weight : K) (dicts : AxisDicts K) (t : SearchedTable K) : AxisDicts K where
  scores := dicts.scores.set (t.loweredFqn U) ((dicts.scores.get? (t.loweredFqn U)).getD 0 + t.score * weight)
  byFqn := if (dicts.byFqn.get? (t.loweredFqn U)).isSome then dicts.byFqn else dicts.byFqn.set (t.loweredFqn U) t

variable (weights : MergeWeights K) (hydeTables questionTables : List (SearchedTable K))

def axisDicts : AxisDicts K :=
  questionTables.foldl (addAxisRow U weights.questionWeight)
    (hydeTables.foldl (addAxisRow U weights.hydeWeight) ⟨[], []⟩)

/-- What is handed on of a table: neither its datasource nor its subject area. -/
def SearchedTable.merged (t : SearchedTable K) (score : K) : SearchedTable K where
  schema := t.schema
  name := t.name
  description := t.description
  analyzedDescription := t.analyzedDescription
  score := score

/-- Both dicts have the same keys, so `by_fqn[fqn]` is there. -/
def mergeTableCandidates [LinearOrder K] (topK : ℤ) : List (SearchedTable K) :=
  let dicts := axisDicts U weights hydeTables questionTables
  (sliceTo (ranked (fun item => item.2) dicts.scores) topK).filterMap fun item =>
    (dicts.byFqn.get? item.1).map fun t => t.merged item.2

end

/-! ## Columns of a dict -/

section
variable {κ ν μ : Type*} [DecidableEq κ]

/-- The dict with `f` of every value. -/
def Dict.mapValues (f : ν → μ) (d : Dict κ ν) : Dict κ μ := d.map fun item => (item.1, f item.2)

variable (f : ν → μ) (d : Dict κ ν) (k : κ)

theorem Dict.get?_mapValues : (d.mapValues f).get? k = (d.get? k).map f := by
  induction d with
  | nil => rfl
  | cons item d ih =>
    rw [Dict.mapValues, List.map_cons, Dict.get?, Dict.get?, List.lookup_cons, List.lookup_cons]
    cases k == item.1 with
    | true => rfl
    | false => exact ih

theorem Dict.set_mapValues (v : ν) : (d.mapValues f).set k (f v) = (d.set k v).mapValues f := by
  induction d with
  | nil => rfl
  | cons item d ih =>
    rw [Dict.mapValues, List.map_cons, Dict.set, Dict.set, ← Dict.mapValues, ih]
    split_ifs
    · rfl
    · rfl

theorem Dict.set_of_get? {v : ν} (h : d.get? k = some v) : d.set k v = d := by
  induction d with
  | nil => cases h
  | cons item d ih =>
    rw [Dict.get?, List.lookup_cons] at h
    rw [Dict.set]
    by_cases hk : item.1 = k
    · have hv : item.2 = v := by simpa [hk] using h
      rw [if_pos hk, ← hk, ← hv]
    · have hne : (k == item.1) = false := by simpa using Ne.symm hk
      rw [hne] at h
      rw [if_neg hk, ih h]

end

section
variable {K : Type*} [AddZeroClass K] [Mul K] (U : Unicode)

/-- The tables and the scores of a dict of both. -/
def axisColumns (bucket : Dict String (SearchedTable K × K)) : AxisDicts K :=
  ⟨bucket.mapValues Prod.snd, bucket.mapValues Prod.fst⟩

theorem addAxisRow_columns (weight : K) (bucket : Dict String (SearchedTable K × K)) (t : SearchedTable K) :
    addAxisRow U weight (axisColumns bucket) t =
      axisColumns (addBy (SearchedTable.loweredFqn U) bucket (weight, t)) := by
  unfold addAxisRow axisColumns addBy
  dsimp only
  rw [Dict.get?_mapValues, Dict.get?_mapValues]
  cases hget : bucket.get? (t.loweredFqn U) with
  | none =>
    dsimp only [Option.map_none, Option.getD_none, Option.isSome_none]
    rw [zero_add, ← Dict.set_mapValues, ← Dict.set_mapValues]
    simp
  | some entry =>
    obtain ⟨obj, score⟩ := entry
    have hobj : (bucket.mapValues Prod.fst).get? (t.loweredFqn U) = some obj := by rw [Dict.get?_mapValues, hget]; rfl
    dsimp only [Option.map_some, Option.getD_some, Option.isSome_some]
    rw [← Dict.set_mapValues, ← Dict.set_mapValues, Dict.set_of_get? _ _ hobj, if_pos rfl]

variable (weights : MergeWeights K) (hydeTables questionTables : List (SearchedTable K))

/-- The rows of both searches with the weights of their searches. -/
def axisRows : List (K × SearchedTable K) :=
  (hydeTables.map fun t => (weights.hydeWeight, t)) ++ questionTables.map fun t => (weights.questionWeight, t)

/-- **The two dicts** are the columns of the dict of both under the joined names. -/
theorem axisDicts_eq : axisDicts U weights hydeTables questionTables =
    axisColumns (bucketBy (SearchedTable.loweredFqn U) (axisRows weights hydeTables questionTables)) := by
  have hrows : ∀ (weight : K) (rows : List (SearchedTable K)) (bucket : Dict String (SearchedTable K × K)),
      rows.foldl (addAxisRow U weight) (axisColumns bucket) =
        axisColumns ((rows.map fun t => (weight, t)).foldl (addBy (SearchedTable.loweredFqn U)) bucket) := by
    intro weight rows
    induction rows with
    | nil => intro bucket; rfl
    | cons t rows ih =>
      intro bucket
      rw [List.foldl_cons, List.map_cons, List.foldl_cons, addAxisRow_columns, ih]
  have hempty : (⟨[], []⟩ : AxisDicts K) = axisColumns [] := rfl
  rw [axisDicts, hempty, hrows, hrows, axisRows, ← foldl_addBy, List.foldl_append]

theorem mem_of_mem_sliceTo {α : Type*} {x : α} {xs : List α} {k : ℤ} (h : x ∈ sliceTo xs k) : x ∈ xs := by
  unfold sliceTo at h
  split_ifs at h
  · exact List.mem_of_mem_take h
  · exact List.mem_of_mem_take h

variable [LinearOrder K] (topK : ℤ)

/-- What is merged under the joined names. -/
theorem mergeTableCandidates_eq : mergeTableCandidates U weights hydeTables questionTables topK =
    (sliceTo (tablesByScore (entriesBy (SearchedTable.loweredFqn U) (axisRows weights hydeTables questionTables)))
      topK).map fun t => t.merged t.score := by
  have hnodup := nodup_map_firsts (fun row : K × SearchedTable K => row.2.loweredFqn U)
    (axisRows weights hydeTables questionTables)
  unfold mergeTableCandidates tablesByScore entriesBy
  dsimp only
  rw [axisDicts_eq, axisColumns, Dict.mapValues, bucketBy, List.map_map, ranked_map, ranked_map, sliceTo_map,
    sliceTo_map, List.map_map, List.filterMap_map, ← bucketBy]
  refine List.filterMap_eq_map_iff_forall_eq_some.2 fun row hrow => ?_
  have hmem := (perm_ranked _ _).mem_iff.1 (mem_of_mem_sliceTo hrow)
  dsimp only [Function.comp_def]
  rw [Dict.get?_mapValues, bucketBy, Dict.get?_map_of_mem hnodup hmem]
  rfl

end

/-! ## Agreement -/

section
variable {K : Type*}

/-- One table in two results, in the second one with `c` times its score. -/
structure MergedAlike [Mul K] (c : K) (s t : SearchedTable K) : Prop where
  schema : t.schema = s.schema
  name : t.name = s.name
  datasource : t.datasource = s.datasource
  description : t.description = s.description
  analyzedDescription : t.analyzedDescription = s.analyzedDescription
  score : t.score = c * s.score

/-- The same tables in the same order. -/
def RankAlike [Mul K] (c : K) (ss ts : List (SearchedTable K)) : Prop := List.Forall₂ (MergedAlike c) ss ts

variable (U : Unicode)

/-- Both keys tell the same tables apart. -/
def KeysAgree (tables : List (SearchedTable K)) : Prop :=
  ∀ a ∈ tables, ∀ b ∈ tables, a.identityKey U = b.identityKey U ↔ a.loweredFqn U = b.loweredFqn U

/-- The scores of the rows of a table. -/
def rowScores (tables : List (SearchedTable K)) (t : SearchedTable K) : List K :=
  (tables.filter fun other => other.identityKey U = t.identityKey U).map fun other => other.score

variable [Zero K] [One K] [Add K] [Mul K] [LinearOrder K]

/-- The factor `c` can be taken out of the weighted sums of the tables, and keeps their order. -/
structure WeightsOut (weight c : K) (tables : List (SearchedTable K)) : Prop where
  pos : 0 < c
  out : ∀ t ∈ tables, runningSum ((rowScores U tables t).map (· * weight)) = c * runningSum (rowScores U tables t)
  apart : (firsts (SearchedTable.identityKey U) tables).Pairwise fun a b =>
    runningSum (rowScores U tables a) < runningSum (rowScores U tables b) →
      c * runningSum (rowScores U tables a) < c * runningSum (rowScores U tables b)

variable (weights : MergeWeights K) (hydeTables questionTables : List (SearchedTable K))

/-- Without tables of the HyDE axis, the weight of the question makes one factor. -/
def EvenlyWeighted : Prop := hydeTables = [] → ∃ c, WeightsOut U weights.questionWeight c questionTables

/-- Equal scores, or scores that differ by one factor if there are no tables of the HyDE axis. -/
def MergesAgree (topK : ℤ) : Prop :=
  let ss := mergeCandidates U weights hydeTables questionTables topK
  let ts := mergeTableCandidates U weights hydeTables questionTables topK
  (hydeTables ≠ [] → RankAlike 1 ss ts) ∧ (hydeTables = [] → ∃ c, 0 < c ∧ RankAlike c ss ts)

end

/-! ### Keys that agree -/

section
variable {K : Type*} [AddZeroClass K] [MulOneClass K] {κ : Type*} [DecidableEq κ] (key : SearchedTable K → κ)
  (weights : MergeWeights K) (hydeTables questionTables : List (SearchedTable K))

theorem exists_row_of_mem_entriesBy {rows : List (K × SearchedTable K)} {t : SearchedTable K}
    (h : t ∈ entriesBy key rows) : ∃ row ∈ rows, t = { row.2 with score := keyTotal key rows (key row.2) } := by
  obtain ⟨row, hrow, rfl⟩ := List.mem_map.1 h
  exact ⟨row, mem_of_mem_firsts hrow, rfl⟩

omit [AddZeroClass K] in
theorem axisRows_of_ne_nil (h : hydeTables ≠ []) :
    axisRows weights hydeTables questionTables = weightedRows weights hydeTables questionTables := by
  rw [axisRows, weightedRows, questionFactor, if_neg h]

/-- What the rows of one weight are merged to. -/
theorem entriesBy_weighted (weight : K) (tables : List (SearchedTable K)) :
    entriesBy key (tables.map fun t => (weight, t)) = (firsts key tables).map fun t =>
      { t with score := runningSum (((tables.filter fun other => key other = key t).map fun other => other.score).map
        (· * weight)) } := by
  unfold entriesBy keyTotal
  rw [firsts_map, List.map_map]
  refine List.map_congr_left fun t _ => ?_
  rw [Function.comp_apply, List.filter_map, List.map_map, List.map_map]
  rfl

omit [AddZeroClass K] in
theorem mem_tables_of_mem_weightedRows {row : K × SearchedTable K}
    (h : row ∈ weightedRows weights hydeTables questionTables) : row.2 ∈ hydeTables ++ questionTables := by
  rw [← map_snd_weightedRows weights]
  exact List.mem_map_of_mem h

end

section
variable {F : Type*} [AddZeroClass F] [MulOneClass F] [LinearOrder F] (U : Unicode) (weights : MergeWeights F)
  {hydeTables questionTables : List (SearchedTable F)} (topK : ℤ)

omit [LinearOrder F] in
theorem entriesBy_loweredFqn (hkeys : KeysAgree U (hydeTables ++ questionTables)) :
    entriesBy (SearchedTable.loweredFqn U) (weightedRows weights hydeTables questionTables) =
      entriesBy (SearchedTable.identityKey U) (weightedRows weights hydeTables questionTables) := by
  have hmem : ∀ row ∈ weightedRows weights hydeTables questionTables, row.2 ∈ hydeTables ++ questionTables :=
    fun row hrow => mem_tables_of_mem_weightedRows weights hydeTables questionTables hrow
  exact entriesBy_congr fun a ha b hb => (hkeys a.2 (hmem a ha) b.2 (hmem b hb)).symm

/-- With tables of the HyDE axis both merges have the same scores, in any arithmetic. -/
theorem rankAlike_of_ne_nil (hne : hydeTables ≠ []) (hkeys : KeysAgree U (hydeTables ++ questionTables))
    (hsource : ∀ t ∈ hydeTables ++ questionTables, t.datasource = "") :
    RankAlike 1 (mergeCandidates U weights hydeTables questionTables topK)
      (mergeTableCandidates U weights hydeTables questionTables topK) := by
  rw [mergeCandidates_eq, mergeTableCandidates_eq, axisRows_of_ne_nil _ _ _ hne, entriesBy_loweredFqn U weights hkeys,
    RankAlike, List.forall₂_map_right_iff, List.forall₂_same]
  intro t ht
  obtain ⟨row, hrow, rfl⟩ := exists_row_of_mem_entriesBy _ ((perm_ranked _ _).mem_iff.1 (mem_of_mem_sliceTo ht))
  have htable := mem_tables_of_mem_weightedRows weights hydeTables questionTables hrow
  exact ⟨rfl, rfl, (hsource _ htable).symm, rfl, rfl, (one_mul _).symm⟩

/-- The first rows of the tables of the question, by falling score. -/
def rankedFirsts (weight : F) (tables : List (SearchedTable F)) : List (SearchedTable F) :=
  ranked (fun t => runningSum ((rowScores U tables t).map (· * weight))) (firsts (SearchedTable.identityKey U) tables)

theorem tablesByScore_weighted (weight : F) (tables : List (SearchedTable F)) :
    tablesByScore (entriesBy (SearchedTable.identityKey U) (tables.map fun t => (weight, t))) =
      (rankedFirsts U weight tables).map fun t =>
        { t with score := runningSum ((rowScores U tables t).map (· * weight)) } := by
  rw [entriesBy_weighted, tablesByScore, ranked_map]
  rfl

theorem mergeCandidates_of_nil : mergeCandidates U weights [] questionTables topK =
    (sliceTo (rankedFirsts U 1 questionTables) topK).map fun t =>
      { t with score := runningSum ((rowScores U questionTables t).map (· * 1)) } := by
  rw [mergeCandidates_eq, weightedRows, questionFactor, if_pos rfl, List.map_nil, List.nil_append,
    tablesByScore_weighted, sliceTo_map]

theorem mergeTableCandidates_of_nil (hkeys : KeysAgree U questionTables) :
    mergeTableCandidates U weights [] questionTables topK =
      (sliceTo (rankedFirsts U weights.questionWeight questionTables) topK).map fun t =>
        t.merged (runningSum ((rowScores U questionTables t).map (· * weights.questionWeight))) := by
  have hentries : entriesBy (SearchedTable.loweredFqn U) (questionTables.map fun t => (weights.questionWeight, t)) =
      entriesBy (SearchedTable.identityKey U) (questionTables.map fun t => (weights.questionWeight, t)) := by
    refine entriesBy_congr fun a ha b hb => ?_
    obtain ⟨t, ht, rfl⟩ := List.mem_map.1 ha
    obtain ⟨t', ht', rfl⟩ := List.mem_map.1 hb
    exact (hkeys t ht t' ht').symm
  rw [mergeTableCandidates_eq, axisRows, List.map_nil, List.nil_append, hentries, tablesByScore_weighted, sliceTo_map,
    List.map_map]
  rfl

omit [AddZeroClass F] [LinearOrder F] in
theorem map_mul_one (scores : List F) : scores.map (· * 1) = scores := by simp

variable [RoundedArithmetic F]

/-- A factor that can be taken out leaves the tables in their order. -/
theorem WeightsOut.rankedFirsts_eq {weight c : F} (h : WeightsOut U weight c questionTables) :
    rankedFirsts U 1 questionTables = rankedFirsts U weight questionTables := by
  unfold rankedFirsts
  simp only [map_mul_one]
  refine ranked_congr_of_pairwise (h.apart.imp_of_mem fun {a b} ha hb hlt => ?_)
  rw [h.out a (mem_of_mem_firsts ha), h.out b (mem_of_mem_firsts hb)]
  refine ⟨RoundedArithmetic.mul_le_mul h.pos.le, fun hle => ?_⟩
  exact not_lt.1 fun hab => not_lt.2 hle (hlt hab)

theorem rankAlike_of_weightsOut {c : F} (h : WeightsOut U weights.questionWeight c questionTables)
    (hkeys : KeysAgree U questionTables) (hsource : ∀ t ∈ questionTables, t.datasource = "") :
    RankAlike c (mergeCandidates U weights [] questionTables topK)
      (mergeTableCandidates U weights [] questionTables topK) := by
  rw [mergeCandidates_of_nil, mergeTableCandidates_of_nil U weights topK hkeys, ← h.rankedFirsts_eq U, RankAlike,
    List.forall₂_map_left_iff, List.forall₂_map_right_iff, List.forall₂_same]
  intro t ht
  have htable : t ∈ questionTables :=
    mem_of_mem_firsts ((perm_ranked _ _).mem_iff.1 (mem_of_mem_sliceTo ht))
  refine ⟨rfl, rfl, (hsource t htable).symm, rfl, rfl, ?_⟩
  rw [map_mul_one]
  exact h.out t htable

omit [RoundedArithmetic F] in
/-- Where the merges agree without a cut, their factor can be taken out of the sums. -/
theorem weightsOut_of_rankAlike {c : F} (hpos : 0 < c) (hkeys : KeysAgree U questionTables)
    (hsource : ∀ t ∈ questionTables, t.datasource = "")
    (h : RankAlike c (mergeCandidates U weights [] questionTables (firsts (SearchedTable.identityKey U)
      questionTables).length) (mergeTableCandidates U weights [] questionTables (firsts (SearchedTable.identityKey U)
        questionTables).length)) :
    WeightsOut U weights.questionWeight c questionTables := by
  set tables := firsts (SearchedTable.identityKey U) questionTables
  have hnodup : tables.Nodup := (nodup_map_firsts (SearchedTable.identityKey U) questionTables).of_map
  have hall : ∀ weight : F, sliceTo (rankedFirsts U weight questionTables) tables.length =
      rankedFirsts U weight questionTables := fun weight => by
    have hlength : (rankedFirsts U weight questionTables).length = tables.length := (perm_ranked _ tables).length_eq
    rw [← hlength, sliceTo_length]
  rw [mergeCandidates_of_nil, mergeTableCandidates_of_nil U weights _ hkeys, hall, hall, RankAlike,
    List.forall₂_map_left_iff, List.forall₂_map_right_iff] at h
  have hmem : ∀ weight : F, ∀ t ∈ rankedFirsts U weight questionTables, t ∈ tables := fun weight t ht =>
    (perm_ranked _ tables).mem_iff.1 ht
  -- tables of one schema and name are one first row
  have hsame : List.Forall₂ (fun s t => s = t ∧ runningSum ((rowScores U questionTables t).map
      (· * weights.questionWeight)) = c * runningSum (rowScores U questionTables s))
        (rankedFirsts U 1 questionTables) (rankedFirsts U weights.questionWeight questionTables) := by
    obtain ⟨hlength, h⟩ := List.forall₂_iff_zip.1 h
    refine List.forall₂_iff_zip.2 ⟨hlength, fun {s t} hst => ?_⟩
    have halike := h hst
    obtain ⟨hs, ht⟩ := List.of_mem_zip hst
    have hs := hmem 1 s hs
    have ht := hmem _ t ht
    have hschema : t.schema = s.schema := halike.schema
    have hname : t.name = s.name := halike.name
    have hkey : s.identityKey U = t.identityKey U := by
      rw [SearchedTable.identityKey, SearchedTable.identityKey, hschema, hname, hsource s (mem_of_mem_firsts hs),
        hsource t (mem_of_mem_firsts ht)]
    have hscore := halike.score
    dsimp only [SearchedTable.merged] at hscore
    rw [map_mul_one] at hscore
    exact ⟨List.inj_on_of_nodup_map (nodup_map_firsts _ _) hs ht hkey, hscore⟩
  have hranked : rankedFirsts U 1 questionTables = rankedFirsts U weights.questionWeight questionTables :=
    List.forall₂_eq_eq_eq ▸ hsame.imp fun _ _ h => h.1
  have hout : ∀ t ∈ tables, runningSum ((rowScores U questionTables t).map (· * weights.questionWeight)) =
      c * runningSum (rowScores U questionTables t) := by
    rw [← hranked, List.forall₂_same] at hsame
    exact fun t ht => (hsame t ((perm_ranked _ tables).mem_iff.2 ht)).2
  refine ⟨hpos, fun t ht => ?_, ?_⟩
  · obtain ⟨first, hfirst, hkey⟩ := exists_mem_firsts (SearchedTable.identityKey U) ht
    have hscores : rowScores U questionTables t = rowScores U questionTables first := by
      rw [rowScores, rowScores, hkey]
    rw [hscores, hout first hfirst]
  · have hpairwise := pairwise_of_ranked_eq hnodup hranked
    refine hpairwise.imp_of_mem fun {a b} ha hb hiff hlt => ?_
    rw [hout a ha, hout b hb, map_mul_one, map_mul_one] at hiff
    exact not_le.1 fun hle => not_le.2 hlt (hiff.2 hle)

end

/-! ### Any scores -/

/-- The tables with other scores. -/
def scored {F : Type*} (score : SearchedTable F → F) (tables : List (SearchedTable F)) : List (SearchedTable F) :=
  tables.map fun t => { t with score := score t }

/-- Both searches with the weight 1. -/
def evenWeights (F : Type*) [One F] : MergeWeights F := ⟨1, 1⟩

theorem scored_append {F : Type*} (score : SearchedTable F → F) (ss ts : List (SearchedTable F)) :
    scored score ss ++ scored score ts = scored score (ss ++ ts) := List.map_append.symm

section
variable {F : Type*} [AddZeroClass F] [MulOneClass F] [LinearOrder F] {κ : Type*} [DecidableEq κ]
  {key : SearchedTable F → κ} {score : SearchedTable F → F} {tables : List (SearchedTable F)}

/-- The scores under a key, added up. -/
def scoreTotal (key : SearchedTable F → κ) (score : SearchedTable F → F) (tables : List (SearchedTable F)) (k : κ) :
    F :=
  runningSum ((tables.filter fun t => key t = k).map score)

omit [LinearOrder F] in
/-- The tables of searches that all have the weight 1. -/
theorem entriesBy_scored (hkey : ∀ (t : SearchedTable F) (s : F), key { t with score := s } = key t) :
    entriesBy key ((scored score tables).map fun t => (1, t)) =
      (firsts key tables).map fun t => { t with score := scoreTotal key score tables (key t) } := by
  have htotal : ∀ k, keyTotal key ((scored score tables).map fun t => (1, t)) k = scoreTotal key score tables k := by
    intro k
    unfold keyTotal scored scoreTotal
    rw [List.map_map, List.filter_map, List.map_map]
    simp [Function.comp_def, hkey]
  unfold entriesBy
  simp only [htotal]
  rw [scored, List.map_map, firsts_map, List.map_map]
  simp only [Function.comp_def, hkey]

omit [MulOneClass F] [LinearOrder F] in
theorem exists_of_scoreTotal_ne_zero {k : κ} (h : scoreTotal key score tables k ≠ 0) :
    ∃ t ∈ tables, key t = k ∧ score t ≠ 0 := by
  by_contra hall
  refine h (runningSum_eq_zero ?_)
  rw [List.forall_mem_map]
  intro t ht
  by_contra hne
  obtain ⟨htables, hk⟩ := List.mem_filter.1 ht
  exact hall ⟨t, htables, of_decide_eq_true hk, hne⟩

variable [RoundedArithmetic F]

theorem scoreTotal_pos (hscore : ∀ t, 0 ≤ score t) {a : SearchedTable F} (ha : a ∈ tables) (hpos : 0 < score a) :
    0 < scoreTotal key score tables (key a) := by
  have hmem : score a ∈ (tables.filter fun t => key t = key a).map score :=
    List.mem_map_of_mem (List.mem_filter.2 ⟨ha, decide_eq_true rfl⟩)
  refine hpos.trans_le (le_runningSum ?_ hmem)
  rw [List.forall_mem_map]
  exact fun t _ => hscore t

variable (key) in
/-- If only tables of one key score, the first one of that key is the top. -/
theorem top_entry (hkey : ∀ (t : SearchedTable F) (s : F), key { t with score := s } = key t)
    (hscore : ∀ t, 0 ≤ score t) {a : SearchedTable F} (ha : a ∈ tables) (hpos : 0 < score a)
    (honly : ∀ t ∈ tables, score t ≠ 0 → key t = key a) :
    ∃ t ∈ firsts key tables, key t = key a ∧ ∃ s,
      sliceTo (tablesByScore (entriesBy key ((scored score tables).map fun t => (1, t)))) 1 =
        [{ t with score := s }] := by
  rw [entriesBy_scored hkey]
  obtain ⟨first, hfirst, hfirstKey⟩ := exists_mem_firsts key ha
  cases hranked : tablesByScore ((firsts key tables).map fun t =>
      { t with score := scoreTotal key score tables (key t) }) with
  | nil =>
    rw [tablesByScore, ranked_eq_nil, List.map_eq_nil_iff] at hranked
    rw [hranked] at hfirst
    cases hfirst
  | cons top rest =>
    obtain ⟨htop, hmax⟩ := le_of_ranked_eq_cons hranked
    obtain ⟨t, ht, rfl⟩ := List.mem_map.1 htop
    have hle : scoreTotal key score tables (key first) ≤ scoreTotal key score tables (key t) :=
      hmax _ (List.mem_map_of_mem hfirst)
    rw [hfirstKey] at hle
    obtain ⟨u, hu, hut, hscoreU⟩ := exists_of_scoreTotal_ne_zero ((scoreTotal_pos hscore ha hpos).trans_le hle).ne'
    exact ⟨t, ht, hut.symm.trans (honly u hu hscoreU), _, rfl⟩

end

section
variable {F : Type*} [AddZeroClass F] [MulOneClass F] [LinearOrder F] (U : Unicode)
  (hydeTables questionTables : List (SearchedTable F)) {score : SearchedTable F → F}

/-- Where the merges agree, the tops of both keys are one table. -/
theorem tops_alike {x y : SearchedTable F}
    (hagree : MergesAgree U (evenWeights F) (scored score hydeTables) (scored score questionTables) 1)
    (hx : sliceTo (tablesByScore (entriesBy (SearchedTable.identityKey U)
      ((scored score (hydeTables ++ questionTables)).map fun t => (1, t)))) 1 = [x])
    (hy : sliceTo (tablesByScore (entriesBy (SearchedTable.loweredFqn U)
      ((scored score (hydeTables ++ questionTables)).map fun t => (1, t)))) 1 = [y]) :
    ∃ c, MergedAlike c x (y.merged y.score) := by
  have hrows : weightedRows (evenWeights F) (scored score hydeTables) (scored score questionTables) =
      (scored score (hydeTables ++ questionTables)).map fun t => (1, t) := by
    rw [← scored_append, weightedRows, List.map_append]
    simp [evenWeights, questionFactor]
  have hrows' : axisRows (evenWeights F) (scored score hydeTables) (scored score questionTables) =
      (scored score (hydeTables ++ questionTables)).map fun t => (1, t) := by
    rw [← scored_append, axisRows, List.map_append]
    rfl
  have hrank : ∃ c, RankAlike c
      (mergeCandidates U (evenWeights F) (scored score hydeTables) (scored score questionTables) 1)
      (mergeTableCandidates U (evenWeights F) (scored score hydeTables) (scored score questionTables) 1) := by
    by_cases hnil : scored score hydeTables = []
    · obtain ⟨c, -, hrank⟩ := hagree.2 hnil
      exact ⟨c, hrank⟩
    · exact ⟨1, hagree.1 hnil⟩
  obtain ⟨c, hrank⟩ := hrank
  rw [mergeCandidates_eq, mergeTableCandidates_eq, hrows, hrows', hx, hy] at hrank
  exact ⟨c, (List.forall₂_cons.1 hrank).1⟩

variable [RoundedArithmetic F]

/-- The weight 1 is a factor of the sums. -/
theorem evenlyWeighted_one (hyde question : List (SearchedTable F)) :
    EvenlyWeighted U (evenWeights F) hyde question := fun _ =>
  ⟨1, RoundedArithmetic.zero_lt_one, fun t _ => by rw [evenWeights, map_mul_one, one_mul],
    List.pairwise_of_forall fun a b hab => by rwa [one_mul, one_mul]⟩

/-- Where only tables with both keys of `a` score, the merges agree only if one table has both keys. -/
theorem common_table (hsource : ∀ t ∈ hydeTables ++ questionTables, t.datasource = "")
    {a : SearchedTable F} (ha : a ∈ hydeTables ++ questionTables)
    (hagree : ∀ score, MergesAgree U (evenWeights F) (scored score hydeTables) (scored score questionTables) 1) :
    (∃ t ∈ firsts (SearchedTable.identityKey U) (hydeTables ++ questionTables),
        t.identityKey U = a.identityKey U ∧ t.loweredFqn U = a.loweredFqn U) ∧
      ∃ t ∈ firsts (SearchedTable.loweredFqn U) (hydeTables ++ questionTables),
        t.identityKey U = a.identityKey U ∧ t.loweredFqn U = a.loweredFqn U := by
  let score (t : SearchedTable F) : F :=
    if t.identityKey U = a.identityKey U ∧ t.loweredFqn U = a.loweredFqn U then 1 else 0
  have hnonneg : ∀ t, 0 ≤ score t := by
    intro t
    dsimp only [score]
    split_ifs
    · exact RoundedArithmetic.zero_lt_one.le
    · exact le_rfl
  have hpos : 0 < score a := by
    dsimp only [score]
    rw [if_pos ⟨rfl, rfl⟩]
    exact RoundedArithmetic.zero_lt_one
  have hboth : ∀ t, score t ≠ 0 → t.identityKey U = a.identityKey U ∧ t.loweredFqn U = a.loweredFqn U := by
    intro t hne
    by_contra hnot
    exact hne (if_neg hnot)
  obtain ⟨t, ht, htKey, s, htop⟩ := top_entry (SearchedTable.identityKey U) (fun _ _ => rfl) hnonneg ha hpos
    fun t _ hne => (hboth t hne).1
  obtain ⟨t', ht', htKey', s', htop'⟩ := top_entry (SearchedTable.loweredFqn U) (fun _ _ => rfl) hnonneg ha hpos
    fun t _ hne => (hboth t hne).2
  obtain ⟨c, halike⟩ := tops_alike U hydeTables questionTables (hagree score) htop htop'
  have hschema : t'.schema = t.schema := halike.schema
  have hname : t'.name = t.name := halike.name
  have hdatasource : t'.datasource = t.datasource := by
    rw [hsource t (mem_of_mem_firsts ht), hsource t' (mem_of_mem_firsts ht')]
  have hlowered : t'.loweredFqn U = t.loweredFqn U := by
    rw [SearchedTable.loweredFqn, SearchedTable.loweredFqn, hschema, hname]
  have hidentity : t'.identityKey U = t.identityKey U := by
    rw [SearchedTable.identityKey, SearchedTable.identityKey, hschema, hname, hdatasource]
  exact ⟨⟨t, ht, htKey, hlowered.symm.trans htKey'⟩, ⟨t', ht', hidentity.trans htKey, htKey'⟩⟩

/-- Where the merges agree however the tables score, both keys tell the same tables apart. -/
theorem keysAgree_of_mergesAgree (hsource : ∀ t ∈ hydeTables ++ questionTables, t.datasource = "")
    (hagree : ∀ score, MergesAgree U (evenWeights F) (scored score hydeTables) (scored score questionTables) 1) :
    KeysAgree U (hydeTables ++ questionTables) := by
  intro a ha b hb
  obtain ⟨⟨t, ht, hta, hta'⟩, ⟨u, hu, hua, hua'⟩⟩ := common_table U hydeTables questionTables hsource ha hagree
  obtain ⟨⟨t', ht', htb, htb'⟩, ⟨u', hu', hub, hub'⟩⟩ := common_table U hydeTables questionTables hsource hb hagree
  constructor
  · intro hab
    have heq : t = t' := List.inj_on_of_nodup_map (nodup_map_firsts _ _) ht ht' (by rw [hta, hab, htb])
    rw [← hta', heq, htb']
  · intro hab
    have heq : u = u' := List.inj_on_of_nodup_map (nodup_map_firsts _ _) hu hu' (by rw [hua', hab, hub'])
    rw [← hua, heq, hub]

variable {hydeTables questionTables}

/-- **Where the keys agree**, so do the merges, unless the weight of the question spoils the sums. -/
theorem forall_mergesAgree_iff (weights : MergeWeights F)
    (hsource : ∀ t ∈ hydeTables ++ questionTables, t.datasource = "")
    (hkeys : KeysAgree U (hydeTables ++ questionTables)) :
    (∀ topK, MergesAgree U weights hydeTables questionTables topK) ↔
      EvenlyWeighted U weights hydeTables questionTables := by
  constructor
  · rintro h rfl
    obtain ⟨c, hpos, hrank⟩ := (h _).2 rfl
    exact ⟨c, weightsOut_of_rankAlike U weights hpos hkeys hsource hrank⟩
  · intro heven topK
    refine ⟨fun hne => rankAlike_of_ne_nil U weights topK hne hkeys hsource, ?_⟩
    rintro rfl
    obtain ⟨c, hout⟩ := heven rfl
    exact ⟨c, hout.pos, rankAlike_of_weightsOut U weights topK hout hkeys hsource⟩

end

/-- Exact sums can be weighted as a whole. -/
theorem evenlyWeighted_of_exact {K : Type*} [Field K] [LinearOrder K] [IsStrictOrderedRing K] (U : Unicode)
    {weights : MergeWeights K} (hpos : 0 < weights.questionWeight)
    (hydeTables questionTables : List (SearchedTable K)) :
    EvenlyWeighted U weights hydeTables questionTables := fun _ =>
  ⟨weights.questionWeight, hpos, fun t _ => by
    rw [runningSum_eq_sum, runningSum_eq_sum, List.sum_map_mul_right, List.map_id', mul_comm],
    List.pairwise_of_forall fun a b hab => mul_lt_mul_of_pos_left hab hpos⟩

/-! ### Names that are lowered alike, apart and joined -/

section
variable {K : Type*}

/-- No datasource, and a name without blanks around it. -/
structure SearchedTable.Bare (t : SearchedTable K) : Prop where
  datasource : t.datasource = ""
  name_ne : t.name ≠ ""
  schema_strip : stripString t.schema = t.schema
  name_strip : stripString t.name = t.name

/-- ASCII letters in the schema and the name. -/
def SearchedTable.Ascii (t : SearchedTable K) : Prop :=
  (∀ c ∈ t.schema.toList, c.toNat < 128) ∧ ∀ c ∈ t.name.toList, c.toNat < 128

theorem asciiLower_eq_empty {s : String} : asciiLower s = "" ↔ s = "" := by
  rw [← String.toList_inj, ← String.toList_inj, asciiLower, String.toList_ofList]
  exact List.map_eq_nil_iff

theorem asciiLower_fqnOf (s n : String) : asciiLower (fqnOf s n) = fqnOf (asciiLower s) (asciiLower n) := by
  by_cases hs : s = ""
  · simp [fqnOf, hs, asciiLower]
  · rw [fqnOf, if_neg hs, fqnOf, if_neg (asciiLower_eq_empty.not.2 hs), ← String.toList_inj]
    simp [asciiLower]

theorem identityKey_eq_loweredFqn (U : Unicode) {t : SearchedTable K} (hbare : t.Bare) (hascii : t.Ascii) :
    t.identityKey U = t.loweredFqn U := by
  have hfqn : ∀ c ∈ (fqnOf t.schema t.name).toList, c.toNat < 128 := by
    intro c hc
    rw [toList_fqnOf] at hc
    split_ifs at hc
    · exact hascii.2 c hc
    · rcases List.mem_append.1 hc with hc | hc
      · exact hascii.1 c hc
      · rcases List.mem_cons.1 hc with rfl | hc
        · decide
        · exact hascii.2 c hc
  have hempty : U.lower (stripString "") = "" := U.lower_ascii "" (by simp)
  rw [SearchedTable.identityKey, tableLookupKey, SearchedTable.loweredFqn, hbare.datasource, hbare.schema_strip,
    hbare.name_strip, hempty, U.lower_ascii _ hascii.1, U.lower_ascii _ hascii.2, U.lower_ascii _ hfqn,
    if_neg (asciiLower_eq_empty.not.2 hbare.name_ne), if_neg (not_not.2 rfl), asciiLower_fqnOf]

theorem keysAgree_of_ascii (U : Unicode) {tables : List (SearchedTable K)}
    (h : ∀ t ∈ tables, t.Bare ∧ t.Ascii) : KeysAgree U tables := by
  intro a ha b hb
  rw [identityKey_eq_loweredFqn U (h a ha).1 (h a ha).2, identityKey_eq_loweredFqn U (h b hb).1 (h b hb).2]

end

/-! ### Two lists of tables -/

def flowTables : List (SearchedTable Rounding.binary64.Number) :=
  [⟨⟨"RWIS", "FLOW_DAY", "", 0.5⟩, "", "", ""⟩, ⟨⟨"rwis", "flow_day", "", 0.4⟩, "", "", ""⟩]

theorem flowTables_bare_ascii : ∀ t ∈ flowTables, t.Bare ∧ t.Ascii := by
  intro t ht
  simp only [flowTables, List.mem_cons, List.not_mem_nil, or_false] at ht
  rcases ht with rfl | rfl
  · exact ⟨⟨rfl, by decide, by decide, by decide⟩, ascii_of_all (by decide), ascii_of_all (by decide)⟩
  · exact ⟨⟨rfl, by decide, by decide, by decide⟩, ascii_of_all (by decide), ascii_of_all (by decide)⟩

theorem evenlyWeighted_flowTables : EvenlyWeighted .ascii ⟨0.6, 0.4⟩ [] flowTables := fun _ =>
  ⟨0.4, by decide +kernel, by decide +kernel, by decide +kernel⟩

/-- In binary64, two scores may be told apart that are not when they are weighted. -/
example : (0.7000000000000004 : Rounding.binary64.Number) < 0.7000000000000005 ∧
    (0.7000000000000004 : Rounding.binary64.Number) * 0.4 = 0.7000000000000005 * 0.4 := by
  decide +kernel

/-! ### A capital sigma behind the dot -/

def casedGreek (c : Char) : Bool := c.isAlpha || c ∈ ['Σ', 'σ', 'ς']

/-- A sigma behind a cased letter and before none; signs such as a dot between them do not count. -/
def finalSigma (before after : Text) : Bool :=
  let ignorable (c : Char) : Bool := c ∈ ['.', ':', '^'] || c.toNat ∈ [39, 96]
  (before.dropWhile ignorable).head?.any casedGreek && !(after.dropWhile ignorable).head?.any casedGreek

/-- The letters in lower case; `before` are those read, the last one first. -/
def lowerSigma (before : Text) : Text → Text
  | [] => []
  | c :: after =>
    (if c = 'Σ' then if finalSigma before after then 'ς' else 'σ' else c.toLower) :: lowerSigma (c :: before) after

theorem lowerSigma_of_ascii {s : Text} (h : ∀ c ∈ s, c.toNat < 128) (before : Text) :
    lowerSigma before s = s.map Char.toLower := by
  induction s generalizing before with
  | nil => rfl
  | cons c s ih =>
    have hc : c ≠ 'Σ' := by
      rintro rfl
      exact absurd (h _ List.mem_cons_self) (by decide)
    rw [lowerSigma, if_neg hc, ih fun d hd => h d (List.mem_cons_of_mem c hd), List.map_cons]

theorem notMem_sigmas {c : Char} (h : c.toNat < 128) : c ∉ ['Σ', 'σ', 'ς'] := by
  intro hmem
  simp only [List.mem_cons, List.not_mem_nil, or_false] at hmem
  rcases hmem with rfl | rfl | rfl
  all_goals exact absurd h (by decide)

/-- The tables that know ASCII letters and the sigma. -/
def Unicode.sigma : Unicode where
  isAlnum c := c.isAlphanum || c ∈ ['Σ', 'σ', 'ς']
  upper := Unicode.ascii.upper
  lower s := String.ofList (lowerSigma [] s.toList)
  isAlnum_ascii c h := by rw [decide_eq_false (notMem_sigmas h), Bool.or_false]
  upper_ascii := Unicode.ascii.upper_ascii
  lower_ascii s h := by rw [lowerSigma_of_ascii h, asciiLower]

def sigmaTables : List (SearchedTable Rounding.binary64.Number) :=
  [⟨⟨"A", "Σ", "", 0.5⟩, "", "", ""⟩, ⟨⟨"A", "σ", "", 0.4⟩, "", "", ""⟩]

end RoboMeta
