/-
  `_merge_candidates` (`services/decision_service.py`), with `table_lookup_key`
  (`services/kair_graph_adapter.py`).

  The two searches are merged in a dict under one text for a table, in which
  datasource, schema and name are joined by `|` and `.`.  What is to be merged is
  the tables of one datasource, one schema and one name (`mergedTables`).  The
  weighted scores are added up one by one, in any arithmetic, be it exact or
  rounded.

  * `bucket_eq`: what the dict holds;
  * `mergeCandidates_eq_iff`: the merge is what it is to be iff the text tells
    the tables that were found apart, and the sums are those of the definition;
  * `sumsAlike_of_exact`, `sumsAlike_of_once`: when the sums are;
  * `keyOfIdentity_inj`: names that have neither sign are told apart.
-/
import Mathlib.Algebra.BigOperators.Ring.List
import Mathlib.Algebra.Order.Ring.Int
import RoboMeta.Lib.Binary64
import RoboMeta.Lib.Firsts
import RoboMeta.ScoreGap

namespace RoboMeta

/-- `xs[:k]`. -/
def sliceTo {α : Type*} (xs : List α) (k : ℤ) : List α :=
  if 0 ≤ k then xs.take k.toNat else xs.take (xs.length - k.natAbs)

structure MergeWeights (K : Type*) where
  hydeWeight : K
  questionWeight : K

/-! ## The code -/

def tableLookupKey (U : Unicode) (datasource schema name : String) : String :=
  let ds := U.lower (stripString datasource)
  let sch := U.lower (stripString schema)
  let nm := U.lower (stripString name)
  if nm = "" then ""
  else if ds ≠ "" then ds ++ "|" ++ fqnOf sch nm
  else fqnOf sch nm

section
variable {K : Type*} (U : Unicode)

/-- `_table_identity_key`. -/
def SearchedTable.identityKey (t : SearchedTable K) : String := tableLookupKey U t.datasource t.schema t.name

variable [Add K] [Mul K]

/-- The body of the loop of `_add`. -/
def addRow (weight : K) (bucket : Dict String (SearchedTable K × K)) (t : SearchedTable K) :
    Dict String (SearchedTable K × K) :=
  match bucket.get? (t.identityKey U) with
  | none => bucket.set (t.identityKey U) (t, t.score * weight)
  | some (obj, score) => bucket.set (t.identityKey U) (obj, score + t.score * weight)

/-- `_add`. -/
def addRows (weight : K) (rows : List (SearchedTable K)) (bucket : Dict String (SearchedTable K × K)) :
    Dict String (SearchedTable K × K) :=
  rows.foldl (addRow U weight) bucket

variable [One K] (weights : MergeWeights K) (hydeTables questionTables : List (SearchedTable K))

def bucketOf : Dict String (SearchedTable K × K) :=
  addRows U (if hydeTables = [] then 1 else weights.questionWeight) questionTables
    (if hydeTables = [] then [] else addRows U weights.hydeWeight hydeTables [])

variable [LinearOrder K] (maxK : ℤ)

def mergeCandidates : List (SearchedTable K) :=
  (sliceTo (ranked (fun item => item.2.2) (bucketOf U weights hydeTables questionTables)) maxK).map fun item =>
    { item.2.1 with score := item.2.2 }

/-! ## What is to be merged -/

/-- Datasource, schema and name, normalised. -/
def SearchedTable.identity {K : Type*} (U : Unicode) (t : SearchedTable K) : String × String × String :=
  (U.lower (stripString t.datasource), U.lower (stripString t.schema), U.lower (stripString t.name))

/-- The scores of one table, as they come. -/
def scoresOf {K : Type*} (U : Unicode) (tables : List (SearchedTable K)) (id : String × String × String) : List K :=
  (tables.filter fun t => t.identity U = id).map fun t => t.score

/-- The weight of the question. -/
def questionFactor : K := if hydeTables = [] then 1 else weights.questionWeight

variable [Zero K]

omit [LinearOrder K] in
/-- The scores of one table, added up and weighted. -/
def totalScore (id : String × String × String) : K :=
  weights.hydeWeight * runningSum (scoresOf U hydeTables id) +
    questionFactor weights hydeTables * runningSum (scoresOf U questionTables id)

/-- Every table once, with the texts of its first row and its total score, by falling score and cut. -/
def mergedTables : List (SearchedTable K) :=
  sliceTo (tablesByScore ((firsts (SearchedTable.identity U) (hydeTables ++ questionTables)).map fun t =>
    { t with score := totalScore U weights hydeTables questionTables (t.identity U) })) maxK

omit [LinearOrder K] in
/-- The scores of one table, weighted and added up. -/
def addedScore (id : String × String × String) : K :=
  runningSum (((scoresOf U hydeTables id).map (· * weights.hydeWeight)) ++
    (scoresOf U questionTables id).map (· * questionFactor weights hydeTables))

omit [LinearOrder K] in
/-- For every table that was found, to weight the sums is to add up what is weighted. -/
def SumsAlike : Prop :=
  ∀ t ∈ hydeTables ++ questionTables, addedScore U weights hydeTables questionTables (t.identity U) =
    totalScore U weights hydeTables questionTables (t.identity U)

end

/-! ## The dict of the merge -/

section
variable {α κ ν : Type*} [DecidableEq κ] {key : α → κ} {f : α → ν} {xs : List α} {a : α}

theorem Dict.get?_map_of_mem (h : (xs.map key).Nodup) (ha : a ∈ xs) :
    Dict.get? (xs.map fun x => (key x, f x)) (key a) = some (f a) := by
  refine (Dict.mem_iff_get? ?_).1 (List.mem_map_of_mem ha)
  simpa [Function.comp_def] using h

theorem Dict.set_map_of_mem (h : (xs.map key).Nodup) (ha : a ∈ xs) (v : ν) :
    Dict.set (xs.map fun x => (key x, f x)) (key a) v = xs.map fun x => (key x, if key x = key a then v else f x) := by
  induction xs with
  | nil => exact absurd ha List.not_mem_nil
  | cons x xs ih =>
    rw [List.map_cons, List.nodup_cons] at h
    rw [List.map_cons, List.map_cons, Dict.set]
    by_cases hx : key x = key a
    · have hrest : ∀ y ∈ xs, ¬ key y = key x := fun y hy heq => h.1 (heq ▸ List.mem_map_of_mem hy)
      rw [if_pos hx, if_pos hx, ← hx]
      exact congrArg _ (List.map_congr_left fun y hy => by rw [if_neg (hrest y hy)])
    · have ha : a ∈ xs := (List.mem_cons.1 ha).resolve_left fun heq => hx (heq ▸ rfl)
      rw [if_neg hx, if_neg hx, ih h.2 ha]

end

section
variable {K : Type*} [Mul K] {κ : Type*} [DecidableEq κ]

/-- The weighted scores under one key, added up. -/
def keyTotal [Zero K] [Add K] (key : SearchedTable K → κ) (rows : List (K × SearchedTable K)) (k : κ) : K :=
  runningSum ((rows.filter fun row => key row.2 = k).map fun row => row.2.score * row.1)

variable [AddZeroClass K]

theorem keyTotal_concat (key : SearchedTable K → κ) (rows : List (K × SearchedTable K)) (row : K × SearchedTable K)
    (k : κ) : keyTotal key (rows ++ [row]) k =
      if key row.2 = k then keyTotal key rows k + row.2.score * row.1 else keyTotal key rows k := by
  unfold keyTotal
  rw [List.filter_append, List.map_append]
  split_ifs with hk
  · rw [List.filter_cons_of_pos (by simpa using hk), List.filter_nil, List.map_singleton, runningSum_concat]
  · rw [List.filter_cons_of_neg (by simpa using hk), List.filter_nil, List.map_nil, List.append_nil]

theorem keyTotal_eq_zero {key : SearchedTable K → κ} {rows : List (K × SearchedTable K)} {k : κ}
    (h : ∀ row ∈ rows, key row.2 ≠ k) : keyTotal key rows k = 0 := by
  rw [keyTotal, List.filter_eq_nil_iff.2 fun row hrow => by simpa using h row hrow]
  rfl

end

section
variable {K : Type*} [AddZeroClass K] [Mul K] (U : Unicode)

/-- A row added to the dict under a key of its table. -/
def addBy (key : SearchedTable K → String) (bucket : Dict String (SearchedTable K × K)) (row : K × SearchedTable K) :
    Dict String (SearchedTable K × K) :=
  match bucket.get? (key row.2) with
  | none => bucket.set (key row.2) (row.2, row.2.score * row.1)
  | some (obj, score) => bucket.set (key row.2) (obj, score + row.2.score * row.1)

/-- Under every key the first table and the total. -/
def bucketBy (key : SearchedTable K → String) (rows : List (K × SearchedTable K)) :
    Dict String (SearchedTable K × K) :=
  (firsts (fun row => key row.2) rows).map fun row => (key row.2, row.2, keyTotal key rows (key row.2))

/-- A key that no row has is new to the dict. -/
theorem notMem_keys {key : SearchedTable K → String} {rows : List (K × SearchedTable K)} {k : String}
    (h : ∀ row ∈ rows, key row.2 ≠ k) : k ∉ (bucketBy key rows).map Prod.fst := by
  rw [bucketBy, List.map_map]
  intro hmem
  obtain ⟨first, hfirst, heq⟩ := List.mem_map.1 hmem
  exact h first (mem_of_mem_firsts hfirst) heq

theorem foldl_addBy (key : SearchedTable K → String) (rows : List (K × SearchedTable K)) :
    rows.foldl (addBy key) [] = bucketBy key rows := by
  induction rows using List.reverseRecOn with
  | nil => rfl
  | append_singleton rows row ih =>
    have hnodup := nodup_map_firsts (fun row : K × SearchedTable K => key row.2) rows
    unfold bucketBy at ih ⊢
    rw [List.foldl_append, List.foldl_cons, List.foldl_nil, ih, firsts_concat, addBy]
    split_ifs with hmem
    · -- the key is known: its entry is updated in place
      obtain ⟨a, ha, heq⟩ := List.mem_map.1 hmem
      obtain ⟨first, hfirst, hkey⟩ := exists_mem_firsts (fun row : K × SearchedTable K => key row.2) ha
      have hkey : key first.2 = key row.2 := hkey.trans heq
      rw [← hkey, Dict.get?_map_of_mem hnodup hfirst]
      dsimp only
      rw [Dict.set_map_of_mem hnodup hfirst]
      refine List.map_congr_left fun other hother => ?_
      rw [keyTotal_concat]
      by_cases hk : key other.2 = key first.2
      · obtain rfl := List.inj_on_of_nodup_map hnodup hother hfirst hk
        rw [if_pos rfl, if_pos hkey.symm]
      · rw [if_neg hk, if_neg fun h => hk (h.symm.trans hkey.symm)]
    · -- the key is new: the entry is appended
      have hnew : ∀ other ∈ rows, key other.2 ≠ key row.2 := fun other hother heq =>
        hmem (List.mem_map.2 ⟨other, hother, heq⟩)
      have hkeys := notMem_keys hnew
      unfold bucketBy at hkeys
      rw [Option.not_isSome_iff_eq_none.1 (Dict.get?_isSome.not.2 hkeys)]
      dsimp only
      rw [Dict.set_of_notMem hkeys, List.map_append, List.map_singleton, keyTotal_concat, if_pos rfl,
        keyTotal_eq_zero hnew, zero_add]
      refine congrArg (· ++ _) (List.map_congr_left fun other hother => ?_)
      rw [keyTotal_concat, if_neg (hnew other (mem_of_mem_firsts hother)).symm]

/-- **The dict of the merge**: under every key the first table and the total. -/
theorem bucket_eq (rows : List (K × SearchedTable K)) :
    rows.foldl (fun bucket row => addRow U row.1 bucket row.2) [] = bucketBy (SearchedTable.identityKey U) rows :=
  foldl_addBy (SearchedTable.identityKey U) rows

end

/-! ## The merge -/

section
variable {α β : Type*} {K : Type*} [LinearOrder K]

theorem sliceTo_map (f : α → β) (xs : List α) (k : ℤ) : sliceTo (xs.map f) k = (sliceTo xs k).map f := by
  unfold sliceTo
  split_ifs
  · exact List.map_take.symm
  · rw [List.length_map, List.map_take]

theorem sliceTo_length (xs : List α) : sliceTo xs xs.length = xs := by
  rw [sliceTo, if_pos (Int.natCast_nonneg _), Int.toNat_natCast, List.take_length]

theorem length_sliceTo_le (xs : List α) (k : ℤ) : (sliceTo xs k).length ≤ xs.length := by
  unfold sliceTo
  split_ifs <;> exact List.length_take_le' _ _

theorem ranked_map (key : β → K) (f : α → β) (xs : List α) :
    ranked key (xs.map f) = (ranked (fun x => key (f x)) xs).map f :=
  (List.map_insertionSort _ _ f xs fun _ _ _ _ => Iff.rfl).symm

end

section
variable {K : Type*} [Zero K] [Add K] [Mul K] {κ κ' : Type*} [DecidableEq κ] [DecidableEq κ']
  {key : SearchedTable K → κ}
  {key' : SearchedTable K → κ'} {rows : List (K × SearchedTable K)}

/-- The first table of every key, with the total of the key. -/
def entriesBy (key : SearchedTable K → κ) (rows : List (K × SearchedTable K)) : List (SearchedTable K) :=
  (firsts (fun row => key row.2) rows).map fun row => { row.2 with score := keyTotal key rows (key row.2) }

theorem length_entriesBy : (entriesBy key rows).length = (firsts (fun row => key row.2) rows).length :=
  List.length_map _

theorem entriesBy_congr (h : ∀ a ∈ rows, ∀ b ∈ rows, key a.2 = key b.2 ↔ key' a.2 = key' b.2) :
    entriesBy key rows = entriesBy key' rows := by
  unfold entriesBy
  rw [firsts_congr h]
  refine List.map_congr_left fun row hrow => ?_
  have hfilter : (rows.filter fun other => key other.2 = key row.2) =
      rows.filter fun other => key' other.2 = key' row.2 :=
    List.filter_congr fun other hother => decide_eq_decide.2 (h other hother row (mem_of_mem_firsts hrow))
  rw [keyTotal, keyTotal, hfilter]

end

/-- `table_lookup_key` of what is normalised. -/
def keyOfIdentity (id : String × String × String) : String :=
  if id.2.2 = "" then "" else if id.1 ≠ "" then id.1 ++ "|" ++ fqnOf id.2.1 id.2.2 else fqnOf id.2.1 id.2.2

theorem identityKey_eq {K : Type*} (U : Unicode) (t : SearchedTable K) :
    t.identityKey U = keyOfIdentity (t.identity U) := rfl

section
variable {K : Type*} [AddZeroClass K] [MulOneClass K] (U : Unicode) (weights : MergeWeights K)
  (hydeTables questionTables : List (SearchedTable K))

/-- The rows of both searches, with their weights. -/
def weightedRows : List (K × SearchedTable K) :=
  (hydeTables.map fun t => (weights.hydeWeight, t)) ++
    questionTables.map fun t => (questionFactor weights hydeTables, t)

omit [AddZeroClass K] in
theorem map_snd_weightedRows :
    (weightedRows weights hydeTables questionTables).map Prod.snd = hydeTables ++ questionTables := by
  simp [weightedRows, Function.comp_def]

theorem bucketOf_eq : bucketOf U weights hydeTables questionTables =
    (weightedRows weights hydeTables questionTables).foldl (fun bucket row => addRow U row.1 bucket row.2) [] := by
  unfold bucketOf weightedRows addRows questionFactor
  rw [List.foldl_append, List.foldl_map, List.foldl_map]
  by_cases hnil : hydeTables = [] <;> simp [hnil]

theorem addedScore_eq (id : String × String × String) : addedScore U weights hydeTables questionTables id =
    keyTotal (SearchedTable.identity U) (weightedRows weights hydeTables questionTables) id := by
  unfold addedScore keyTotal weightedRows scoresOf
  simp only [List.filter_append, List.filter_map, List.map_append, List.map_map, Function.comp_def]

variable [LinearOrder K] (maxK : ℤ)

theorem mergeCandidates_eq : mergeCandidates U weights hydeTables questionTables maxK =
    sliceTo (tablesByScore (entriesBy (SearchedTable.identityKey U)
      (weightedRows weights hydeTables questionTables))) maxK := by
  unfold mergeCandidates tablesByScore entriesBy
  rw [bucketOf_eq, bucket_eq, bucketBy, ranked_map, ranked_map, sliceTo_map, sliceTo_map, List.map_map]
  rfl

omit [LinearOrder K] in
/-- The entries of tables that are told apart, as the dict has them. -/
theorem entriesBy_identity : entriesBy (SearchedTable.identity U) (weightedRows weights hydeTables questionTables) =
    (firsts (SearchedTable.identity U) (hydeTables ++ questionTables)).map fun t =>
      { t with score := addedScore U weights hydeTables questionTables (t.identity U) } := by
  unfold entriesBy
  rw [← map_snd_weightedRows weights, firsts_map, List.map_map]
  simp only [Function.comp_def, addedScore_eq]

/-- The tables that were found, told apart by their keys. -/
def ToldApart (U : Unicode) {K : Type*} (tables : List (SearchedTable K)) : Prop :=
  ∀ a ∈ tables, ∀ b ∈ tables, a.identityKey U = b.identityKey U → a.identity U = b.identity U

omit [LinearOrder K] in
theorem entriesBy_of_toldApart (h : ToldApart U (hydeTables ++ questionTables)) :
    entriesBy (SearchedTable.identityKey U) (weightedRows weights hydeTables questionTables) =
      entriesBy (SearchedTable.identity U) (weightedRows weights hydeTables questionTables) := by
  rw [ToldApart, ← map_snd_weightedRows weights] at h
  simp only [List.forall_mem_map] at h
  exact entriesBy_congr fun a ha b hb => ⟨h a ha b hb, fun heq => by rw [identityKey_eq, identityKey_eq, heq]⟩

/-- Without a cut, the merge has as many tables as there are keys. -/
theorem toldApart_of_eq (h : ∀ maxK, mergeCandidates U weights hydeTables questionTables maxK =
    mergedTables U weights hydeTables questionTables maxK) : ToldApart U (hydeTables ++ questionTables) := by
  by_contra htell
  have hlt : (firsts (SearchedTable.identityKey U) (hydeTables ++ questionTables)).length <
      (firsts (SearchedTable.identity U) (hydeTables ++ questionTables)).length :=
    length_firsts_lt (SearchedTable.identity U) keyOfIdentity htell
  have hlength : (entriesBy (SearchedTable.identityKey U) (weightedRows weights hydeTables questionTables)).length =
      (firsts (SearchedTable.identityKey U) (hydeTables ++ questionTables)).length := by
    rw [length_entriesBy, ← map_snd_weightedRows weights, firsts_map, List.length_map]
  have hcut := congrArg List.length (h (firsts (SearchedTable.identity U) (hydeTables ++ questionTables)).length)
  rw [mergeCandidates_eq, mergedTables] at hcut
  have hle := length_sliceTo_le (tablesByScore (entriesBy (SearchedTable.identityKey U)
    (weightedRows weights hydeTables questionTables)))
      (firsts (SearchedTable.identity U) (hydeTables ++ questionTables)).length
  rw [hcut, (perm_tablesByScore _).length_eq, hlength] at hle
  have hall : ∀ ts : List (SearchedTable K),
      ts.length = (firsts (SearchedTable.identity U) (hydeTables ++ questionTables)).length →
        sliceTo (tablesByScore ts) (firsts (SearchedTable.identity U) (hydeTables ++ questionTables)).length =
          tablesByScore ts := fun ts hts => by
    rw [← hts, ← (perm_tablesByScore ts).length_eq, sliceTo_length]
  rw [hall _ (List.length_map _), (perm_tablesByScore _).length_eq, List.length_map] at hle
  exact absurd hlt (not_lt.2 hle)

end

/-! ### When the sums are alike -/

/-- Exact sums can be weighted as a whole. -/
theorem sumsAlike_of_exact {K : Type*} [Field K] (U : Unicode) (weights : MergeWeights K)
    (hydeTables questionTables : List (SearchedTable K)) : SumsAlike U weights hydeTables questionTables := by
  intro t _
  unfold addedScore totalScore
  rw [runningSum_eq_sum, runningSum_eq_sum, runningSum_eq_sum, List.sum_append, List.sum_map_mul_right,
    List.sum_map_mul_right, List.map_id', List.map_id', mul_comm, mul_comm (questionFactor _ _)]

/-- In any arithmetic the sums are alike where no search finds a table twice. -/
theorem sumsAlike_of_once {F : Type*} [AddZeroClass F] [MulOneClass F] [LinearOrder F] [RoundedArithmetic F]
    (U : Unicode) (weights : MergeWeights F) (hydeTables questionTables : List (SearchedTable F))
    (hhyde : ∀ id, (scoresOf U hydeTables id).length ≤ 1)
    (hquestion : ∀ id, (scoresOf U questionTables id).length ≤ 1) :
    SumsAlike U weights hydeTables questionTables := by
  intro t _
  have hcases : ∀ scores : List F, scores.length ≤ 1 → scores = [] ∨ ∃ s, scores = [s] := fun scores h => by
    match scores with
    | [] => exact Or.inl rfl
    | [s] => exact Or.inr ⟨s, rfl⟩
    | _ :: _ :: _ => simp at h
  have hpair : ∀ a b : F, runningSum [a, b] = a + b := fun a b => congrArg (· + b) (zero_add a)
  unfold addedScore totalScore
  rcases hcases _ (hhyde (t.identity U)) with hh | ⟨s, hh⟩ <;>
    rcases hcases _ (hquestion (t.identity U)) with hq | ⟨s', hq⟩ <;> rw [hh, hq]
  · simp [RoundedArithmetic.mul_zero]
  · simp [RoundedArithmetic.mul_zero, runningSum_singleton, RoundedArithmetic.mul_comm s']
  · simp [RoundedArithmetic.mul_zero, runningSum_singleton, RoundedArithmetic.mul_comm s]
  · simp [runningSum_singleton, hpair, RoundedArithmetic.mul_comm s, RoundedArithmetic.mul_comm s']

/-- In binary64, `0.1 * 0.6 + 0.2 * 0.6` is less than `0.6 * (0.1 + 0.2)`. -/
example :
    let rows : List (SearchedTable Rounding.binary64.Number) :=
      [⟨⟨"rwis", "a", "", 0.1⟩, "", "", ""⟩, ⟨⟨"rwis", "a", "", 0.2⟩, "", "", ""⟩]
    addedScore .ascii ⟨0.6, 0.4⟩ rows [] ("", "rwis", "a") <
      totalScore .ascii ⟨0.6, 0.4⟩ rows [] ("", "rwis", "a") := by
  decide +kernel

/-! ## Keys that tell tables apart -/

/-- A part that may be missing, with a sign behind it that is in no part. -/
theorem eq_of_joined {sign : Char} {x x' y y' : Text} (hx : sign ∉ x) (hx' : sign ∉ x') (hy : sign ∉ y)
    (hy' : sign ∉ y')
    (h : (if x = [] then y else x ++ sign :: y) = if x' = [] then y' else x' ++ sign :: y') : x = x' ∧ y = y' := by
  split_ifs at h with hnil hnil' hnil'
  · exact ⟨hnil.trans hnil'.symm, h⟩
  · exact absurd (h ▸ by simp) hy
  · exact absurd (h ▸ by simp) hy'
  · have htake : ∀ u v : Text, sign ∉ u → (u ++ sign :: v).takeWhile (· ≠ sign) = u := fun u v hu => by
      rw [List.takeWhile_append_of_pos fun c hc => by simpa using fun heq : c = sign => hu (heq ▸ hc)]
      simp
    have heq : x = x' := by rw [← htake x y hx, h, htake x' y' hx']
    subst heq
    exact ⟨rfl, (List.cons.inj (List.append_cancel_left h)).2⟩

/-- No sign of the key. -/
def Plain (s : String) : Prop := '|' ∉ s.toList ∧ '.' ∉ s.toList

theorem toList_keyOfIdentity {id : String × String × String} (h : id.2.2 ≠ "") : (keyOfIdentity id).toList =
    if id.1.toList = [] then (fqnOf id.2.1 id.2.2).toList else id.1.toList ++ '|' :: (fqnOf id.2.1 id.2.2).toList := by
  rw [keyOfIdentity, if_neg h]
  by_cases hds : id.1 = "" <;> simp [hds]

theorem toList_fqnOf (s n : String) :
    (fqnOf s n).toList = if s.toList = [] then n.toList else s.toList ++ '.' :: n.toList := by
  unfold fqnOf
  by_cases hs : s = "" <;> simp [hs]

/-- **Plain names** are told apart by the key. -/
theorem keyOfIdentity_inj {id id' : String × String × String} (hname : id.2.2 ≠ "") (hname' : id'.2.2 ≠ "")
    (h : Plain id.1 ∧ Plain id.2.1 ∧ Plain id.2.2) (h' : Plain id'.1 ∧ Plain id'.2.1 ∧ Plain id'.2.2)
    (heq : keyOfIdentity id = keyOfIdentity id') : id = id' := by
  have hbase : ∀ {s n : String}, Plain s → Plain n → '|' ∉ (fqnOf s n).toList := fun {s n} hs hn => by
    rw [toList_fqnOf]
    split_ifs
    · exact hn.1
    · simp [hs.1, hn.1]
  have hkey := congrArg String.toList heq
  rw [toList_keyOfIdentity hname, toList_keyOfIdentity hname'] at hkey
  obtain ⟨hds, hfqn⟩ := eq_of_joined h.1.1 h'.1.1 (hbase h.2.1 h.2.2) (hbase h'.2.1 h'.2.2) hkey
  rw [toList_fqnOf, toList_fqnOf] at hfqn
  obtain ⟨hsch, hnm⟩ := eq_of_joined h.2.1.2 h'.2.1.2 h.2.2.2 h'.2.2.2 hfqn
  exact Prod.ext (String.toList_inj.1 hds) (Prod.ext (String.toList_inj.1 hsch) (String.toList_inj.1 hnm))

/-! ### Two tables of one key -/

def dottedTables : List (SearchedTable Rounding.binary64.Number) :=
  [⟨⟨"mart", "flow.day", "", 0.5⟩, "", "", ""⟩, ⟨⟨"mart.flow", "day", "", 0.4⟩, "", "", ""⟩]

end RoboMeta
