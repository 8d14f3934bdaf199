/-
  `_select_final_candidates` (`services/decision_service.py`).

  With `join_expand` the candidates are rebuilt: the keys of the pruned ones and
  of those that an allowed bridge links with the first of them are collected in
  a set, looked up in the pool by key, and what is found is pruned again.  The
  order that the set is enumerated in differs from process to process, so it is
  a parameter (`SetOrder`).

  * `mem_expandedTables`: who is in the rebuilt list;
  * `map_score_selectFinalCandidates`: if the pruned candidates are, then the
    scores are those of the pruned candidates;
  * `selectFinalCandidates_joinExpand`: if no two candidates of the pool share a
    key, the option makes no difference.
-/
import Mathlib.Algebra.Order.Ring.Rat
import RoboMeta.JoinGraph
import RoboMeta.ScoreGap

namespace RoboMeta

/-- How a process enumerates a set of strings, the set being its elements in the order they were added in. -/
structure SetOrder where
  list : List String → List String
  perm : ∀ s, (list s).Perm s

/-- What is read of an entry of `bridges_all`. -/
structure BridgeEntry where
  via : Option String
  fromKey : Option String
  toKey : Option String
deriving DecidableEq, Repr

def RecordedBridge.entry {K : Type} (b : RecordedBridge K) : BridgeEntry where
  via := b.bridge.via.text
  fromKey := b.fromKey
  toKey := b.toKey

/-- `_table_fqn_key`. -/
def tableFqnKey (U : Unicode) (schema name : String) : String := U.lower (fqnOf (stripString schema) (stripString name))

def SearchedTable.fqnKey {K : Type*} (U : Unicode) (t : SearchedTable K) : String := tableFqnKey U t.schema t.name

/-- `pool_by_key`: of candidates with one key the last. -/
def poolByKey {K : Type*} (U : Unicode) (pool : List (SearchedTable K)) : Dict String (SearchedTable K) :=
  pool.foldl (fun d t => d.set (t.fqnKey U) t) []

def allowedVia (U : Unicode) (expandVia : List String) : List String :=
  (expandVia.filter fun v => stripString v ≠ "").map fun v => U.lower (stripString v)

section
variable {K : Type*} (U : Unicode) (expandVia : List String)

/-- The body of the loop over the bridges. -/
def addNeighbour (byKey : Dict String (SearchedTable K)) (anchorKey : String) (keys : List String) (b : BridgeEntry) :
    List String :=
  let fk := b.fromKey.getD ""
  let tk := b.toKey.getD ""
  if U.lower (stripString (b.via.getD "")) ∉ allowedVia U expandVia then keys
  else if anchorKey = fk ∧ (byKey.get? tk).isSome then keys.insert tk
  else if anchorKey = tk ∧ (byKey.get? fk).isSome then keys.insert fk
  else keys

def selectedKeys (byKey : Dict String (SearchedTable K)) (bridges : List BridgeEntry) (anchor : SearchedTable K)
    (pruned : List (SearchedTable K)) : List String :=
  bridges.foldl (addNeighbour U expandVia byKey (anchor.fqnKey U)) (pruned.map fun t => t.fqnKey U).dedup

/-- The candidates with the selected keys, the set of keys being enumerated in this order. -/
def expandedTables (order : SetOrder) (bridges : List BridgeEntry) (pool : List (SearchedTable K))
    (anchor : SearchedTable K) (pruned : List (SearchedTable K)) : List (SearchedTable K) :=
  (order.list (selectedKeys U expandVia (poolByKey U pool) bridges anchor pruned)).filterMap (poolByKey U pool).get?

variable [Field K] [LinearOrder K] (order : SetOrder) (p : PruneParams K) (joinExpand : Bool)

def selectFinalCandidates (bridges : List BridgeEntry) (pool pruned : List (SearchedTable K)) :
    List (SearchedTable K) :=
  match pruned with
  | [] => []
  | anchor :: _ =>
    if ¬ joinExpand ∨ bridges = [] then pruneByScoreGap p pruned
    else pruneByScoreGap p (tablesByScore (expandedTables U expandVia order bridges pool anchor pruned))

/-- The cut of `decide` behind the selection. -/
def cutTables (tableMax : ℕ) (finalMerged : List (SearchedTable K)) : List (SearchedTable K) :=
  if 0 < tableMax then finalMerged.take tableMax else finalMerged

end

/-! ## The pool by key -/

section
variable {K : Type*} {U : Unicode} {pool : List (SearchedTable K)} {t : SearchedTable K} {k : String}

/-- No later candidate of the pool has the key of this one. -/
def LastOfKey (U : Unicode) (pool : List (SearchedTable K)) (t : SearchedTable K) : Prop :=
  ∃ front back, pool = front ++ t :: back ∧ ∀ t' ∈ back, t'.fqnKey U ≠ t.fqnKey U

theorem lastOfKey_concat {x : SearchedTable K} :
    LastOfKey U (pool ++ [x]) t ↔ t = x ∨ LastOfKey U pool t ∧ x.fqnKey U ≠ t.fqnKey U := by
  constructor
  · rintro ⟨front, back, hpool, hback⟩
    rcases List.eq_nil_or_concat back with rfl | ⟨back, y, rfl⟩
    · exact Or.inl (List.singleton_inj.1 (List.append_inj' hpool rfl).2).symm
    · rw [List.concat_eq_append, ← List.cons_append, ← List.append_assoc] at hpool
      obtain ⟨rfl, hx⟩ := List.append_inj' hpool rfl
      obtain rfl := List.singleton_inj.1 hx
      exact Or.inr ⟨⟨front, back, rfl, fun t' ht' => hback t' (by simp [ht'])⟩, hback x (by simp)⟩
  · rintro (rfl | ⟨⟨front, back, rfl, hback⟩, hx⟩)
    · exact ⟨pool, [], rfl, fun t' ht' => absurd ht' List.not_mem_nil⟩
    · refine ⟨front, back ++ [x], by simp, fun t' ht' => ?_⟩
      rcases List.mem_append.1 ht' with ht' | ht'
      · exact hback t' ht'
      · rwa [List.mem_singleton.1 ht']

/-- **The pool by key** holds the last candidate of every key. -/
theorem get?_poolByKey : (poolByKey U pool).get? k = some t ↔ t.fqnKey U = k ∧ LastOfKey U pool t := by
  unfold poolByKey
  induction pool using List.reverseRecOn with
  | nil => simp [Dict.get?, LastOfKey]
  | append_singleton pool x ih =>
    rw [List.foldl_append, List.foldl_cons, List.foldl_nil, Dict.get?_set, lastOfKey_concat]
    by_cases hk : k = x.fqnKey U
    · rw [if_pos hk, Option.some.injEq]
      constructor
      · rintro rfl
        exact ⟨hk.symm, Or.inl rfl⟩
      · rintro ⟨ht, rfl | ⟨-, hne⟩⟩
        · rfl
        · exact absurd (hk.symm.trans ht.symm) hne
    · rw [if_neg hk, ih]
      refine and_congr_right fun ht => ⟨fun hlast => Or.inr ⟨hlast, fun hx => hk (ht.symm.trans hx.symm)⟩, ?_⟩
      rintro (rfl | ⟨hlast, -⟩)
      · exact absurd ht.symm hk
      · exact hlast

theorem LastOfKey.unique {t' : SearchedTable K} (h : LastOfKey U pool t) (h' : LastOfKey U pool t')
    (hkey : t.fqnKey U = t'.fqnKey U) : t = t' :=
  Option.some.inj ((get?_poolByKey.2 ⟨hkey, h⟩).symm.trans (get?_poolByKey.2 ⟨rfl, h'⟩))

theorem LastOfKey.mem (h : LastOfKey U pool t) : t ∈ pool := by
  obtain ⟨front, back, rfl, -⟩ := h
  exact List.mem_append_right front List.mem_cons_self

/-- If no two candidates share a key, each is the last one of its key. -/
theorem lastOfKey_of_nodup (h : (pool.map fun t => t.fqnKey U).Nodup) (ht : t ∈ pool) : LastOfKey U pool t := by
  obtain ⟨front, back, rfl⟩ := List.append_of_mem ht
  refine ⟨front, back, rfl, fun t' ht' heq => ?_⟩
  rw [List.map_append, List.map_cons] at h
  exact (List.nodup_cons.1 (List.nodup_append.1 h).2.1).1 (heq ▸ List.mem_map_of_mem ht')

end

/-! ## The selected keys -/

/-- An allowed bridge links the candidate of this key with the anchor. -/
def Neighbour (U : Unicode) (expandVia : List String) (bridges : List BridgeEntry) (anchorKey k : String) : Prop :=
  ∃ b ∈ bridges, U.lower (stripString (b.via.getD "")) ∈ allowedVia U expandVia ∧
    (b.fromKey.getD "" = anchorKey ∧ b.toKey.getD "" = k ∨ b.toKey.getD "" = anchorKey ∧ b.fromKey.getD "" = k)

section
variable {K : Type*} {U : Unicode} {expandVia : List String} {bridges : List BridgeEntry}
  {pool pruned : List (SearchedTable K)} {anchor t : SearchedTable K} {k : String}

theorem mem_addNeighbour {byKey : Dict String (SearchedTable K)} {anchorKey : String} {keys : List String}
    {b : BridgeEntry} : k ∈ addNeighbour U expandVia byKey anchorKey keys b ↔
      k ∈ keys ∨ (byKey.get? k).isSome ∧ Neighbour U expandVia [b] anchorKey k := by
  simp only [Neighbour, List.mem_singleton, exists_eq_left]
  unfold addNeighbour
  dsimp only
  split_ifs with hvia hfrom hto
  · rw [List.mem_insert_iff, or_comm]
    refine or_congr_right ⟨?_, ?_⟩
    · rintro rfl
      exact ⟨hfrom.2, hvia, Or.inl ⟨hfrom.1.symm, rfl⟩⟩
    · rintro ⟨-, -, ⟨-, rfl⟩ | ⟨hto, rfl⟩⟩
      · rfl
      · exact hfrom.1.symm.trans hto.symm
  · rw [List.mem_insert_iff, or_comm]
    refine or_congr_right ⟨?_, ?_⟩
    · rintro rfl
      exact ⟨hto.2, hvia, Or.inr ⟨hto.1.symm, rfl⟩⟩
    · rintro ⟨hk, -, ⟨hanchor, rfl⟩ | ⟨-, rfl⟩⟩
      · exact absurd ⟨hanchor.symm, hk⟩ hfrom
      · rfl
  · refine (or_iff_left ?_).symm
    rintro ⟨hk, -, ⟨hanchor, rfl⟩ | ⟨hanchor, rfl⟩⟩
    · exact hfrom ⟨hanchor.symm, hk⟩
    · exact hto ⟨hanchor.symm, hk⟩
  · simp [hvia]

theorem mem_selectedKeys : k ∈ selectedKeys U expandVia (poolByKey U pool) bridges anchor pruned ↔
    k ∈ pruned.map (fun t => t.fqnKey U) ∨
      ((poolByKey U pool).get? k).isSome ∧ Neighbour U expandVia bridges (anchor.fqnKey U) k := by
  unfold selectedKeys
  induction bridges using List.reverseRecOn with
  | nil => simp [Neighbour]
  | append_singleton bridges b ih =>
    rw [List.foldl_append, List.foldl_cons, List.foldl_nil, mem_addNeighbour, ih, or_assoc, ← and_or_left]
    simp [Neighbour, or_and_right, exists_or]

theorem nodup_selectedKeys (byKey : Dict String (SearchedTable K)) :
    (selectedKeys U expandVia byKey bridges anchor pruned).Nodup := by
  unfold selectedKeys
  induction bridges using List.reverseRecOn with
  | nil => exact List.nodup_dedup _
  | append_singleton bridges b ih =>
    rw [List.foldl_append, List.foldl_cons, List.foldl_nil]
    unfold addNeighbour
    dsimp only
    split_ifs
    exacts [ih.insert, ih.insert, ih, ih]

/-! ## The rebuilt list -/

variable {order order' : SetOrder}

/-- **Who is in the rebuilt list**: of every selected key the last candidate of the pool. -/
theorem mem_expandedTables : t ∈ expandedTables U expandVia order bridges pool anchor pruned ↔
    LastOfKey U pool t ∧ (t.fqnKey U ∈ pruned.map (fun t => t.fqnKey U) ∨
      Neighbour U expandVia bridges (anchor.fqnKey U) (t.fqnKey U)) := by
  unfold expandedTables
  rw [List.mem_filterMap]
  constructor
  · rintro ⟨k, hk, ht⟩
    obtain ⟨rfl, hlast⟩ := get?_poolByKey.1 ht
    exact ⟨hlast, (mem_selectedKeys.1 ((order.perm _).mem_iff.1 hk)).imp_right And.right⟩
  · rintro ⟨hlast, hkey⟩
    have hget := get?_poolByKey.2 ⟨rfl, hlast⟩
    refine ⟨t.fqnKey U, (order.perm _).mem_iff.2 (mem_selectedKeys.2 (hkey.imp_right fun h => ⟨?_, h⟩)), hget⟩
    rw [hget]
    rfl

theorem nodup_expandedTables : (expandedTables U expandVia order bridges pool anchor pruned).Nodup := by
  refine List.Nodup.filterMap (fun k k' t ht ht' => ?_) ((order.perm _).nodup_iff.2 (nodup_selectedKeys _))
  rw [← (get?_poolByKey.1 ht).1, (get?_poolByKey.1 ht').1]

theorem expandedTables_perm (order order' : SetOrder) :
    (expandedTables U expandVia order bridges pool anchor pruned).Perm
      (expandedTables U expandVia order' bridges pool anchor pruned) :=
  ((order.perm _).trans (order'.perm _).symm).filterMap _

end

/-! ## The selection -/

section
variable {K : Type*} [Field K] [LinearOrder K] {U : Unicode} {expandVia : List String} {bridges : List BridgeEntry}
  {pool pruned : List (SearchedTable K)} {order : SetOrder} {p : PruneParams K} {joinExpand : Bool}

/-- Without an expansion what is pruned is pruned again. -/
theorem selectFinalCandidates_of_not (h : joinExpand = false ∨ bridges = []) :
    selectFinalCandidates U expandVia order p joinExpand bridges pool pruned = pruneByScoreGap p pruned := by
  unfold selectFinalCandidates
  cases pruned with
  | nil => exact (prune_eq_nil.2 rfl).symm
  | cons anchor rest => exact if_pos (by simpa using h)

theorem selectFinalCandidates_cons {anchor : SearchedTable K} {rest : List (SearchedTable K)} (hne : bridges ≠ []) :
    selectFinalCandidates U expandVia order p true bridges pool (anchor :: rest) =
      pruneByScoreGap p (expandedTables U expandVia order bridges pool anchor (anchor :: rest)) :=
  (if_neg (by simpa using hne)).trans prune_tablesByScore

theorem mem_pool_of_mem_selectFinalCandidates (hsub : ∀ t ∈ pruned, t ∈ pool) {t : SearchedTable K}
    (h : t ∈ selectFinalCandidates U expandVia order p joinExpand bridges pool pruned) : t ∈ pool := by
  unfold selectFinalCandidates at h
  cases pruned with
  | nil => exact absurd h List.not_mem_nil
  | cons anchor rest =>
    dsimp only at h
    split_ifs at h
    · exact hsub t (mem_of_mem_prune h)
    · rw [prune_tablesByScore] at h
      exact (mem_expandedTables.1 (mem_of_mem_prune h)).1.mem

variable [IsStrictOrderedRing K]

variable (expandVia bridges order joinExpand) in
/-- **The scores of the selection** are those of the pruned candidates, if the pool by key holds these. -/
theorem map_score_selectFinalCandidates (hpool : pool.Nodup)
    (hlast : ∀ t ∈ pruneByScoreGap p pool, LastOfKey U pool t) :
    (selectFinalCandidates U expandVia order p joinExpand bridges pool (pruneByScoreGap p pool)).map
      (fun t => t.score) = (pruneByScoreGap p pool).map fun t => t.score := by
  by_cases hnot : joinExpand = false ∨ bridges = []
  · rw [selectFinalCandidates_of_not hnot, prune_prune]
  · simp only [not_or, Bool.not_eq_false] at hnot
    obtain ⟨rfl, hne⟩ := hnot
    cases hpruned : pruneByScoreGap p pool with
    | nil => rfl
    | cons anchor rest =>
      rw [hpruned] at hlast
      rw [selectFinalCandidates_cons hne, ← hpruned]
      refine map_score_prune_of_subset hpool nodup_expandedTables (fun t ht => (mem_expandedTables.1 ht).1.mem) ?_
      rw [hpruned]
      exact fun t ht => mem_expandedTables.2 ⟨hlast t ht, Or.inl (List.mem_map_of_mem ht)⟩

variable (expandVia bridges order p) in
/-- **Switching the expansion on** makes no difference, if no two candidates of the pool share a key. -/
theorem selectFinalCandidates_joinExpand (hkeys : (pool.map fun t => t.fqnKey U).Nodup) :
    (selectFinalCandidates U expandVia order p true bridges pool (pruneByScoreGap p pool)).map (fun t => t.score) =
        (pruneByScoreGap p pool).map (fun t => t.score) ∧
      ((pool.map fun t => t.score).Nodup →
        selectFinalCandidates U expandVia order p true bridges pool (pruneByScoreGap p pool) =
          pruneByScoreGap p pool) ∧
      selectFinalCandidates U expandVia order p false bridges pool (pruneByScoreGap p pool) =
        pruneByScoreGap p pool := by
  have hlast : ∀ t ∈ pruneByScoreGap p pool, LastOfKey U pool t := fun t ht =>
    lastOfKey_of_nodup hkeys (mem_of_mem_prune ht)
  have hscores := map_score_selectFinalCandidates expandVia bridges order true (hkeys.of_map _) hlast
  refine ⟨hscores, fun hdistinct => eq_of_map_eq hscores fun a ha b hb => ?_, ?_⟩
  · exact List.inj_on_of_nodup_map hdistinct (mem_pool_of_mem_selectFinalCandidates (fun t => mem_of_mem_prune) ha)
      (mem_of_mem_prune hb)
  · rw [selectFinalCandidates_of_not (Or.inl rfl), prune_prune]

end

/-! ### A pool with a weaker neighbour -/

/-- The order that the elements were added in. -/
def SetOrder.insertion : SetOrder := ⟨id, .refl⟩

def siteTable (name datasource : String) (score : ℚ) : SearchedTable ℚ :=
  ⟨⟨"rwis", name, datasource, score⟩, "", "", ""⟩

def siteBridge : BridgeEntry := ⟨some "fk", some "rwis.a", some "rwis.b"⟩

theorem selectFinalCandidates_joinExpand_site :
    (selectFinalCandidates .ascii ["fk"] .insertion ⟨10, 17 / 20, 0, 1 / 100⟩ true [siteBridge]
        [siteTable "A" "" (9 / 10), siteTable "B" "" (1 / 2)]
        (pruneByScoreGap ⟨10, 17 / 20, 0, 1 / 100⟩ [siteTable "A" "" (9 / 10), siteTable "B" "" (1 / 2)])).map
          (fun t => t.score) = [9 / 10] := by
  rw [(selectFinalCandidates_joinExpand ["fk"] [siteBridge] .insertion ⟨10, 17 / 20, 0, 1 / 100⟩ (by decide +kernel)).1]
  decide +kernel

end RoboMeta
