/-
  `_rows_to_code_label_pairs` of `services/entity_resolution.py`.

  The loop skips a row whose text `code|label` is that of an earlier one.

  * `rowsToCodeLabelPairs_eq`: the loop answers the first pair of every such text;
  * `joinedKey_eq_iff`: two pairs have one text iff they are equal or a bar in a
    part of the one is read as the bar between the parts of the other;
  * `rowsToCodeLabelPairs_eq_iff`: the answer is the distinct pairs, in the order
    of their first occurrence, iff no two pairs of the rows are such.
-/
import RoboMeta.Lib.Firsts
import RoboMeta.ResolveEntities

namespace RoboMeta

/-- The stripped code and label. -/
def CodeRow.pair (row : CodeRow) : String × String := (normalizeCode row.code, normalizeCode row.label)

/-- The pairs of the rows that have both parts. -/
def completePairs (rows : List CodeRow) : List (String × String) :=
  (rows.map CodeRow.pair).filter fun p => p.1 ≠ "" ∧ p.2 ≠ ""

/-- What distinctness is judged on. -/
def joinedKey (p : String × String) : String := p.1 ++ "|" ++ p.2

/-! ## The loop -/

/-- A row, given the keys that are seen and the pairs so far. -/
def pairStep (acc : List String × List (String × String)) (row : CodeRow) : List String × List (String × String) :=
  if row.pair.1 = "" ∨ row.pair.2 = "" ∨ joinedKey row.pair ∈ acc.1 then acc
  else (joinedKey row.pair :: acc.1, acc.2 ++ [row.pair])

theorem rowsToCodeLabelPairs_eq_foldl (rows : List CodeRow) :
    rowsToCodeLabelPairs rows = (rows.foldl pairStep ([], [])).2 := rfl

theorem completePairs_concat (rows : List CodeRow) (row : CodeRow) :
    completePairs (rows ++ [row]) =
      if row.pair.1 = "" ∨ row.pair.2 = "" then completePairs rows else completePairs rows ++ [row.pair] := by
  rw [completePairs, List.map_append, List.filter_append, ← completePairs, List.map_singleton]
  split_ifs with hrow
  · rcases hrow with hcode | hlabel
    · simp [hcode]
    · simp [hlabel]
  · push Not at hrow
    simp [hrow]

/-- The keys that are seen are those of the pairs read, and the answer so far has the first pair of each. -/
theorem foldl_pairStep (rows : List CodeRow) :
    (∀ k, k ∈ (rows.foldl pairStep ([], [])).1 ↔ k ∈ (completePairs rows).map joinedKey) ∧
      (rows.foldl pairStep ([], [])).2 = firsts joinedKey (completePairs rows) := by
  induction rows using List.reverseRecOn with
  | nil => exact ⟨fun k => Iff.rfl, rfl⟩
  | append_singleton rows row ih =>
    obtain ⟨hseen, hout⟩ := ih
    rw [List.foldl_append, List.foldl_cons, List.foldl_nil, completePairs_concat]
    generalize rows.foldl pairStep ([], []) = acc at hseen hout
    by_cases hblank : row.pair.1 = "" ∨ row.pair.2 = ""
    · rw [if_pos hblank, pairStep, if_pos (or_assoc.1 (Or.inl hblank))]
      exact ⟨hseen, hout⟩
    · rw [if_neg hblank, firsts_concat, ← hout]
      by_cases hkey : joinedKey row.pair ∈ acc.1
      · rw [pairStep, if_pos (or_assoc.1 (Or.inr hkey)), if_pos ((hseen _).1 hkey)]
        refine ⟨fun k => ?_, rfl⟩
        rw [hseen, List.map_append, List.mem_append, or_iff_left_of_imp]
        intro hk
        rw [List.mem_singleton.1 hk]
        exact (hseen _).1 hkey
      · have hstep : ¬ (row.pair.1 = "" ∨ row.pair.2 = "" ∨ joinedKey row.pair ∈ acc.1) := by
          rw [← or_assoc]
          exact not_or.2 ⟨hblank, hkey⟩
        rw [pairStep, if_neg hstep, if_neg (mt (hseen _).2 hkey)]
        refine ⟨fun k => ?_, rfl⟩
        rw [List.mem_cons, hseen, List.map_append, List.mem_append, or_comm]
        exact Iff.rfl.or List.mem_singleton.symm

theorem rowsToCodeLabelPairs_eq (rows : List CodeRow) :
    rowsToCodeLabelPairs rows = firsts joinedKey (completePairs rows) := by
  rw [rowsToCodeLabelPairs_eq_foldl]
  exact (foldl_pairStep rows).2

theorem nodup_rowsToCodeLabelPairs (rows : List CodeRow) : (rowsToCodeLabelPairs rows).Nodup := by
  rw [rowsToCodeLabelPairs_eq]
  exact (nodup_map_firsts joinedKey _).of_map

/-! ## The key -/

/-- A bar in the code of `q`, which is also in the label of `p`. -/
def BarShifted (p q : String × String) : Prop := ∃ mid, q.1 = p.1 ++ "|" ++ mid ∧ p.2 = mid ++ "|" ++ q.2

theorem BarShifted.ne {p q : String × String} (h : BarShifted p q) : p ≠ q := by
  obtain ⟨mid, hcode, -⟩ := h
  rintro rfl
  have hbar : "|".length = 1 := rfl
  have hlen := congrArg String.length hcode
  rw [String.length_append, String.length_append] at hlen
  omega

theorem joinedKey_eq_of_barShifted {p q : String × String} (h : BarShifted p q) : joinedKey p = joinedKey q := by
  obtain ⟨mid, hcode, hlabel⟩ := h
  simp only [joinedKey, hcode, hlabel, String.append_assoc]

/-- The shorter of the two codes. -/
theorem eq_or_barShifted {p q : String × String} (h : joinedKey p = joinedKey q) {rest : Text}
    (hcode : q.1.toList = p.1.toList ++ rest) : p = q ∨ BarShifted p q := by
  have hkey : p.1.toList ++ '|' :: p.2.toList = p.1.toList ++ (rest ++ '|' :: q.2.toList) := by
    rw [← List.append_assoc, ← hcode]
    simpa [joinedKey] using congrArg String.toList h
  cases rest with
  | nil =>
    left
    rw [List.append_nil] at hcode
    exact Prod.ext (String.toList_inj.1 hcode.symm) (String.toList_inj.1 (by simpa using hkey))
  | cons c mid =>
    right
    obtain ⟨hbar, hlabel⟩ := List.cons.inj (List.append_cancel_left hkey)
    refine ⟨String.ofList mid, String.toList_inj.1 ?_, String.toList_inj.1 ?_⟩
    · simp [hcode, ← hbar]
    · simp [hlabel]

theorem joinedKey_eq_iff (p q : String × String) :
    joinedKey p = joinedKey q ↔ p = q ∨ BarShifted p q ∨ BarShifted q p := by
  constructor
  · intro h
    have hlists : p.1.toList ++ ('|' :: p.2.toList) = q.1.toList ++ ('|' :: q.2.toList) := by
      simpa [joinedKey] using congrArg String.toList h
    obtain ⟨rest, hcode, -⟩ | ⟨rest, hcode, -⟩ := List.append_eq_append_iff.1 hlists
    · exact (eq_or_barShifted h hcode).imp_right Or.inl
    · exact (eq_or_barShifted h.symm hcode).imp Eq.symm Or.inr
  · rintro (rfl | hbar | hbar)
    · rfl
    · exact joinedKey_eq_of_barShifted hbar
    · exact (joinedKey_eq_of_barShifted hbar).symm

/-- The distinct pairs with both parts, each at its first occurrence. -/
def distinctPairs (rows : List CodeRow) : List (String × String) := firsts id (completePairs rows)

/-- **Deduplication**: no pair is lost iff the rows have no two pairs of one text. -/
theorem rowsToCodeLabelPairs_eq_iff (rows : List CodeRow) :
    rowsToCodeLabelPairs rows = distinctPairs rows ↔
      ∀ p ∈ completePairs rows, ∀ q ∈ completePairs rows, ¬ BarShifted p q := by
  rw [rowsToCodeLabelPairs_eq, distinctPairs]
  constructor
  · intro heq p hp q hq hbar
    -- a text of two pairs leaves fewer first ones
    refine absurd (congrArg List.length heq) (length_firsts_lt id joinedKey fun hkeys => ?_).ne
    exact hbar.ne (hkeys p hp q hq (joinedKey_eq_of_barShifted hbar))
  · intro hbars
    refine firsts_congr fun p hp q hq => ?_
    rw [joinedKey_eq_iff]
    constructor
    · rintro (rfl | hbar | hbar)
      · rfl
      · exact absurd hbar (hbars p hp q hq)
      · exact absurd hbar (hbars q hq p hp)
    · intro hpq
      exact Or.inl hpq

/-- Two different pairs, the second of which is lost. -/
theorem rowsToCodeLabelPairs_collision :
    ¬ ∀ rows : List CodeRow, rowsToCodeLabelPairs rows = distinctPairs rows := by
  intro h
  have hrows := h [⟨some "a|b", some "c"⟩, ⟨some "a", some "b|c"⟩]
  revert hrows
  decide

end RoboMeta
