/-
  Ranked lists: sorted by falling key, elements of equal key in the order they
  came in, and cut.

  An element stands before another one in `xs` if `[a, b] <+ xs`.

  * `before_ranked_iff`, `not_before_ranked_iff`: who stands before whom in a
    ranked list;
  * `filter_ranked`: ranking is stable;
  * `mem_take_ranked_iff`: an element survives the cut iff fewer than `k`
    elements outrank it.
-/
import Mathlib.Data.List.Nodup
import Mathlib.Data.List.Sort
import Mathlib.Data.List.TakeWhile
import Mathlib.Order.Defs.LinearOrder

universe u v

variable {α : Type u} {K : Type v} [LinearOrder K]

/-- `xs` by falling key, elements of equal key in their order. -/
def ranked (key : α → K) (xs : List α) : List α := xs.insertionSort fun a b => key b ≤ key a

/-- What puts `a` before `b` when `xs` is ranked. -/
def Outranks (key : α → K) (xs : List α) (a b : α) : Prop :=
  key b < key a ∨ key a = key b ∧ [a, b].Sublist xs

variable {key : α → K} {xs l₁ l₂ : List α} {a b : α} {k : ℕ}

/-! ## Standing before -/

theorem pair_sublist_iff (h : (l₁ ++ b :: l₂).Nodup) : [a, b].Sublist (l₁ ++ b :: l₂) ↔ a ∈ l₁ := by
  constructor
  · intro hab
    have hb : b ∉ l₂ := (List.nodup_cons.1 (List.nodup_append.1 h).2.1).1
    have hnot : ∀ x, ¬ [x, b].Sublist l₂ := fun x hx => hb (hx.subset (by simp))
    induction l₁ with
    | nil =>
      rcases List.sublist_cons_iff.1 hab with hab | ⟨r, hr, hr'⟩
      · exact absurd hab (hnot a)
      · obtain ⟨-, rfl⟩ := List.cons.inj hr
        exact absurd (hr'.subset (by simp)) hb
    | cons c l₁ ih =>
      rcases List.sublist_cons_iff.1 hab with hab | ⟨r, hr, -⟩
      · exact List.mem_cons_of_mem c (ih (List.nodup_cons.1 h).2 hab)
      · obtain ⟨rfl, -⟩ := List.cons.inj hr
        exact List.mem_cons_self
  · intro ha
    exact (List.singleton_sublist.2 ha).append (List.singleton_sublist.2 List.mem_cons_self)

theorem not_before_self (h : xs.Nodup) : ¬ [a, a].Sublist xs := fun ha => by
  simpa using ha.nodup h

theorem before_asymm (h : xs.Nodup) (hab : [a, b].Sublist xs) : ¬ [b, a].Sublist xs := by
  intro hba
  obtain ⟨l₁, l₂, rfl⟩ := List.append_of_mem (hab.subset (by simp : b ∈ [a, b]))
  have ha : a ∈ l₁ := (pair_sublist_iff h).1 hab
  obtain ⟨l₃, l₄, rfl⟩ := List.append_of_mem ha
  rw [List.append_assoc, List.cons_append] at hba h
  have hb : b ∈ l₃ := (pair_sublist_iff h).1 hba
  exact (List.disjoint_of_nodup_append h) hb (by simp)

theorem before_or (ha : a ∈ xs) (hb : b ∈ xs) (hne : a ≠ b) : [a, b].Sublist xs ∨ [b, a].Sublist xs := by
  obtain ⟨l₁, l₂, rfl⟩ := List.append_of_mem ha
  rcases List.mem_append.1 hb with hb | hb
  · exact Or.inr ((List.singleton_sublist.2 hb).append (List.singleton_sublist.2 List.mem_cons_self))
  · have hb : b ∈ l₂ := (List.mem_cons.1 hb).resolve_left (Ne.symm hne)
    refine Or.inl (List.Sublist.trans ?_ (List.sublist_append_right l₁ _))
    exact (List.singleton_sublist.2 hb).cons_cons a

open Classical in
theorem mem_take_iff (h : xs.Nodup) (hb : b ∈ xs) :
    b ∈ xs.take k ↔ (xs.filter fun a => [a, b].Sublist xs).length < k := by
  obtain ⟨l₁, l₂, rfl⟩ := List.append_of_mem hb
  have hfilter : ((l₁ ++ b :: l₂).filter fun a => [a, b].Sublist (l₁ ++ b :: l₂)) = l₁ := by
    have hdisjoint := List.disjoint_of_nodup_append h
    rw [List.filter_append, List.filter_eq_self.2 fun a ha => by simpa [pair_sublist_iff h] using ha,
      List.filter_eq_nil_iff.2 fun a ha => by
        simpa [pair_sublist_iff h] using fun ha' => hdisjoint ha' ha, List.append_nil]
  have hb₁ : b ∉ l₁ := fun hb => List.disjoint_of_nodup_append h hb List.mem_cons_self
  rw [hfilter]
  constructor
  · intro htake
    by_contra hlt
    rw [List.take_append_of_le_length (by omega)] at htake
    exact hb₁ (List.mem_of_mem_take htake)
  · intro hlt
    rw [List.take_append, show k - l₁.length = (k - l₁.length - 1) + 1 by omega, List.take_succ_cons]
    simp

theorem before_take_iff (h : xs.Nodup) : [a, b].Sublist (xs.take k) ↔ [a, b].Sublist xs ∧ b ∈ xs.take k := by
  constructor
  · exact fun hab => ⟨hab.trans (List.take_sublist k xs), hab.subset (by simp)⟩
  · rintro ⟨hab, hb⟩
    rw [← List.take_append_drop k xs] at hab h
    obtain ⟨l₁, l₂, hsplit⟩ := List.append_of_mem hb
    rw [hsplit, List.append_assoc, List.cons_append] at hab h
    have ha : a ∈ l₁ := (pair_sublist_iff h).1 hab
    rw [hsplit]
    exact (List.singleton_sublist.2 ha).append (List.singleton_sublist.2 List.mem_cons_self)

/-- Nowhere does `b` stand before `a` iff `a` comes first in every cut that has `b`. -/
theorem forall_take_iff (ha : a ∈ xs) (hb : b ∈ xs) (hne : a ≠ b) :
    (∀ k, b ∈ xs.take k → [a, b].Sublist (xs.take k) ∧ ¬ [b, a].Sublist (xs.take k)) ↔ ¬ [b, a].Sublist xs := by
  constructor
  · intro h
    have hall := h xs.length
    rw [List.take_length] at hall
    exact (hall hb).2
  · intro h k hbk
    have hnot : ¬ [b, a].Sublist (xs.take k) := fun hba => h (hba.trans (List.take_sublist k xs))
    have hak : a ∈ xs.take k := by
      rw [← List.take_append_drop k xs, List.mem_append] at ha
      refine ha.resolve_right fun hdrop => h ?_
      rw [← List.take_append_drop k xs]
      exact (List.singleton_sublist.2 hbk).append (List.singleton_sublist.2 hdrop)
    exact ⟨(before_or hak hbk hne).resolve_right hnot, hnot⟩

/-! ## Ranked lists -/

theorem perm_ranked (key : α → K) (xs : List α) : (ranked key xs).Perm xs := List.perm_insertionSort _ xs

theorem pairwise_ranked (key : α → K) (xs : List α) :
    (ranked key xs).Pairwise fun a b => key b ≤ key a :=
  haveI : Std.Total fun a b : α => key b ≤ key a := ⟨fun _ _ => le_total _ _⟩
  haveI : IsTrans α fun a b => key b ≤ key a := ⟨fun _ _ _ hab hbc => le_trans hbc hab⟩
  List.pairwise_insertionSort _ xs

theorem le_of_ranked_eq_cons {rest : List α} (h : ranked key xs = a :: rest) : a ∈ xs ∧ ∀ b ∈ xs, key b ≤ key a := by
  have hperm := perm_ranked key xs
  have hsorted := pairwise_ranked key xs
  rw [h] at hperm hsorted
  refine ⟨hperm.mem_iff.1 List.mem_cons_self, fun b hb => ?_⟩
  rcases List.mem_cons.1 (hperm.mem_iff.2 hb) with rfl | hb
  · exact le_rfl
  · exact List.rel_of_pairwise_cons hsorted hb

/-- The first element by ascending key. -/
theorem le_of_head?_insertionSort (h : (xs.insertionSort fun a b => key a ≤ key b).head? = some a) :
    a ∈ xs ∧ ∀ b ∈ xs, key a ≤ key b := by
  have : Std.Total fun a b : α => key a ≤ key b := ⟨fun _ _ => le_total _ _⟩
  have : IsTrans α fun a b => key a ≤ key b := ⟨fun _ _ _ hab hbc => le_trans hab hbc⟩
  have hperm := List.perm_insertionSort (fun a b => key a ≤ key b) xs
  have hsorted := List.pairwise_insertionSort (fun a b => key a ≤ key b) xs
  obtain ⟨rest, hrest⟩ := List.head?_eq_some_iff.1 h
  rw [hrest] at hperm hsorted
  refine ⟨hperm.mem_iff.1 List.mem_cons_self, fun b hb => ?_⟩
  rcases List.mem_cons.1 (hperm.mem_iff.2 hb) with rfl | hb
  · exact le_rfl
  · exact (List.pairwise_cons.1 hsorted).1 b hb

/-- Without equal keys, the order that the elements came in does not matter. -/
theorem ranked_eq_of_perm {ys : List α} (h : xs.Perm ys) (hinj : ∀ a ∈ xs, ∀ b ∈ xs, key a = key b → a = b) :
    ranked key xs = ranked key ys := by
  have hmem : ∀ {x}, x ∈ ranked key ys → x ∈ xs := fun hx => h.mem_iff.2 ((perm_ranked key ys).mem_iff.1 hx)
  refine List.Perm.eq_of_pairwise (fun a b ha hb hab hba => ?_) (pairwise_ranked key xs) (pairwise_ranked key ys)
    (((perm_ranked key xs).trans h).trans (perm_ranked key ys).symm)
  exact hinj a ((perm_ranked key xs).mem_iff.1 ha) b (hmem hb) (le_antisymm hba hab)

theorem ranked_of_pairwise (h : xs.Pairwise fun a b => key b ≤ key a) : ranked key xs = xs := h.insertionSort_eq

/-- Keys rank alike if they put the same later elements behind. -/
theorem ranked_congr_of_pairwise {key' : α → K} (h : xs.Pairwise fun a b => key b ≤ key a ↔ key' b ≤ key' a) :
    ranked key xs = ranked key' xs := by
  induction xs with
  | nil => rfl
  | cons x xs ih =>
    rw [List.pairwise_cons] at h
    have hinsert : ∀ ys : List α, (∀ y ∈ ys, y ∈ xs) →
        ys.orderedInsert (fun a b => key b ≤ key a) x = ys.orderedInsert (fun a b => key' b ≤ key' a) x := by
      intro ys hys
      induction ys with
      | nil => rfl
      | cons y ys ih =>
        have hiff := h.1 y (hys y List.mem_cons_self)
        rw [List.orderedInsert_cons, List.orderedInsert_cons, ih fun z hz => hys z (List.mem_cons_of_mem y hz)]
        simp only [hiff]
    have ih := ih h.2
    unfold ranked at ih ⊢
    rw [List.insertionSort_cons, List.insertionSort_cons, ← ih]
    exact hinsert _ fun y hy => (List.perm_insertionSort _ xs).mem_iff.1 hy

theorem ranked_eq_nil : ranked key xs = [] ↔ xs = [] := by
  rw [← List.length_eq_zero_iff, (perm_ranked key xs).length_eq, List.length_eq_zero_iff]

/-- The order that the elements came in does not matter for the keys. -/
theorem map_ranked_of_perm {ys : List α} (h : xs.Perm ys) :
    (ranked key xs).map key = (ranked key ys).map key := by
  have hpairwise : ∀ zs, ((ranked key zs).map key).Pairwise fun k k' => k' ≤ k := fun zs =>
    List.pairwise_map.2 (pairwise_ranked key zs)
  refine List.Perm.eq_of_pairwise (fun k k' _ _ hle hge => le_antisymm hge hle) (hpairwise xs) (hpairwise ys) ?_
  exact (((perm_ranked key xs).trans h).trans (perm_ranked key ys).symm).map key

theorem outranks_or (ha : a ∈ xs) (hb : b ∈ xs) (hne : a ≠ b) : Outranks key xs a b ∨ Outranks key xs b a := by
  rcases lt_trichotomy (key a) (key b) with hlt | heq | hlt
  · exact Or.inr (Or.inl hlt)
  · rcases before_or ha hb hne with hsub | hsub
    · exact Or.inl (Or.inr ⟨heq, hsub⟩)
    · exact Or.inr (Or.inr ⟨heq.symm, hsub⟩)
  · exact Or.inl (Or.inl hlt)

theorem before_ranked_of_outranks (ha : a ∈ xs) (hb : b ∈ xs) (hab : Outranks key xs a b) :
    [a, b].Sublist (ranked key xs) := by
  rcases hab with hlt | ⟨heq, hsub⟩
  · have hne : a ≠ b := by
      rintro rfl
      exact lt_irrefl _ hlt
    have hmem : ∀ {x}, x ∈ ranked key xs ↔ x ∈ xs := (perm_ranked key xs).mem_iff
    rcases before_or (hmem.2 ha) (hmem.2 hb) hne with h | h
    · exact h
    · have hle := List.rel_of_pairwise_cons ((pairwise_ranked key xs).sublist h) List.mem_cons_self
      exact absurd hlt (not_lt.2 hle)
  · exact List.pair_sublist_insertionSort heq.ge hsub

theorem before_ranked_iff (h : xs.Nodup) (ha : a ∈ xs) (hb : b ∈ xs) :
    [a, b].Sublist (ranked key xs) ↔ Outranks key xs a b := by
  refine ⟨fun hab => ?_, before_ranked_of_outranks ha hb⟩
  have hranked : (ranked key xs).Nodup := (perm_ranked key xs).nodup_iff.2 h
  have hne : a ≠ b := by
    rintro rfl
    exact not_before_self hranked hab
  exact (outranks_or ha hb hne).resolve_right fun hba =>
    before_asymm hranked hab (before_ranked_of_outranks hb ha hba)

theorem outranks_asymm (h : xs.Nodup) (hab : Outranks key xs a b) : ¬ Outranks key xs b a := by
  rintro (hlt | ⟨heq, hba⟩)
  · rcases hab with hgt | ⟨heq, -⟩
    · exact lt_asymm hlt hgt
    · exact hlt.ne heq
  · rcases hab with hlt | ⟨-, hab⟩
    · exact hlt.ne heq
    · exact before_asymm h hab hba

/-- A list in which every element outranks those after it is ranked. -/
theorem ranked_eq_of_outranks {ys : List α} (h : xs.Nodup) (hperm : ys.Perm xs)
    (hys : ys.Pairwise (Outranks key xs)) : ranked key xs = ys := by
  have hmem : ∀ {x}, x ∈ ranked key xs → x ∈ xs := (perm_ranked key xs).mem_iff.1
  have hranked : (ranked key xs).Pairwise (Outranks key xs) := List.pairwise_iff_forall_sublist.2 fun {a b} hab =>
    (before_ranked_iff h (hmem (hab.subset (by simp))) (hmem (hab.subset (by simp)))).1 hab
  refine List.Perm.eq_of_pairwise (fun a b _ _ hab hba => ?_) hranked hys ((perm_ranked key xs).trans hperm.symm)
  exact absurd hba (outranks_asymm h hab)

omit [LinearOrder K] in
/-- Without equal keys across two lists, the keys tell the elements. -/
theorem eq_of_map_eq {ys : List α} (h : xs.map key = ys.map key)
    (hinj : ∀ a ∈ xs, ∀ b ∈ ys, key a = key b → a = b) : xs = ys := by
  induction xs generalizing ys with
  | nil => exact (List.map_eq_nil_iff.1 h.symm).symm
  | cons x xs ih =>
    cases ys with
    | nil => cases h
    | cons y ys =>
      rw [List.map_cons, List.map_cons, List.cons.injEq] at h
      rw [hinj x List.mem_cons_self y List.mem_cons_self h.1]
      rw [ih h.2 fun a ha b hb => hinj a (List.mem_cons_of_mem x ha) b (List.mem_cons_of_mem y hb)]

/-- Elements of one key stand as they stood. -/
theorem filter_ranked (key : α → K) (xs : List α) (k : K) :
    ((ranked key xs).filter fun x => key x = k) = xs.filter fun x => key x = k := by
  induction xs with
  | nil => rfl
  | cons x xs ih =>
    have hcons : ranked key (x :: xs) = ((ranked key xs).takeWhile fun y => ¬ key y ≤ key x) ++
        x :: (ranked key xs).dropWhile fun y => ¬ key y ≤ key x :=
      List.orderedInsert_eq_take_drop _ x _
    rw [hcons, List.filter_append]
    by_cases hk : key x = k
    · -- what stands before `x` has a greater key
      have hnil : ((ranked key xs).takeWhile fun y => ¬ key y ≤ key x).filter (fun y => key y = k) = [] := by
        refine List.filter_eq_nil_iff.2 fun y hy => ?_
        have hlt := List.mem_takeWhile_imp hy
        simp only [decide_eq_true_eq, not_le] at hlt ⊢
        exact (hk ▸ hlt).ne'
      rw [← List.takeWhile_append_dropWhile (p := fun y => ¬ key y ≤ key x) (l := ranked key xs),
        List.filter_append, hnil, List.nil_append] at ih
      rw [hnil, List.nil_append, List.filter_cons_of_pos (by simpa using hk), ih,
        List.filter_cons_of_pos (by simpa using hk)]
    · rw [List.filter_cons_of_neg (by simpa using hk), List.filter_cons_of_neg (by simpa using hk), ← ih,
        ← List.filter_append, List.takeWhile_append_dropWhile]

theorem before_ranked_iff_of_eq (h : key a = key b) : [a, b].Sublist (ranked key xs) ↔ [a, b].Sublist xs := by
  have hfilter : [a, b].filter (fun x => key x = key b) = [a, b] := by simp [h]
  constructor
  · intro hab
    have hab := hab.filter fun x => decide (key x = key b)
    rw [hfilter, filter_ranked] at hab
    exact hab.trans List.filter_sublist
  · exact fun hab => List.pair_sublist_insertionSort h.ge hab

/-- No occurrence of `b` stands before one of `a`. -/
theorem not_before_ranked_iff (ha : a ∈ xs) (hb : b ∈ xs) :
    ¬ [b, a].Sublist (ranked key xs) ↔ key b < key a ∨ key a = key b ∧ ¬ [b, a].Sublist xs := by
  rcases lt_trichotomy (key a) (key b) with hlt | heq | hlt
  · have hab := before_ranked_of_outranks hb ha (Or.inl hlt : Outranks key xs b a)
    exact iff_of_false (not_not.2 hab) fun h => h.elim hlt.asymm fun h => hlt.ne h.1
  · rw [before_ranked_iff_of_eq heq.symm, heq]
    exact ⟨fun h => Or.inr ⟨rfl, h⟩, fun h => (h.resolve_left (lt_irrefl _)).2⟩
  · refine iff_of_true (fun hba => ?_) (Or.inl hlt)
    exact absurd hlt (not_lt.2 (List.rel_of_pairwise_cons ((pairwise_ranked key xs).sublist hba) List.mem_cons_self))

open Classical in
/-- **The cut of a ranked list.** -/
theorem mem_take_ranked_iff (h : xs.Nodup) (hb : b ∈ xs) :
    b ∈ (ranked key xs).take k ↔ (xs.filter fun a => Outranks key xs a b).length < k := by
  have hperm := perm_ranked key xs
  rw [mem_take_iff (hperm.nodup_iff.2 h) (hperm.mem_iff.2 hb), (hperm.filter _).length_eq]
  have hcongr : (xs.filter fun a => [a, b].Sublist (ranked key xs)) = xs.filter fun a => Outranks key xs a b :=
    List.filter_congr fun a ha => by rw [decide_eq_decide, before_ranked_iff h ha hb]
  rw [hcongr]

/-- Keys that rank alike put the same later elements behind. -/
theorem pairwise_of_ranked_eq {key' : α → K} (h : xs.Nodup) (heq : ranked key xs = ranked key' xs) :
    xs.Pairwise fun a b => key b ≤ key a ↔ key' b ≤ key' a := by
  refine List.pairwise_iff_forall_sublist.2 fun {a b} hab => ?_
  have ha : a ∈ xs := hab.subset (by simp)
  have hb : b ∈ xs := hab.subset (by simp)
  have hbefore : ∀ k : α → K, [a, b].Sublist (ranked k xs) ↔ k b ≤ k a := fun k => by
    rw [before_ranked_iff h ha hb, Outranks, and_iff_left hab, le_iff_lt_or_eq, eq_comm (a := k a)]
  rw [← hbefore key, heq, hbefore key']
