/-
  Filtering the nearest elements against the nearest elements of a filter.

  An index answers with the `k` elements of greatest key, in whatever order and
  with ties broken as it likes (`Nearest`); what a condition then leaves of them
  is compared with the elements of greatest key among those that meet it.

  * `Nearest.initial`: the keys of the former, ranked, are the first keys of the
    latter;
  * `Nearest.length_filter_iff`: they are as many iff the condition drops no hit,
    or every element that meets it is a hit;
  * `nearest_take_ranked`: a full search is such an index.
-/
import RoboMeta.Lib.Ranking

universe u v

variable {α : Type u} {K : Type v} [LinearOrder K] [DecidableEq α]

/-- The hits are `k` elements, or all, and no other element has a greater key than one of them. -/
structure Nearest (key : α → K) (k : ℕ) (xs hits : List α) : Prop where
  nodup : hits.Nodup
  subset : ∀ a ∈ hits, a ∈ xs
  length : hits.length = min k xs.length
  best : ∀ a ∈ hits, ∀ b ∈ xs, b ∉ hits → key b ≤ key a

variable {key : α → K} {k : ℕ} {xs hits : List α} {p : α → Bool}

/-- What meets a condition is hit or missed. -/
theorem filter_perm_hits (hxs : xs.Nodup) (hhits : hits.Nodup) (hsub : ∀ a ∈ hits, a ∈ xs) :
    (xs.filter p).Perm (hits.filter p ++ xs.filter fun a => p a && a ∉ hits) := by
  have hdisjoint : (hits.filter p).Disjoint (xs.filter fun a => p a && a ∉ hits) := by
    intro a ha ha'
    simp only [List.mem_filter, Bool.and_eq_true, decide_eq_true_eq] at ha ha'
    exact ha'.2.2 ha.1
  refine (List.perm_ext_iff_of_nodup (hxs.filter _) ((hhits.filter _).append (hxs.filter _) hdisjoint)).2 fun a => ?_
  simp only [List.mem_filter, List.mem_append, Bool.and_eq_true, decide_eq_true_eq]
  constructor
  · rintro ⟨ha, hp⟩
    by_cases hhit : a ∈ hits
    · exact Or.inl ⟨hhit, hp⟩
    · exact Or.inr ⟨ha, hp, hhit⟩
  · rintro (⟨ha, hp⟩ | ⟨ha, hp, -⟩)
    · exact ⟨hsub a ha, hp⟩
    · exact ⟨ha, hp⟩

/-- **The filtered hits come first.** -/
theorem Nearest.initial (h : Nearest key k xs hits) (hxs : xs.Nodup) {ks ks' : List K}
    (hks : ks.Pairwise fun a b => b ≤ a) (hperm : ks.Perm ((hits.filter p).map key))
    (hks' : ks'.Pairwise fun a b => b ≤ a) (hperm' : ks'.Perm ((xs.filter p).map key)) : ks <+: ks' := by
  have htotal : Std.Total fun a b : K => b ≤ a := ⟨fun _ _ => le_total _ _⟩
  have htrans : IsTrans K fun a b => b ≤ a := ⟨fun _ _ _ hab hbc => le_trans hbc hab⟩
  let missed := (xs.filter fun a => p a && a ∉ hits).map key
  have hmissed := List.perm_insertionSort (fun a b : K => b ≤ a) missed
  refine ⟨missed.insertionSort fun a b => b ≤ a, ?_⟩
  refine List.Perm.eq_of_pairwise (fun a b _ _ hab hba => le_antisymm hba hab) ?_ hks' ?_
  · refine List.pairwise_append.2 ⟨hks, List.pairwise_insertionSort _ _, fun a ha b hb => ?_⟩
    obtain ⟨x, hx, rfl⟩ := List.mem_map.1 (hperm.mem_iff.1 ha)
    obtain ⟨y, hy, rfl⟩ := List.mem_map.1 (hmissed.mem_iff.1 hb)
    simp only [List.mem_filter, Bool.and_eq_true, decide_eq_true_eq] at hx hy
    exact h.best x hx.1 y hy.1 hy.2.2
  · calc ks ++ missed.insertionSort (fun a b => b ≤ a)
        |>.Perm ((hits.filter p).map key ++ missed) := hperm.append hmissed
      _ = (hits.filter p ++ xs.filter fun a => p a && a ∉ hits).map key := List.map_append.symm
      _ |>.Perm ((xs.filter p).map key) := ((filter_perm_hits hxs h.nodup h.subset).map key).symm
      _ |>.Perm ks' := hperm'.symm

/-- **When the filter costs nothing.** -/
theorem Nearest.length_filter_iff (h : Nearest key k xs hits) (hxs : xs.Nodup) :
    (hits.filter p).length = min k (xs.filter p).length ↔ (∀ a ∈ hits, p a) ∨ ∀ a ∈ xs, p a → a ∈ hits := by
  have hsplit := (filter_perm_hits (p := p) hxs h.nodup h.subset).length_eq
  rw [List.length_append] at hsplit
  have hle : (hits.filter p).length ≤ hits.length := List.length_filter_le _ _
  have hlength := h.length
  have hall : (∀ a ∈ hits, p a) ↔ (hits.filter p).length = hits.length := by
    rw [List.length_filter_eq_length_iff]
  have hmissed : (∀ a ∈ xs, p a → a ∈ hits) ↔ (xs.filter fun a => p a && a ∉ hits).length = 0 := by
    rw [List.length_eq_zero_iff, List.filter_eq_nil_iff]
    refine forall₂_congr fun a _ => ?_
    simp only [Bool.and_eq_true, decide_eq_true_eq, not_and, not_not]
  rw [hall, hmissed]
  have hxsle : (xs.filter p).length ≤ xs.length := List.length_filter_le _ _
  constructor
  · intro heq
    by_cases hk : k ≤ (xs.filter p).length
    · exact Or.inl (by omega)
    · exact Or.inr (by omega)
  · rintro (heq | heq)
    · omega
    · omega

omit [DecidableEq α] in
/-- A full search. -/
theorem nearest_take_ranked (key : α → K) (k : ℕ) (hxs : xs.Nodup) : Nearest key k xs ((ranked key xs).take k) where
  nodup := ((perm_ranked key xs).nodup_iff.2 hxs).sublist (List.take_sublist k _)
  subset a ha := (perm_ranked key xs).mem_iff.1 (List.mem_of_mem_take ha)
  length := by rw [List.length_take, (perm_ranked key xs).length_eq]
  best a ha b hb hmiss := by
    have hb := (perm_ranked key xs).mem_iff.2 hb
    rw [← List.take_append_drop k (ranked key xs), List.mem_append] at hb
    have hsorted := pairwise_ranked key xs
    rw [← List.take_append_drop k (ranked key xs)] at hsorted
    exact (List.pairwise_append.1 hsorted).2.2 a ha b (hb.resolve_left hmiss)
