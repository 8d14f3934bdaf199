/-
  The first element of every key, in their order.

  * `firsts_concat`: one more element counts if its key is new;
  * `firsts_congr`: two keys that tell the same elements apart;
  * `length_firsts_lt`: a key that tells fewer elements apart than a finer one.
-/
import Mathlib.Data.Finset.Card
import Mathlib.Data.List.Nodup

universe u

variable {α : Type u} {κ κ' : Type*} [DecidableEq κ] [DecidableEq κ'] {key : α → κ} {key' : α → κ'} {xs : List α}
  {x : α}

/-- The elements whose key no earlier one has. -/
def firsts (key : α → κ) : List α → List α
  | [] => []
  | x :: xs => x :: (firsts key xs).filter fun y => key y ≠ key x

theorem mem_of_mem_firsts (h : x ∈ firsts key xs) : x ∈ xs := by
  induction xs with
  | nil => exact h
  | cons y xs ih =>
    rcases List.mem_cons.1 h with rfl | h
    · exact List.mem_cons_self
    · exact List.mem_cons_of_mem y (ih (List.mem_filter.1 h).1)

theorem firsts_sublist (key : α → κ) (xs : List α) : (firsts key xs).Sublist xs := by
  induction xs with
  | nil => exact List.Sublist.slnil
  | cons x xs ih => exact (List.filter_sublist.trans ih).cons_cons x

/-- Every key is that of a first element. -/
theorem exists_mem_firsts (key : α → κ) (h : x ∈ xs) : ∃ y ∈ firsts key xs, key y = key x := by
  induction xs with
  | nil => exact absurd h List.not_mem_nil
  | cons z xs ih =>
    by_cases hz : key z = key x
    · exact ⟨z, List.mem_cons_self, hz⟩
    · have hx : x ∈ xs := (List.mem_cons.1 h).resolve_left fun hxz => hz (hxz ▸ rfl)
      obtain ⟨y, hy, hkey⟩ := ih hx
      refine ⟨y, List.mem_cons_of_mem z (List.mem_filter.2 ⟨hy, ?_⟩), hkey⟩
      simpa [hkey] using Ne.symm hz

theorem mem_firsts_id {x : κ} {xs : List κ} : x ∈ firsts id xs ↔ x ∈ xs := by
  refine ⟨mem_of_mem_firsts, fun h => ?_⟩
  obtain ⟨y, hy, heq⟩ := exists_mem_firsts id h
  obtain rfl : y = x := heq
  exact hy

theorem nodup_map_firsts (key : α → κ) (xs : List α) : ((firsts key xs).map key).Nodup := by
  induction xs with
  | nil => exact List.nodup_nil
  | cons x xs ih =>
    rw [firsts, List.map_cons, List.nodup_cons]
    refine ⟨?_, ih.sublist (List.filter_sublist.map key)⟩
    simp

theorem firsts_concat (key : α → κ) (xs : List α) (x : α) :
    firsts key (xs ++ [x]) = if key x ∈ xs.map key then firsts key xs else firsts key xs ++ [x] := by
  induction xs with
  | nil => simp [firsts]
  | cons y xs ih =>
    rw [List.cons_append, firsts, ih, firsts, List.map_cons]
    by_cases hy : key x = key y
    · rw [if_pos (List.mem_cons.2 (Or.inl hy))]
      split_ifs
      · rfl
      · simp [hy]
    · have hmem : key x ∈ key y :: xs.map key ↔ key x ∈ xs.map key := by simp [hy]
      simp only [hmem]
      split_ifs
      · rfl
      · simp [hy]

theorem firsts_append (key : α → κ) (xs ys : List α) :
    firsts key (xs ++ ys) = firsts key xs ++ (firsts key ys).filter fun y => key y ∉ xs.map key := by
  induction xs with
  | nil => simp [firsts]
  | cons x xs ih =>
    rw [List.cons_append, firsts, ih, firsts, List.filter_append, List.filter_filter, List.cons_append]
    congr 2
    refine List.filter_congr fun y _ => ?_
    simp [not_or]

/-- An element whose key an earlier one has does not count. -/
theorem firsts_append_cons_of_mem {ys : List α} (h : key x ∈ xs.map key) :
    firsts key (xs ++ x :: ys) = firsts key (xs ++ ys) := by
  rw [firsts_append, firsts_append, firsts, List.filter_cons_of_neg (by simpa using h), List.filter_filter]
  congr 1
  refine List.filter_congr fun y _ => ?_
  by_cases hy : key y = key x
  · simp only [hy, h, not_true_eq_false, decide_false, Bool.false_and]
  · simp only [ne_eq, hy, not_false_eq_true, decide_true, Bool.and_true]

theorem firsts_of_nodup (h : (xs.map key).Nodup) : firsts key xs = xs := by
  induction xs with
  | nil => rfl
  | cons x xs ih =>
    rw [List.map_cons, List.nodup_cons] at h
    rw [firsts, ih h.2, List.filter_eq_self.2 fun y hy => ?_]
    exact decide_eq_true fun hkey => h.1 (hkey ▸ List.mem_map_of_mem hy)

theorem firsts_congr (h : ∀ a ∈ xs, ∀ b ∈ xs, key a = key b ↔ key' a = key' b) : firsts key xs = firsts key' xs := by
  induction xs with
  | nil => rfl
  | cons x xs ih =>
    rw [firsts, firsts, ih fun a ha b hb => h a (List.mem_cons_of_mem x ha) b (List.mem_cons_of_mem x hb)]
    refine congrArg (x :: ·) (List.filter_congr fun y hy => ?_)
    simp [h y (List.mem_cons_of_mem x (mem_of_mem_firsts hy)) x List.mem_cons_self]

theorem firsts_map {β : Type*} (f : β → α) (ys : List β) :
    firsts key (ys.map f) = (firsts (fun y => key (f y)) ys).map f := by
  induction ys with
  | nil => rfl
  | cons y ys ih => rw [List.map_cons, firsts, firsts, ih, List.map_cons, List.filter_map]; rfl

theorem length_firsts (key : α → κ) (xs : List α) : (firsts key xs).length = (xs.map key).toFinset.card := by
  have hset : (xs.map key).toFinset = ((firsts key xs).map key).toFinset := by
    ext k
    simp only [List.mem_toFinset, List.mem_map]
    constructor
    · rintro ⟨x, hx, rfl⟩
      exact exists_mem_firsts key hx
    · rintro ⟨x, hx, rfl⟩
      exact ⟨x, mem_of_mem_firsts hx, rfl⟩
  rw [hset, List.toFinset_card_of_nodup (nodup_map_firsts key xs), List.length_map]

/-- **A coarser key** has fewer first elements, unless it tells the elements apart as the finer one does. -/
theorem length_firsts_lt (key : α → κ) (f : κ → κ')
    (h : ¬ ∀ a ∈ xs, ∀ b ∈ xs, f (key a) = f (key b) → key a = key b) :
    (firsts (fun x => f (key x)) xs).length < (firsts key xs).length := by
  have himage : (xs.map fun x => f (key x)).toFinset = (xs.map key).toFinset.image f := by
    ext k
    simp
  rw [length_firsts, length_firsts, himage]
  refine lt_of_le_of_ne Finset.card_image_le fun heq => h fun a ha b hb => ?_
  have hinj := Finset.card_image_iff.1 heq
  exact hinj (by simpa using ⟨a, ha, rfl⟩) (by simpa using ⟨b, hb, rfl⟩)
