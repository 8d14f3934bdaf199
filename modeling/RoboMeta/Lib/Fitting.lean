/-
  The longest initial part of a list that fits.

  What fits may be any property of lists that an initial part inherits.  Taking
  the elements one by one as long as they fit finds the longest part
  (`longestFit_takeFitting`), also piece by piece (`takeFitting_append`).
  `WithinCaps` is the property of having so many elements of so great a total
  size.
-/
import Mathlib.Algebra.Order.Ring.Int
import Mathlib.Data.List.Infix

universe u

variable {α : Type u}

/-! ## Taking what fits -/

/-- `kept` is the longest initial part of `xs` that fits, and `cut` tells whether any element is left out. -/
structure LongestFit (Fits : List α → Prop) (xs kept : List α) (cut : Bool) : Prop where
  initial : kept <+: xs
  fits : Fits kept
  longest : ∀ ys, ys <+: xs → Fits ys → ys.length ≤ kept.length
  cut : cut = true ↔ kept.length < xs.length

section
variable {Fits : List α → Prop} {xs kept kept' : List α} {cut cut' : Bool}

theorem LongestFit.unique (h : LongestFit Fits xs kept cut) (h' : LongestFit Fits xs kept' cut') :
    kept = kept' ∧ cut = cut' := by
  have hlength : kept.length = kept'.length :=
    le_antisymm (h'.longest kept h.initial h.fits) (h.longest kept' h'.initial h'.fits)
  refine ⟨(List.prefix_of_prefix_length_le h.initial h'.initial hlength.le).eq_of_length hlength, ?_⟩
  rw [Bool.eq_iff_iff, h.cut, h'.cut, hlength]

theorem LongestFit.of_fits (h : Fits xs) : LongestFit Fits xs xs false where
  initial := List.prefix_rfl
  fits := h
  longest _ hys _ := hys.length_le
  cut := by simp

theorem LongestFit.congr {Fits' : List α → Prop} (h : LongestFit Fits xs kept cut)
    (hiff : ∀ ys, ys <+: xs → (Fits ys ↔ Fits' ys)) : LongestFit Fits' xs kept cut where
  initial := h.initial
  fits := (hiff kept h.initial).1 h.fits
  longest ys hys hfits := h.longest ys hys ((hiff ys hys).2 hfits)
  cut := h.cut

/-- With a cap on their number, the elements can be cut before they are taken. -/
theorem LongestFit.capped {n : ℕ} (h : LongestFit Fits (xs.take n) kept cut) :
    LongestFit (fun ys => ys.length ≤ n ∧ Fits ys) xs kept (decide (kept.length < xs.length)) where
  initial := h.initial.trans <| List.take_prefix n xs
  fits := ⟨h.initial.length_le.trans (List.length_take_le n xs), h.fits⟩
  longest ys hys hfits := by
    refine h.longest ys ?_ hfits.2
    rw [List.prefix_iff_eq_take.1 hys]
    exact List.take_prefix_take_left hfits.1
  cut := decide_eq_true_iff

/-- What fits may be told by a part of the elements. -/
theorem LongestFit.map {β : Type*} (f : α → β) {Fits : List β → Prop}
    (h : LongestFit (fun ys => Fits (ys.map f)) xs kept cut) : LongestFit Fits (xs.map f) (kept.map f) cut where
  initial := h.initial.map f
  fits := h.fits
  longest ys hys hfits := by
    obtain ⟨zs, hzs, rfl⟩ := List.prefix_map_iff.1 hys
    rw [List.length_map, List.length_map]
    exact h.longest zs hzs hfits
  cut := by rw [h.cut, List.length_map, List.length_map]

variable (hinitial : ∀ {xs ys : List α}, xs <+: ys → Fits ys → Fits xs)
include hinitial

theorem LongestFit.of_not_fits {x : α} {rest : List α} (h : Fits kept) (hnot : ¬ Fits (kept ++ [x])) :
    LongestFit Fits (kept ++ x :: rest) kept true where
  initial := List.prefix_append _ _
  fits := h
  longest ys hys hfits := by
    by_contra! hlong
    have hlength : (kept ++ [x]).length ≤ ys.length := by
      rw [List.length_append, List.length_singleton]
      exact hlong
    have hnext : kept ++ [x] <+: kept ++ x :: rest := ⟨rest, (List.append_cons kept x rest).symm⟩
    exact hnot (hinitial (List.prefix_of_prefix_length_le hnext hys hlength) hfits)
  cut := by simp

omit hinitial in
/-- The elements as long as they fit behind those that are kept, and whether one does not. -/
def takeFitting (Fits : List α → Prop) [DecidablePred Fits] (kept : List α) : List α → List α × Bool
  | [] => (kept, false)
  | x :: xs => if Fits (kept ++ [x]) then takeFitting Fits (kept ++ [x]) xs else (kept, true)

variable [DecidablePred Fits]

theorem longestFit_takeFitting (h : Fits kept) (xs : List α) :
    LongestFit Fits (kept ++ xs) (takeFitting Fits kept xs).1 (takeFitting Fits kept xs).2 := by
  induction xs generalizing kept with
  | nil =>
    rw [List.append_nil]
    exact .of_fits h
  | cons x xs ih =>
    rw [takeFitting]
    split_ifs with hfits
    · have hrest := ih hfits
      rwa [List.append_assoc] at hrest
    · exact .of_not_fits hinitial h hfits

omit hinitial in
/-- Taking the elements piece by piece, until one does not fit. -/
theorem takeFitting_append (kept xs ys : List α) :
    takeFitting Fits kept (xs ++ ys) =
      if (takeFitting Fits kept xs).2 then takeFitting Fits kept xs
      else takeFitting Fits (takeFitting Fits kept xs).1 ys := by
  induction xs generalizing kept with
  | nil => rfl
  | cons x xs ih =>
    rw [List.cons_append, takeFitting, takeFitting]
    split_ifs with hfits hcut hcut
    · rw [ih, if_pos hcut]
    · rw [ih, if_neg hcut]
    · rfl
    · exact absurd rfl hcut

end

/-! ## Caps -/

section
variable (size : α → ℕ) (maxLength maxTotal : ℤ)

/-- No more elements than one cap, of no greater total size than the other; nothing at all is always within. -/
def WithinCaps (xs : List α) : Prop :=
  xs = [] ∨ (xs.length : ℤ) ≤ maxLength ∧ ((xs.map size).sum : ℤ) ≤ maxTotal

instance : DecidablePred (WithinCaps size maxLength maxTotal) := fun xs =>
  decidable_of_iff (xs.isEmpty = true ∨ (xs.length : ℤ) ≤ maxLength ∧ ((xs.map size).sum : ℤ) ≤ maxTotal)
    (by rw [WithinCaps, List.isEmpty_iff])

variable {size maxLength maxTotal} {xs ys : List α}

/-- For caps that allow for nothing at all, the exception is none. -/
theorem withinCaps_iff (hlength : 0 ≤ maxLength) (htotal : 0 ≤ maxTotal) :
    WithinCaps size maxLength maxTotal xs ↔ (xs.length : ℤ) ≤ maxLength ∧ ((xs.map size).sum : ℤ) ≤ maxTotal := by
  refine or_iff_right_of_imp ?_
  rintro rfl
  exact ⟨hlength, htotal⟩

theorem withinCaps_concat {x : α} : WithinCaps size maxLength maxTotal (xs ++ [x]) ↔
    (xs.length : ℤ) < maxLength ∧ ((xs.map size).sum + size x : ℤ) ≤ maxTotal := by
  have hne : xs ++ [x] ≠ [] := List.append_ne_nil_of_right_ne_nil xs (List.cons_ne_nil x [])
  rw [WithinCaps, or_iff_right hne, List.length_append, List.length_singleton, List.map_append, List.sum_append,
    List.map_singleton, List.sum_singleton]
  omega

theorem WithinCaps.initial (h : xs <+: ys) (hys : WithinCaps size maxLength maxTotal ys) :
    WithinCaps size maxLength maxTotal xs := by
  obtain ⟨rest, rfl⟩ := h
  rcases hys with hnil | ⟨hlength, htotal⟩
  · exact Or.inl (List.append_eq_nil_iff.1 hnil).1
  · rw [List.length_append] at hlength
    rw [List.map_append, List.sum_append] at htotal
    exact Or.inr ⟨by omega, by omega⟩

end
