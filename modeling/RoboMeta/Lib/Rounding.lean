/-
  Arithmetic that rounds.

  Every sum and product is rounded to a number of the format.  A rounding is
  monotone and leaves the numbers of the format as they are; more is not needed
  here.  The sum of a list then depends on its order, but still grows with its
  terms.

  * `RoundedArithmetic`: the laws that survive; ordered fields have them;
  * `runningSum_le`: a sum grows with its terms, and with further ones that are
    not negative;
  * `Rounding.Number`: the numbers of a format, with rounded operations.
-/
import Mathlib.Algebra.Order.Field.Basic
import Mathlib.Data.List.Forall2
import Mathlib.Data.List.Induction
import Mathlib.Data.Rat.Cast.OfScientific

/-- What a monotone rounding leaves of the laws of an ordered field. -/
class RoundedArithmetic (F : Type*) [AddZeroClass F] [MulOneClass F] [LinearOrder F] : Prop where
  add_le_add {a b c d : F} : a ≤ b → c ≤ d → a + c ≤ b + d
  mul_comm (a b : F) : a * b = b * a
  mul_zero (a : F) : a * 0 = 0
  mul_le_mul {a b c : F} : 0 ≤ c → a ≤ b → c * a ≤ c * b
  zero_lt_one : (0 : F) < 1

/-- Exact numbers need no rounding. -/
instance {K : Type*} [Field K] [LinearOrder K] [IsStrictOrderedRing K] : RoundedArithmetic K where
  add_le_add := add_le_add
  mul_comm := mul_comm
  mul_zero := mul_zero
  mul_le_mul hc hab := mul_le_mul_of_nonneg_left hab hc
  zero_lt_one := zero_lt_one

/-! ## Running sums -/

/-- The sum of a list, from left to right. -/
def runningSum {F : Type*} [Zero F] [Add F] (xs : List F) : F := xs.foldl (· + ·) 0

@[simp] theorem runningSum_nil {F : Type*} [Zero F] [Add F] : runningSum ([] : List F) = 0 := rfl

theorem runningSum_concat {F : Type*} [Zero F] [Add F] (xs : List F) (x : F) :
    runningSum (xs ++ [x]) = runningSum xs + x := by
  rw [runningSum, List.foldl_append]
  rfl

theorem runningSum_singleton {F : Type*} [AddZeroClass F] (x : F) : runningSum [x] = x := zero_add x

theorem runningSum_eq_zero {F : Type*} [AddZeroClass F] {xs : List F} (h : ∀ x ∈ xs, x = 0) : runningSum xs = 0 := by
  induction xs using List.reverseRecOn with
  | nil => rfl
  | append_singleton xs x ih =>
    rw [runningSum_concat, ih fun y hy => h y (List.mem_append_left _ hy),
      h x (List.mem_append_right _ (List.mem_singleton_self x)), add_zero]

/-- In exact numbers the order of the terms does not matter. -/
theorem runningSum_eq_sum {M : Type*} [AddMonoid M] (xs : List M) : runningSum xs = xs.sum := by
  induction xs using List.reverseRecOn with
  | nil => rfl
  | append_singleton xs x ih => rw [runningSum_concat, ih, List.sum_append, List.sum_singleton]

section
variable {F : Type*} [AddZeroClass F] [MulOneClass F] [LinearOrder F] [RoundedArithmetic F] {xs ys : List F} {a b x : F}

theorem RoundedArithmetic.le_add (hx : 0 ≤ x) (hab : a ≤ b) : a ≤ b + x := by
  calc a = a + 0 := (add_zero a).symm
    _ ≤ b + x := RoundedArithmetic.add_le_add hab hx

theorem foldl_add_le (h : List.SublistForall₂ (· ≤ ·) xs ys) (hys : ∀ y ∈ ys, 0 ≤ y) (hab : a ≤ b) :
    xs.foldl (· + ·) a ≤ ys.foldl (· + ·) b := by
  induction h generalizing a b with
  | nil =>
    rename_i ys
    induction ys generalizing b with
    | nil => exact hab
    | cons y ys ih =>
      exact ih (fun z hz => hys z (List.mem_cons_of_mem y hz))
        (RoundedArithmetic.le_add (hys y List.mem_cons_self) hab)
  | cons hxy _ ih =>
    exact ih (fun z hz => hys z (List.mem_cons_of_mem _ hz)) (RoundedArithmetic.add_le_add hab hxy)
  | cons_right _ ih =>
    exact ih (fun z hz => hys z (List.mem_cons_of_mem _ hz))
      (RoundedArithmetic.le_add (hys _ List.mem_cons_self) hab)

/-- **A sum grows** with its terms, and with further terms that are not negative. -/
theorem runningSum_le (h : List.SublistForall₂ (· ≤ ·) xs ys) (hys : ∀ y ∈ ys, 0 ≤ y) :
    runningSum xs ≤ runningSum ys := foldl_add_le h hys le_rfl

theorem runningSum_nonneg (h : ∀ x ∈ xs, 0 ≤ x) : 0 ≤ runningSum xs := runningSum_le (.nil) h

theorem le_runningSum (h : ∀ x ∈ xs, 0 ≤ x) (hx : x ∈ xs) : x ≤ runningSum xs := by
  have hsub : List.SublistForall₂ (· ≤ ·) [x] xs :=
    List.sublistForall₂_iff.2 ⟨[x], .cons le_rfl .nil, List.singleton_sublist.2 hx⟩
  calc x = runningSum [x] := (runningSum_singleton x).symm
    _ ≤ runningSum xs := runningSum_le hsub h

end

/-! ## The numbers of a format -/

/-- A monotone rounding to numbers among which 0 and 1 are. -/
structure Rounding (K : Type*) [Field K] [LinearOrder K] where
  round : K → K
  mono : Monotone round
  round_round (x : K) : round (round x) = round x
  round_zero : round 0 = 0
  round_one : round 1 = 1

namespace Rounding
variable {K : Type*} [Field K] [LinearOrder K] (R : Rounding K)

/-- The numbers that are left as they are. -/
@[ext] structure Number where
  val : K
  round_val : R.round val = val

instance : LinearOrder R.Number := LinearOrder.lift' Number.val fun _ _ => Number.ext

/-- The nearest number of the format. -/
def ofExact (x : K) : R.Number := ⟨R.round x, R.round_round x⟩

instance : AddZeroClass R.Number where
  zero := ⟨0, R.round_zero⟩
  add a b := R.ofExact (a.val + b.val)
  zero_add a := Number.ext ((congrArg R.round (zero_add a.val)).trans a.round_val)
  add_zero a := Number.ext ((congrArg R.round (add_zero a.val)).trans a.round_val)

instance : MulOneClass R.Number where
  one := ⟨1, R.round_one⟩
  mul a b := R.ofExact (a.val * b.val)
  one_mul a := Number.ext ((congrArg R.round (one_mul a.val)).trans a.round_val)
  mul_one a := Number.ext ((congrArg R.round (mul_one a.val)).trans a.round_val)

instance : OfScientific R.Number :=
  ⟨fun mantissa sign exponent => R.ofExact (OfScientific.ofScientific mantissa sign exponent)⟩

@[simp] theorem val_zero : (0 : R.Number).val = 0 := rfl

theorem val_add (a b : R.Number) : (a + b).val = R.round (a.val + b.val) := rfl

theorem le_iff {a b : R.Number} : a ≤ b ↔ a.val ≤ b.val := Iff.rfl

instance [IsStrictOrderedRing K] : RoundedArithmetic R.Number where
  add_le_add hab hcd := R.mono (add_le_add (R.le_iff.1 hab) (R.le_iff.1 hcd))
  mul_comm a b := Number.ext (congrArg R.round (mul_comm a.val b.val))
  mul_zero a := Number.ext ((congrArg R.round (mul_zero a.val)).trans R.round_zero)
  mul_le_mul hc hab := R.mono (mul_le_mul_of_nonneg_left (R.le_iff.1 hab) (R.le_iff.1 hc))
  zero_lt_one := zero_lt_one' K

end Rounding
