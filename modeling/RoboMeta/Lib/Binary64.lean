/-
  Binary64 numbers.

  A sum or product is rounded to the nearest number with 53 bits, in the middle
  between two of them to the one whose last bit is 0.  Exponents have no limits
  here, so nothing overflows and there are no subnormal numbers.

  * `roundMagnitude_eq`: in a binade, rounding is rounding to its last place;
  * `Rounding.binary64`: the rounding is monotone and leaves its numbers as they
    are.
-/
import Mathlib.Algebra.Order.BigOperators.Group.List
import Mathlib.Algebra.Order.Ring.Rat
import Mathlib.Data.Int.Log
import Mathlib.Data.Rat.Floor
import Mathlib.Tactic.Linarith
import Mathlib.Tactic.NormNum
import RoboMeta.Lib.Rounding

/-- The nearest integer, the even one in the middle. -/
def roundHalfEven (q : ℚ) : ℤ :=
  let n := ⌊q⌋
  if q - n < 1 / 2 then n else if 1 / 2 < q - n then n + 1 else if n % 2 = 0 then n else n + 1

theorem roundHalfEven_intCast (n : ℤ) : roundHalfEven n = n := by
  simp [roundHalfEven]

theorem roundHalfEven_mono {p q : ℚ} (hpq : p ≤ q) : roundHalfEven p ≤ roundHalfEven q := by
  have hfloor : ⌊p⌋ ≤ ⌊q⌋ := Int.floor_le_floor hpq
  rcases hfloor.eq_or_lt with heq | hlt
  · simp only [roundHalfEven, heq]
    split_ifs <;> first | omega | linarith
  · have hp : roundHalfEven p ≤ ⌊p⌋ + 1 := by
      unfold roundHalfEven
      dsimp only
      split_ifs <;> omega
    have hq : ⌊q⌋ ≤ roundHalfEven q := by
      unfold roundHalfEven
      dsimp only
      split_ifs <;> omega
    omega

theorem abs_roundHalfEven_sub_le (q : ℚ) : |(roundHalfEven q : ℚ) - q| ≤ 1 / 2 := by
  have hfloor := Int.floor_le q
  have hlt := Int.lt_floor_add_one q
  unfold roundHalfEven
  dsimp only
  rw [abs_le]
  split_ifs <;> push_cast <;> constructor <;> linarith

/-- To 53 bits, if the first one stands for `2 ^ k`. -/
def roundBinade (k : ℤ) (q : ℚ) : ℚ := roundHalfEven (q / 2 ^ (k - 52)) * 2 ^ (k - 52)

/-- A positive number to 53 bits. -/
def roundMagnitude (q : ℚ) : ℚ := roundBinade (Int.log 2 q) q

def roundBinary64 (q : ℚ) : ℚ :=
  if q = 0 then 0 else if 0 < q then roundMagnitude q else -roundMagnitude (-q)

section
variable {k : ℤ} {p q : ℚ}

theorem ulp_pos (k : ℤ) : (0 : ℚ) < 2 ^ (k - 52) := zpow_pos two_pos _

theorem roundBinade_mono (k : ℤ) : Monotone (roundBinade k) := fun _ _ hpq =>
  mul_le_mul_of_nonneg_right (Int.cast_le.2 (roundHalfEven_mono (div_le_div_of_nonneg_right hpq (ulp_pos k).le)))
    (ulp_pos k).le

/-- Multiples of the last place stay as they are. -/
theorem roundBinade_of_multiple (k n : ℤ) : roundBinade k (n * 2 ^ (k - 52)) = n * 2 ^ (k - 52) := by
  rw [roundBinade, mul_div_cancel_right₀ _ (ulp_pos k).ne', roundHalfEven_intCast]

theorem roundBinade_roundBinade (k : ℤ) (q : ℚ) : roundBinade k (roundBinade k q) = roundBinade k q :=
  roundBinade_of_multiple k _

theorem roundBinade_first (k : ℤ) : roundBinade k (2 ^ k) = 2 ^ k := by
  have h : (2 : ℚ) ^ k = ((2 ^ 52 : ℤ) : ℚ) * 2 ^ (k - 52) := by
    rw [zpow_sub₀ two_ne_zero]
    norm_num
    ring
  rw [h, roundBinade_of_multiple]

theorem roundBinade_last (k : ℤ) : roundBinade k (2 ^ (k + 1)) = 2 ^ (k + 1) := by
  have h : (2 : ℚ) ^ (k + 1) = ((2 ^ 53 : ℤ) : ℚ) * 2 ^ (k - 52) := by
    rw [zpow_sub₀ two_ne_zero, zpow_add₀ two_ne_zero]
    norm_num
    ring
  rw [h, roundBinade_of_multiple]

theorem zpow_log_le (hq : 0 < q) : (2 : ℚ) ^ Int.log 2 q ≤ q := by
  simpa using Int.zpow_log_le_self (b := 2) (by norm_num) hq

theorem lt_zpow_log (q : ℚ) : q < (2 : ℚ) ^ (Int.log 2 q + 1) := by
  simpa using Int.lt_zpow_succ_log_self (b := 2) (by norm_num) q

/-- In its binade, the upper bound included, a number is rounded to the places of the binade. -/
theorem roundMagnitude_eq (hlo : (2 : ℚ) ^ k ≤ q) (hhi : q ≤ 2 ^ (k + 1)) : roundMagnitude q = roundBinade k q := by
  have hq : 0 < q := (zpow_pos two_pos k : (0 : ℚ) < 2 ^ k).trans_le hlo
  rcases hhi.eq_or_lt with rfl | hlt
  · have hlog : Int.log 2 (((2 : ℕ) : ℚ) ^ (k + 1)) = k + 1 := Int.log_zpow (by norm_num) (k + 1)
    rw [Nat.cast_two] at hlog
    rw [roundMagnitude, hlog, roundBinade_first, roundBinade_last]
  · have hle : k ≤ Int.log 2 q := by
      have h := hlo.trans_lt (lt_zpow_log q)
      rw [zpow_lt_zpow_iff_right₀ one_lt_two] at h
      omega
    have hge : Int.log 2 q ≤ k := by
      have h := (zpow_log_le hq).trans_lt hlt
      rw [zpow_lt_zpow_iff_right₀ one_lt_two] at h
      omega
    rw [roundMagnitude, le_antisymm hge hle]

theorem roundMagnitude_bounds (hq : 0 < q) :
    (2 : ℚ) ^ Int.log 2 q ≤ roundMagnitude q ∧ roundMagnitude q ≤ 2 ^ (Int.log 2 q + 1) := by
  constructor
  · rw [← roundBinade_first]
    exact roundBinade_mono _ (zpow_log_le hq)
  · rw [← roundBinade_last]
    exact roundBinade_mono _ (lt_zpow_log q).le

theorem roundMagnitude_pos (hq : 0 < q) : 0 < roundMagnitude q :=
  (zpow_pos two_pos _ : (0 : ℚ) < 2 ^ Int.log 2 q).trans_le (roundMagnitude_bounds hq).1

theorem roundMagnitude_mono (hp : 0 < p) (hpq : p ≤ q) : roundMagnitude p ≤ roundMagnitude q := by
  have hq := hp.trans_le hpq
  rcases (Int.log_mono_right (b := 2) hp hpq).eq_or_lt with heq | hlt
  · rw [roundMagnitude, roundMagnitude, heq]
    exact roundBinade_mono _ hpq
  · calc roundMagnitude p ≤ 2 ^ (Int.log 2 p + 1) := (roundMagnitude_bounds hp).2
      _ ≤ 2 ^ Int.log 2 q := zpow_le_zpow_right₀ one_le_two (by omega)
      _ ≤ roundMagnitude q := (roundMagnitude_bounds hq).1

theorem roundMagnitude_roundMagnitude (hq : 0 < q) : roundMagnitude (roundMagnitude q) = roundMagnitude q := by
  rw [roundMagnitude_eq (roundMagnitude_bounds hq).1 (roundMagnitude_bounds hq).2]
  exact roundBinade_roundBinade _ _

theorem roundBinary64_of_pos (hq : 0 < q) : roundBinary64 q = roundMagnitude q := by
  rw [roundBinary64, if_neg hq.ne', if_pos hq]

theorem roundBinary64_neg (q : ℚ) : roundBinary64 (-q) = -roundBinary64 q := by
  unfold roundBinary64
  rcases lt_trichotomy q 0 with hq | rfl | hq
  · rw [if_neg (neg_ne_zero.2 hq.ne), if_pos (neg_pos.2 hq), if_neg hq.ne, if_neg hq.not_gt, neg_neg]
  · simp
  · rw [if_neg (neg_ne_zero.2 hq.ne'), if_neg (neg_neg_of_pos hq).not_gt, if_neg hq.ne', if_pos hq, neg_neg]

theorem roundBinary64_nonneg (hq : 0 ≤ q) : 0 ≤ roundBinary64 q := by
  rcases hq.eq_or_lt with rfl | hq
  · rfl
  · rw [roundBinary64_of_pos hq]
    exact (roundMagnitude_pos hq).le

theorem roundBinary64_mono : Monotone roundBinary64 := by
  have hpos : ∀ {p q : ℚ}, 0 < p → p ≤ q → roundBinary64 p ≤ roundBinary64 q := fun hp hpq => by
    rw [roundBinary64_of_pos hp, roundBinary64_of_pos (hp.trans_le hpq)]
    exact roundMagnitude_mono hp hpq
  intro p q hpq
  rcases lt_or_ge 0 p with hp | hp
  · exact hpos hp hpq
  have hp' : 0 ≤ -roundBinary64 p := by
    rw [← roundBinary64_neg]
    exact roundBinary64_nonneg (neg_nonneg.2 hp)
  rcases lt_or_ge q 0 with hq | hq
  · have h := hpos (neg_pos.2 hq) (neg_le_neg hpq)
    rw [roundBinary64_neg, roundBinary64_neg] at h
    exact neg_le_neg_iff.1 h
  · exact (neg_nonneg.1 hp').trans (roundBinary64_nonneg hq)

theorem roundBinary64_roundBinary64 (q : ℚ) : roundBinary64 (roundBinary64 q) = roundBinary64 q := by
  have hpos : ∀ {q : ℚ}, 0 < q → roundBinary64 (roundBinary64 q) = roundBinary64 q := fun hq => by
    rw [roundBinary64_of_pos hq, roundBinary64_of_pos (roundMagnitude_pos hq), roundMagnitude_roundMagnitude hq]
  rcases lt_trichotomy q 0 with hq | rfl | hq
  · have h := hpos (neg_pos.2 hq)
    rw [roundBinary64_neg, roundBinary64_neg] at h
    exact neg_inj.1 h
  · rfl
  · exact hpos hq

end

/-! ## Rounding errors -/

/-- Up to `2 ^ m` the error is at most half a last place. -/
theorem abs_roundBinary64_sub_le {m : ℤ} {q : ℚ} (hq : 0 ≤ q) (hle : q ≤ 2 ^ m) :
    |roundBinary64 q - q| ≤ 2 ^ (m - 53) := by
  rcases hq.eq_or_lt with rfl | hq
  · have hzero : roundBinary64 0 = 0 := rfl
    rw [hzero, sub_zero, abs_zero]
    exact (zpow_pos two_pos _).le
  · set k := Int.log 2 q
    have hk : k ≤ m := by
      have h := (zpow_log_le hq).trans hle
      rwa [zpow_le_zpow_iff_right₀ one_lt_two] at h
    have hscaled : roundMagnitude q - q = (roundHalfEven (q / 2 ^ (k - 52)) - q / 2 ^ (k - 52)) * 2 ^ (k - 52) := by
      rw [sub_mul, div_mul_cancel₀ _ (ulp_pos k).ne']
      rfl
    have hhalf : (2 : ℚ) ^ (k - 53) = 1 / 2 * 2 ^ (k - 52) := by
      rw [show k - 52 = k - 53 + 1 by omega, zpow_add_one₀ two_ne_zero]
      ring
    rw [roundBinary64_of_pos hq, hscaled, abs_mul, abs_of_pos (ulp_pos k)]
    calc |(roundHalfEven (q / 2 ^ (k - 52)) : ℚ) - q / 2 ^ (k - 52)| * 2 ^ (k - 52)
        ≤ 1 / 2 * 2 ^ (k - 52) := mul_le_mul_of_nonneg_right (abs_roundHalfEven_sub_le _) (ulp_pos k).le
      _ = 2 ^ (k - 53) := hhalf.symm
      _ ≤ 2 ^ (m - 53) := zpow_le_zpow_right₀ one_le_two (by omega)

/-- **Binary64**: the numbers of a Python `float`, as long as no exponent is out of range. -/
def Rounding.binary64 : Rounding ℚ where
  round := roundBinary64
  mono := roundBinary64_mono
  round_round := roundBinary64_roundBinary64
  round_zero := rfl
  round_one := by
    have h : roundMagnitude ((2 : ℚ) ^ (0 : ℤ)) = roundBinade 0 (2 ^ (0 : ℤ)) :=
      roundMagnitude_eq le_rfl (zpow_le_zpow_right₀ one_le_two (by omega))
    rw [roundBinary64_of_pos one_pos, ← zpow_zero (2 : ℚ), h, roundBinade_first]

/-- In binary64 `0.6 + 0.6 + 0.6 + 1.0` is less than `0.6 + 0.6 + 1.0 + 0.6`. -/
example : runningSum [0.6, 0.6, 0.6, (1 : Rounding.binary64.Number)] <
    runningSum [0.6, 0.6, (1 : Rounding.binary64.Number), 0.6] := by
  decide +kernel

/-- **The error of a running sum** of numbers between 0 and 1 is a last place for every term. -/
theorem abs_runningSum_sub_le {m : ℤ} {xs : List Rounding.binary64.Number} (h : ∀ x ∈ xs, 0 ≤ x.val ∧ x.val ≤ 1)
    (hlength : (xs.length : ℚ) + 1 ≤ 2 ^ m) (herror : (xs.length : ℚ) * 2 ^ (m - 53) ≤ 1) :
    |(runningSum xs).val - (xs.map fun x => x.val).sum| ≤ xs.length * 2 ^ (m - 53) := by
  induction xs using List.reverseRecOn with
  | nil => simp
  | append_singleton xs x ih =>
    have hulp : (0 : ℚ) < 2 ^ (m - 53) := zpow_pos two_pos _
    rw [List.length_append, List.length_singleton] at hlength herror ⊢
    push_cast at hlength herror ⊢
    rw [add_mul, one_mul] at herror ⊢
    have hxs : ∀ y ∈ xs, 0 ≤ y.val ∧ y.val ≤ 1 := fun y hy => h y (List.mem_append_left _ hy)
    have hx := h x (List.mem_append_right _ (List.mem_singleton_self x))
    have ih := ih hxs (by linarith) (by linarith)
    have hnonneg : (0 : ℚ) ≤ (runningSum xs).val := runningSum_nonneg fun y hy => (hxs y hy).1
    have hsum : (xs.map fun x => x.val).sum ≤ xs.length := by
      have hle := List.sum_le_card_nsmul (xs.map fun x => x.val) 1 (List.forall_mem_map.2 fun y hy => (hxs y hy).2)
      simpa using hle
    -- the sum so far is at most one greater than the exact one
    have hbelow : (runningSum xs).val + x.val ≤ 2 ^ m := by
      have hdiff := (abs_le.1 ih).2
      linarith [hx.2]
    have hround : |Rounding.binary64.round ((runningSum xs).val + x.val) - ((runningSum xs).val + x.val)| ≤
        2 ^ (m - 53) := abs_roundBinary64_sub_le (add_nonneg hnonneg hx.1) hbelow
    rw [runningSum_concat, Rounding.val_add, List.map_append, List.sum_append, List.map_singleton, List.sum_singleton]
    generalize Rounding.binary64.round ((runningSum xs).val + x.val) = rounded at hround ⊢
    calc |rounded - ((xs.map fun x => x.val).sum + x.val)|
        = |(rounded - ((runningSum xs).val + x.val)) + ((runningSum xs).val - (xs.map fun x => x.val).sum)| := by
          congr 1; ring
      _ ≤ |rounded - ((runningSum xs).val + x.val)| + |(runningSum xs).val - (xs.map fun x => x.val).sum| :=
          abs_add_le _ _
      _ ≤ 2 ^ (m - 53) + xs.length * 2 ^ (m - 53) := add_le_add hround ih
      _ = xs.length * 2 ^ (m - 53) + 2 ^ (m - 53) := add_comm _ _
