/-
  Numbers and texts that are read place by place.

  * `Places`: a first place that starts anew where the second runs out;
    `Places.lt_iff`: the first place decides, then the second;
  * `paddedDecimal`: the decimal digits of a number, of a fixed width;
  * `layoutText`: numbers of fixed widths with fixed texts behind them;
    `layoutText_lt_iff`: such texts are in the order of their numbers.
-/
import Mathlib.Algebra.BigOperators.Intervals
import Mathlib.Data.Char
import Mathlib.Data.List.Forall2
import Mathlib.Data.List.Lex
import Mathlib.Order.Monotone.Basic

/-! ## Two places -/

/-- Where every value of the first place starts, and how many values the second has there. -/
structure Places where
  start : ℕ → ℕ
  size : ℕ → ℕ
  fits : ∀ a, start a + size a ≤ start (a + 1)

namespace Places

/-- The second place has always `r` values. -/
def fixed (r : ℕ) : Places where
  start a := a * r
  size _ := r
  fits a := (Nat.succ_mul a r).ge

/-- The starts are the sums of the sizes before. -/
def sums (size : ℕ → ℕ) : Places where
  start a := ∑ i ∈ Finset.range a, size i
  size := size
  fits a := (Finset.sum_range_succ size a).ge

variable (P : Places)

theorem monotone_start : Monotone P.start := monotone_nat_of_le_succ fun a => (Nat.le_add_right _ _).trans (P.fits a)

variable {a a' b b' : ℕ}

theorem lt_of_fst_lt (hb : b < P.size a) (ha : a < a') : P.start a + b < P.start a' + b' := by
  have hnext : P.start (a + 1) ≤ P.start a' := P.monotone_start ha
  have hfits := P.fits a
  omega

theorem lt_iff (hb : b < P.size a) (hb' : b' < P.size a') :
    P.start a + b < P.start a' + b' ↔ a < a' ∨ a = a' ∧ b < b' := by
  rcases lt_trichotomy a a' with ha | rfl | ha
  · simp [ha, P.lt_of_fst_lt hb ha]
  · simp
  · have hlt : P.start a' + b' < P.start a + b := P.lt_of_fst_lt hb' ha
    constructor
    · intro h
      exact absurd h hlt.asymm
    · rintro (h | ⟨rfl, -⟩)
      · exact absurd h ha.asymm
      · exact absurd ha (lt_irrefl a)

/-- A place behind another starts anew within the size of the first. -/
theorem start_add_lt (hb : b < P.size a) (ha : a < a') : P.start a + b < P.start a' := by
  have hlt : P.start a + b < P.start a' + 0 := P.lt_of_fst_lt hb ha
  omega

end Places

/-- What is ordered alike is told apart alike. -/
theorem eq_iff_of_lt_iff {β γ : Type*} [LinearOrder β] [LinearOrder γ] {x y : β} {u v : γ} (h : x < y ↔ u < v)
    (h' : y < x ↔ v < u) : x = y ↔ u = v := by
  constructor
  · rintro rfl
    exact le_antisymm (not_lt.1 fun hlt => lt_irrefl x (h'.2 hlt)) (not_lt.1 fun hlt => lt_irrefl x (h.2 hlt))
  · rintro rfl
    exact le_antisymm (not_lt.1 fun hlt => lt_irrefl u (h'.1 hlt)) (not_lt.1 fun hlt => lt_irrefl u (h.1 hlt))

/-! ## Lists of one length -/

theorem append_lt_append_iff {α : Type*} [LT α] {as bs cs ds : List α} (h : as.length = bs.length) :
    as ++ cs < bs ++ ds ↔ as < bs ∨ as = bs ∧ cs < ds := by
  induction as generalizing bs with
  | nil =>
    have hbs : bs = [] := List.eq_nil_of_length_eq_zero h.symm
    simp [hbs]
  | cons a as ih =>
    cases bs with
    | nil => simp at h
    | cons b bs =>
      rw [List.cons_append, List.cons_append, List.cons_lt_cons_iff, List.cons_lt_cons_iff,
        ih (Nat.succ.inj h), List.cons.injEq]
      tauto

/-! ## Decimals -/

/-- The last `w` decimal digits. -/
def paddedDecimal : ℕ → ℕ → List Char
  | 0, _ => []
  | w + 1, n => paddedDecimal w (n / 10) ++ [Nat.digitChar (n % 10)]

@[simp] theorem length_paddedDecimal (w n : ℕ) : (paddedDecimal w n).length = w := by
  induction w generalizing n with
  | zero => rfl
  | succ w ih => simp [paddedDecimal, ih]

theorem digitChar_lt_iff : ∀ m < 10, ∀ n < 10, Nat.digitChar m < Nat.digitChar n ↔ m < n := by decide

section
variable {w m n : ℕ}

/-- A number by its first digits and its last one. -/
theorem decimal_lt_iff (m n : ℕ) : m < n ↔ m / 10 < n / 10 ∨ m / 10 = n / 10 ∧ m % 10 < n % 10 := by
  have hm : m % 10 < 10 := Nat.mod_lt m (by omega)
  have hn : n % 10 < 10 := Nat.mod_lt n (by omega)
  have hlt : m / 10 * 10 + m % 10 < n / 10 * 10 + n % 10 ↔ _ := (Places.fixed 10).lt_iff hm hn
  rwa [Nat.div_add_mod', Nat.div_add_mod'] at hlt

/-- Digits of one width are in the order of their numbers. -/
theorem paddedDecimal_lt_iff (hm : m < 10 ^ w) (hn : n < 10 ^ w) : paddedDecimal w m < paddedDecimal w n ↔ m < n := by
  induction w generalizing m n with
  | zero =>
    obtain rfl : m = 0 := Nat.lt_one_iff.1 hm
    obtain rfl : n = 0 := Nat.lt_one_iff.1 hn
    simp
  | succ w ih =>
    have hm' : m / 10 < 10 ^ w := Nat.div_lt_of_lt_mul (by rwa [← Nat.pow_succ'])
    have hn' : n / 10 < 10 ^ w := Nat.div_lt_of_lt_mul (by rwa [← Nat.pow_succ'])
    have hinj := eq_iff_of_lt_iff (β := List Char) (ih hm' hn') (ih hn' hm')
    rw [paddedDecimal, paddedDecimal, append_lt_append_iff (by simp), ih hm' hn', hinj, decimal_lt_iff m n]
    have hdigit := digitChar_lt_iff (m % 10) (Nat.mod_lt m (by omega)) (n % 10) (Nat.mod_lt n (by omega))
    simp [List.cons_lt_cons_iff, hdigit]

theorem paddedDecimal_inj (hm : m < 10 ^ w) (hn : n < 10 ^ w) : paddedDecimal w m = paddedDecimal w n ↔ m = n :=
  eq_iff_of_lt_iff (β := List Char) (paddedDecimal_lt_iff hm hn) (paddedDecimal_lt_iff hn hm)

theorem paddedDecimal_zero (w : ℕ) : paddedDecimal w 0 = List.replicate w '0' := by
  induction w with
  | zero => rfl
  | succ w ih => rw [paddedDecimal, Nat.zero_div, ih, List.replicate_succ']; rfl

/-- Zeros before the digits of a number that fits. -/
theorem leftpad_toDigits (hw : 0 < w) (hn : n < 10 ^ w) : (Nat.toDigits 10 n).leftpad w '0' = paddedDecimal w n := by
  induction w generalizing n with
  | zero => exact absurd hw (lt_irrefl 0)
  | succ w ih =>
    by_cases hsmall : n < 10
    · rw [Nat.toDigits_of_lt_base hsmall, paddedDecimal, Nat.div_eq_of_lt hsmall, Nat.mod_eq_of_lt hsmall,
        paddedDecimal_zero]
      simp [List.leftpad]
    · have hw' : 0 < w := by
        rcases Nat.eq_zero_or_pos w with rfl | hw'
        · exact absurd hn hsmall
        · exact hw'
      have hn' : n / 10 < 10 ^ w := Nat.div_lt_of_lt_mul (by rwa [← Nat.pow_succ'])
      rw [Nat.toDigits_of_base_le (by omega) (not_lt.1 hsmall), paddedDecimal, ← ih hw' hn']
      simp [List.leftpad]

end

/-! ## Layouts -/

/-- The width of every number, and what is behind it. -/
abbrev Layout := List (ℕ × List Char)

def layoutText : Layout → List ℕ → List Char
  | (w, behind) :: layout, n :: ns => paddedDecimal w n ++ (behind ++ layoutText layout ns)
  | _, _ => []

/-- Every number has a width, and fits it. -/
def Layout.Fits (layout : Layout) (ns : List ℕ) : Prop := List.Forall₂ (fun part n => n < 10 ^ part.1) layout ns

/-- **Texts of one layout** are in the order of their numbers. -/
theorem layoutText_lt_iff {layout : Layout} {ms ns : List ℕ} (hms : layout.Fits ms) (hns : layout.Fits ns) :
    layoutText layout ms < layoutText layout ns ↔ ms < ns := by
  induction hms generalizing ns with
  | nil =>
    cases hns
    simp [layoutText]
  | @cons part m layout ms hm hms ih =>
    obtain ⟨w, behind⟩ := part
    cases hns with
    | @cons _ n _ ns hn hns =>
      rw [layoutText, layoutText, append_lt_append_iff (by simp), append_lt_append_iff rfl, paddedDecimal_lt_iff hm hn,
        paddedDecimal_inj hm hn, ih hns, List.cons_lt_cons_iff]
      simp
