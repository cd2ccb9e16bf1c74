import Netmeter.Lib.Scale
set_option autoImplicit false

/-!
Rounding to 53 binary digits, ties to the even one, as the results of binary64
arithmetic are rounded where the exponent stays within its range.
-/

namespace Binary64
open Scaled

def ulp (q : ℚ) : ℚ := 2 ^ (Int.log 2 |q| - 52)

def f64 (q : ℚ) : ℚ := roundHalfEven (q / ulp q) * ulp q

theorem ulp_pos (q : ℚ) : 0 < ulp q := zpow_pos two_pos _

theorem digits_bounds {q : ℚ} (hq : 0 < q) : 2 ^ 52 ≤ q / ulp q ∧ q / ulp q < 2 ^ 53 := by
  have hlow : (2 : ℚ) ^ Int.log 2 q ≤ q := Int.zpow_log_le_self one_lt_two hq
  have hhigh : q < (2 : ℚ) ^ (Int.log 2 q + 1) := Int.lt_zpow_succ_log_self one_lt_two q
  have hexp : ∀ n : ℕ, (2 : ℚ) ^ n * 2 ^ (Int.log 2 q - 52) = 2 ^ (Int.log 2 q + n - 52) := by
    intro n
    rw [← zpow_natCast, ← zpow_add₀ two_ne_zero]
    congr 1
    omega
  have hulp : ulp q = 2 ^ (Int.log 2 q - 52) := by rw [ulp, abs_of_pos hq]
  constructor
  · rw [le_div_iff₀ (ulp_pos q), hulp, hexp]
    simpa using hlow
  · rw [div_lt_iff₀ (ulp_pos q), hulp, hexp]
    have hnext : Int.log 2 q + (53 : ℕ) - 52 = Int.log 2 q + 1 := by omega
    rw [hnext]
    exact_mod_cast hhigh

theorem abs_f64_sub_le (q : ℚ) : |f64 q - q| ≤ ulp q / 2 := by
  have hdiff : f64 q - q = (roundHalfEven (q / ulp q) - q / ulp q) * ulp q := by
    rw [sub_mul, div_mul_cancel₀ _ (ulp_pos q).ne']
    rfl
  calc |f64 q - q| = |(roundHalfEven (q / ulp q) : ℚ) - q / ulp q| * ulp q := by
        rw [hdiff, abs_mul, abs_of_pos (ulp_pos q)]
    _ ≤ 1 / 2 * ulp q :=
        mul_le_mul_of_nonneg_right (nearest_roundHalfEven.near _) (ulp_pos q).le
    _ = ulp q / 2 := by ring

@[simp] theorem f64_zero : f64 0 = 0 := by
  have hround : roundHalfEven ((0 : ℤ) : ℚ) = 0 := nearest_roundHalfEven.int 0
  rw [f64, zero_div]
  rw [Int.cast_zero] at hround
  rw [hround, Int.cast_zero, zero_mul]

/-- Half a unit of the last digit is a part in 2^53 at most. -/
theorem f64_near {q : ℚ} (hq : 0 ≤ q) : |f64 q - q| ≤ q / 2 ^ 53 := by
  rcases hq.eq_or_lt with rfl | hpos
  · simp
  · have hdigits := (digits_bounds hpos).1
    rw [le_div_iff₀ (ulp_pos q)] at hdigits
    have herror := abs_f64_sub_le q
    refine herror.trans ?_
    rw [le_div_iff₀ (by positivity)]
    linarith

theorem f64_nonneg {q : ℚ} (hq : 0 ≤ q) : 0 ≤ f64 q := by
  have herror := (abs_le.mp (f64_near hq)).1
  have hpart : q / 2 ^ 53 ≤ q := div_le_self hq (by norm_num)
  linarith

theorem f64_mono {p q : ℚ} (hp : 0 ≤ p) (hpq : p ≤ q) : f64 p ≤ f64 q := by
  rcases hp.eq_or_lt with rfl | hpos
  · rw [f64_zero]
    exact f64_nonneg hpq
  · have hqpos := hpos.trans_le hpq
    have hround := nearest_roundHalfEven
    have hlog : Int.log 2 p ≤ Int.log 2 q := Int.log_mono_right hpos hpq
    have hulp : ∀ x : ℚ, 0 < x → ulp x = 2 ^ (Int.log 2 x - 52) := fun x hx => by
      rw [ulp, abs_of_pos hx]
    rcases hlog.eq_or_lt with heq | hlt
    · -- one unit for both
      have hsame : ulp p = ulp q := by rw [hulp p hpos, hulp q hqpos, heq]
      unfold f64
      rw [hsame]
      refine mul_le_mul_of_nonneg_right ?_ (ulp_pos q).le
      exact_mod_cast hround.mono (div_le_div_of_nonneg_right hpq (ulp_pos q).le)
    · -- the power of two between them
      have hupper : (roundHalfEven (p / ulp p) : ℚ) ≤ 2 ^ 53 := by
        have hle := hround.mono (show p / ulp p ≤ ((2 ^ 53 : ℤ) : ℚ) by
          push_cast
          exact (digits_bounds hpos).2.le)
        rw [hround.int] at hle
        exact_mod_cast hle
      have hlower : (2 : ℚ) ^ 52 ≤ roundHalfEven (q / ulp q) := by
        have hle := hround.mono (show ((2 ^ 52 : ℤ) : ℚ) ≤ q / ulp q by
          push_cast
          exact (digits_bounds hqpos).1)
        rw [hround.int] at hle
        exact_mod_cast hle
      have hbetween : 2 * ulp p ≤ ulp q := by
        rw [hulp p hpos, hulp q hqpos, ← zpow_one_add₀ two_ne_zero]
        exact zpow_le_zpow_right₀ one_le_two (by omega)
      calc f64 p ≤ 2 ^ 53 * ulp p := mul_le_mul_of_nonneg_right hupper (ulp_pos p).le
        _ = 2 ^ 52 * (2 * ulp p) := by ring
        _ ≤ 2 ^ 52 * ulp q := mul_le_mul_of_nonneg_left hbetween (by positivity)
        _ ≤ f64 q := mul_le_mul_of_nonneg_right hlower (ulp_pos q).le

/-- Natural numbers of 53 digits are their own roundings. -/
theorem f64_natCast {n : ℕ} (h : n < 2 ^ 53) : f64 n = n := by
  rcases Nat.eq_zero_or_pos n with rfl | hpos
  · simp
  · have hpos' : (0 : ℚ) < n := by exact_mod_cast hpos
    have hlog : Int.log 2 (n : ℚ) = Nat.log 2 n := Int.log_natCast 2 n
    have hle : Nat.log 2 n ≤ 52 := Nat.lt_succ_iff.mp (Nat.log_lt_of_lt_pow hpos.ne' h)
    have hulp : ulp (n : ℚ) = (2 ^ (52 - Nat.log 2 n) : ℚ)⁻¹ := by
      rw [ulp, abs_of_pos hpos', hlog, ← zpow_natCast, ← zpow_neg]
      congr 1
      omega
    have hunits : (n : ℚ) / ulp n = ((n * 2 ^ (52 - Nat.log 2 n) : ℤ) : ℚ) := by
      rw [hulp, div_inv_eq_mul]
      push_cast
      ring
    have hround : (roundHalfEven (n / ulp (n : ℚ)) : ℚ) = n / ulp (n : ℚ) := by
      rw [hunits, nearest_roundHalfEven.int]
    rw [f64, hround, div_mul_cancel₀ _ (ulp_pos _).ne']

theorem rounds_f64 : Rounds (1 / 2 ^ 53) f64 where
  small := by norm_num
  mono := f64_mono
  lower {q} hq := by
    have herror := (abs_le.mp (f64_near hq)).1
    linarith
  upper {q} hq := by
    have herror := (abs_le.mp (f64_near hq)).2
    linarith
  one := by exact_mod_cast f64_natCast (n := 1) (by norm_num)

example : f64 (1005 / 1000) < 1005 / 1000 := by decide +kernel

example : f64 9288674231451649 = 9288674231451648 := by decide +kernel

end Binary64
