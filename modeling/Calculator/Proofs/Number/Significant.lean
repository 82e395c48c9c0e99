import Mathlib.Algebra.Order.Field.Power
import Mathlib.Tactic.LinearCombination
import Calculator.Number.Display
import Calculator.Proofs.Number.Decimals
import Calculator.Proofs.Number.Nearest

/-!
Decimals by their exact values, and rounding to significant decimal digits: of the decimals of so many
digits the nearest is taken, a tie going up.
-/
namespace Calculator

namespace Decimal

/-- The power of ten, counted in units. -/
def scale (e : Int) : ℚ :=
  10 ^ e * Binary64.one

/-- The value of a decimal, counted in units. -/
def magnitude (d : Decimal) : ℚ :=
  d.digits * scale d.exponent

theorem scale_pos (e : Int) : 0 < scale e :=
  mul_pos (zpow_pos (by norm_num) e) Binary64.one_pos_rat

theorem scale_add (e : Int) (n : Nat) : scale (e + n) = 10 ^ n * scale e := by
  rw [scale, scale, zpow_add₀ (by norm_num), zpow_natCast]
  ring

theorem scale_lt_iff {a b : Int} : scale a < scale b ↔ a < b := by
  rw [scale, scale, mul_lt_mul_iff_of_pos_right Binary64.one_pos_rat]
  exact zpow_lt_zpow_iff_right₀ (by norm_num)

theorem scale_le_iff {a b : Int} : scale a ≤ scale b ↔ a ≤ b := by
  rw [← not_lt, scale_lt_iff, not_lt]

theorem scale_natCast (n : Nat) : scale n = (10 ^ n * Binary64.one : Nat) := by
  rw [scale, zpow_natCast]
  push_cast
  ring

theorem scale_neg_natCast (n : Nat) : scale (-n) = (Binary64.one : ℚ) / (10 ^ n : Nat) := by
  rw [scale, zpow_neg, zpow_natCast, mul_comm, ← div_eq_mul_inv]
  push_cast
  ring

theorem fraction_value (d : Decimal) :
    ((d.fraction Binary64.one).1 : ℚ) / (d.fraction Binary64.one).2 = d.magnitude := by
  unfold fraction magnitude
  by_cases sign : 0 ≤ d.exponent
  · have power : scale d.exponent = (10 ^ d.exponent.toNat * Binary64.one : Nat) := by
      rw [← scale_natCast, Int.toNat_of_nonneg sign]
    rw [if_pos sign, power]
    push_cast
    ring
  · have power : scale d.exponent = (Binary64.one : ℚ) / (10 ^ (-d.exponent).toNat : Nat) := by
      rw [← scale_neg_natCast, Int.toNat_of_nonneg (by omega), neg_neg]
    rw [if_neg sign, power]
    push_cast
    ring

theorem pow_width_le {n : Nat} (some : n ≠ 0) : 10 ^ (width n - 1) ≤ n := by
  by_cases single : width n - 1 = 0
  · rw [single]
    omega
  · by_contra few
    have short := width_le (Nat.pos_of_ne_zero single) (not_le.mp few)
    omega

theorem lt_pow_width (n : Nat) : n < 10 ^ width n :=
  (Nat.length_toDigits_le_iff (by decide) Nat.length_toDigits_pos).mp le_rfl

theorem magnitude_lt (d : Decimal) : d.magnitude < scale (d.exponent + width d.digits) := by
  rw [magnitude, scale_add]
  refine mul_lt_mul_of_pos_right ?_ (scale_pos _)
  exact_mod_cast lt_pow_width d.digits

theorem le_magnitude {d : Decimal} (some : d.digits ≠ 0) :
    scale (d.exponent + width d.digits - 1) ≤ d.magnitude := by
  have positive : 0 < width d.digits := Nat.length_toDigits_pos
  have split : d.exponent + width d.digits - 1 = d.exponent + (width d.digits - 1 : Nat) := by omega
  rw [magnitude, split, scale_add]
  refine mul_le_mul_of_nonneg_right ?_ (scale_pos _).le
  exact_mod_cast pow_width_le some

theorem overflow_le_scale : (Binary64.overflow : ℚ) ≤ scale 309 := by
  have bound : Binary64.overflow ≤ 10 ^ 309 * Binary64.one := by decide +kernel
  rw [show (309 : Int) = (309 : Nat) from rfl, scale_natCast]
  exact Nat.cast_le.mpr bound

theorem scale_lt_half : 2 * scale (-324) < 1 := by
  have bound : 2 * Binary64.one < 10 ^ 324 := by decide +kernel
  have positive : (0 : ℚ) < (10 ^ 324 : Nat) := Nat.cast_pos.mpr (by decide +kernel)
  rw [show (-324 : Int) = -(324 : Nat) from rfl, scale_neg_natCast, ← mul_div_assoc, div_lt_one positive]
  exact_mod_cast bound

/-- Far outside the range, too, the decimal is its exact value rounded. -/
theorem toBinary64_eq_round (negative : Bool) (d : Decimal) : d.toBinary64 negative =
    .round negative (d.fraction Binary64.one).1 (d.fraction Binary64.one).2 := by
  have positive := d.fraction_positive Binary64.one
  have value := d.fraction_value
  have least := Binary64.representable_zero
  have lost : 2 * d.magnitude < 1 → Binary64.round negative 0 1 =
      .round negative (d.fraction Binary64.one).1 (d.fraction Binary64.one).2 := by
    intro small
    rw [← value] at small
    rw [Binary64.round_unscaled negative least,
      Binary64.round_of_roundRatio negative least (Binary64.roundRatio_eq_zero positive small)]
  by_cases none : d.digits = 0
  · have zero : d.magnitude = 0 := by rw [magnitude, none, Nat.cast_zero, zero_mul]
    rw [toBinary64, if_pos none]
    exact lost (by linarith)
  by_cases high : 310 ≤ d.exponent + width d.digits
  · have outside : (Binary64.overflow : ℚ) ≤ d.magnitude := by
      refine (overflow_le_scale.trans ?_).trans (le_magnitude none)
      exact scale_le_iff.mpr (by omega)
    rw [toBinary64, if_neg none, if_pos high, Binary64.round_outside negative positive (value ▸ outside)]
  by_cases low : d.exponent + width d.digits ≤ -324
  · have small : 2 * d.magnitude < 1 := by
      have bound := (magnitude_lt d).trans_le (scale_le_iff.mpr low)
      linarith [scale_lt_half]
    rw [toBinary64, if_neg none, if_neg high, if_pos low]
    exact lost small
  · exact toBinary64_eq negative none (by omega) (by omega)

end Decimal

namespace Shortest

open Decimal (scale scale_natCast scale_neg_natCast pow_width_le lt_pow_width)

variable {m : Nat}

theorem scale_le_of_decimalPoint (some : m ≠ 0) : scale (decimalPoint m - 1) ≤ m := by
  unfold decimalPoint
  split
  · rename_i large
    have whole : m / Binary64.one ≠ 0 := by
      have := Nat.div_pos large Binary64.one_pos
      omega
    have digits := pow_width_le whole
    have positive : 0 < Decimal.width (m / Binary64.one) := Nat.length_toDigits_pos
    have exponent : (Decimal.width (m / Binary64.one) : Int) - 1 =
        (Decimal.width (m / Binary64.one) - 1 : Nat) := by omega
    rw [exponent, scale_natCast]
    exact_mod_cast (Nat.mul_le_mul_right _ digits).trans (Nat.div_mul_le_self m Binary64.one)
  · have digits := lt_pow_width ((Binary64.one - 1) / m)
    rw [Nat.div_lt_iff_lt_mul (Nat.pos_of_ne_zero some)] at digits
    generalize Decimal.width ((Binary64.one - 1) / m) = w at *
    have power : (0 : ℚ) < (10 ^ w : Nat) := by positivity
    have exponent : (1 - w : Int) - 1 = -w := by omega
    rw [exponent, scale_neg_natCast, div_le_iff₀ power]
    have bound : Binary64.one ≤ m * 10 ^ w := by
      rw [Nat.mul_comm]
      omega
    exact_mod_cast bound

theorem lt_scale_decimalPoint (some : m ≠ 0) : (m : ℚ) < scale (decimalPoint m) := by
  unfold decimalPoint
  split
  · have digits := lt_pow_width (m / Binary64.one)
    rw [scale_natCast]
    have bound : m < 10 ^ Decimal.width (m / Binary64.one) * Binary64.one :=
      (Nat.div_lt_iff_lt_mul Binary64.one_pos).mp digits
    exact_mod_cast bound
  · rename_i small
    have unit := Binary64.one_pos
    have whole : (Binary64.one - 1) / m ≠ 0 := by
      have := Nat.div_pos (show m ≤ Binary64.one - 1 by omega) (Nat.pos_of_ne_zero some)
      omega
    have digits := pow_width_le whole
    have positive : 0 < Decimal.width ((Binary64.one - 1) / m) := Nat.length_toDigits_pos
    rw [Nat.le_div_iff_mul_le (Nat.pos_of_ne_zero some)] at digits
    generalize Decimal.width ((Binary64.one - 1) / m) = w at *
    have power : (0 : ℚ) < (10 ^ (w - 1) : Nat) := by positivity
    have exponent : (1 - w : Int) = -(w - 1 : Nat) := by omega
    rw [exponent, scale_neg_natCast, lt_div_iff₀ power]
    have bound : m * 10 ^ (w - 1) < Binary64.one := by
      rw [Nat.mul_comm]
      omega
    exact_mod_cast bound

theorem decimalPoint_mono {a b : Nat} (some : a ≠ 0) (le : a ≤ b) : decimalPoint a ≤ decimalPoint b := by
  have low := scale_le_of_decimalPoint some
  have high := lt_scale_decimalPoint (m := b) (by omega)
  have order : (a : ℚ) ≤ b := Nat.cast_le.mpr le
  have exponents := Decimal.scale_lt_iff.mp (low.trans_lt (order.trans_lt high))
  omega

/-- In range there are at most as many digits before the point as the greatest number has. -/
theorem decimalPoint_le (fits : Binary64.Representable m) (some : m ≠ 0) : decimalPoint m ≤ 309 := by
  have low := scale_le_of_decimalPoint some
  have high := fits.lt_overflow.trans_le Decimal.overflow_le_scale
  have exponents := Decimal.scale_lt_iff.mp (low.trans_lt high)
  omega

theorem onGrid_value (m : Nat) (step : Int) :
    0 < (onGrid m step).2 ∧ ((onGrid m step).1 : ℚ) / (onGrid m step).2 = m / scale step := by
  unfold onGrid
  simp only [Nat.pow_eq]
  by_cases sign : 0 ≤ step
  · have power : scale step = (10 ^ step.toNat * Binary64.one : Nat) := by
      rw [← scale_natCast, Int.toNat_of_nonneg sign]
    rw [if_pos sign, power]
    refine ⟨Nat.mul_pos Binary64.one_pos (Nat.pow_pos (by decide)), ?_⟩
    push_cast
    rw [mul_comm]
  · have power : scale step = (Binary64.one : ℚ) / (10 ^ (-step).toNat : Nat) := by
      rw [← scale_neg_natCast, Int.toNat_of_nonneg (by omega), neg_neg]
    rw [if_neg sign, power]
    dsimp only
    refine ⟨Binary64.one_pos, ?_⟩
    rw [div_div_eq_mul_div, Nat.cast_mul]

end Shortest

namespace Binary64

open Decimal (scale scale_pos scale_add scale_lt_iff scale_le_iff)
open Shortest (decimalPoint)

variable {m p : Nat}

theorem significant_eq (m p : Nat) : significant m p =
    ⟨(2 * (Shortest.onGrid m (decimalPoint m - p)).1 + (Shortest.onGrid m (decimalPoint m - p)).2)
        / (2 * (Shortest.onGrid m (decimalPoint m - p)).2), decimalPoint m - p⟩ := by
  unfold significant
  dsimp only

theorem significant_exponent (m p : Nat) : (significant m p).exponent = decimalPoint m - p := by
  rw [significant_eq]

/-- Half a step above the number, the rounded decimal is the last one that has been passed. -/
theorem significant_cell (m p : Nat) :
    (significant m p).magnitude ≤ m + scale (decimalPoint m - p) / 2 ∧
      m + scale (decimalPoint m - p) / 2 < (significant m p).magnitude + scale (decimalPoint m - p) := by
  have step := scale_pos (decimalPoint m - p)
  obtain ⟨positive, value⟩ := Shortest.onGrid_value m (decimalPoint m - p)
  rw [Decimal.magnitude, significant_eq]
  generalize scale (decimalPoint m - p) = d at *
  generalize Shortest.onGrid m (decimalPoint m - p) = g at *
  obtain ⟨num, den⟩ := g
  dsimp only at *
  have unit : (0 : ℚ) < den := Nat.cast_pos.mpr positive
  have low := Nat.div_mul_le_self (2 * num + den) (2 * den)
  have high := Nat.lt_div_mul_add (a := 2 * num + den) (b := 2 * den) (by omega)
  generalize (2 * num + den) / (2 * den) = q at *
  rw [div_eq_div_iff unit.ne' step.ne'] at value
  have low' : (q : ℚ) * (2 * den) ≤ 2 * num + den := by exact_mod_cast low
  have high' : 2 * (num : ℚ) + den < q * (2 * den) + 2 * den := by exact_mod_cast high
  -- both sides times the grid's denominator
  constructor
  · refine le_of_mul_le_mul_right ?_ (mul_pos two_pos unit)
    calc q * d * (2 * den) = q * (2 * den) * d := by ring
      _ ≤ (2 * num + den) * d := mul_le_mul_of_nonneg_right low' step.le
      _ = (m + d / 2) * (2 * den) := by linear_combination 2 * value
  · refine lt_of_mul_lt_mul_right ?_ (mul_pos two_pos unit).le
    calc (m + d / 2) * (2 * den) = (2 * num + den) * d := by linear_combination (-2) * value
      _ < (q * (2 * den) + 2 * den) * d := mul_lt_mul_of_pos_right high' step
      _ = (q * d + d) * (2 * den) := by ring

theorem scale_eq_mul {low high : Int} (le : low ≤ high) : ∃ k : Nat, scale high = k * scale low := by
  obtain ⟨n, rfl⟩ := Int.le.dest le
  refine ⟨10 ^ n, ?_⟩
  rw [scale_add]
  push_cast
  rfl

theorem mul_le_of_lt_add {a b : Nat} {d : ℚ} (positive : 0 < d) (below : a * d < b * d + d) :
    a * d ≤ b * d := by
  have next : (a : ℚ) * d < (b + 1) * d := by linarith
  have fewer : a < b + 1 := by exact_mod_cast lt_of_mul_lt_mul_right next positive.le
  exact mul_le_mul_of_nonneg_right (Nat.cast_le.mpr (Nat.le_of_lt_succ fewer)) positive.le

theorem magnitude_significant (m p : Nat) : (significant m p).magnitude =
    (significant m p).digits * scale (decimalPoint m - p) := by
  rw [Decimal.magnitude, significant_exponent]

theorem multiple_le_significant (k : Nat) (le : k * scale (decimalPoint m - p) ≤ m) :
    k * scale (decimalPoint m - p) ≤ (significant m p).magnitude := by
  have step := scale_pos (decimalPoint m - p)
  have cell := (significant_cell m p).2
  rw [magnitude_significant] at cell ⊢
  exact mul_le_of_lt_add step (by linarith)

theorem significant_le_multiple (k : Nat) (le : m ≤ k * scale (decimalPoint m - p)) :
    (significant m p).magnitude ≤ k * scale (decimalPoint m - p) := by
  have step := scale_pos (decimalPoint m - p)
  have cell := (significant_cell m p).1
  rw [magnitude_significant] at cell ⊢
  exact mul_le_of_lt_add step (by linarith)

theorem scale_le_significant (some : m ≠ 0) (digits : 0 < p) :
    scale (decimalPoint m - 1) ≤ (significant m p).magnitude := by
  obtain ⟨k, power⟩ := scale_eq_mul (show decimalPoint m - p ≤ decimalPoint m - 1 by omega)
  have low := Shortest.scale_le_of_decimalPoint some
  rw [power] at low ⊢
  exact multiple_le_significant k low

theorem significant_le_scale (some : m ≠ 0) : (significant m p).magnitude ≤ scale (decimalPoint m) := by
  obtain ⟨k, power⟩ := scale_eq_mul (show decimalPoint m - p ≤ decimalPoint m by omega)
  have high := Shortest.lt_scale_decimalPoint some
  rw [power] at high ⊢
  exact significant_le_multiple k high.le

theorem significant_digits_le (some : m ≠ 0) : (significant m p).digits ≤ 10 ^ p := by
  have high := significant_le_scale (p := p) some
  have power := scale_add (decimalPoint m - p) p
  rw [Int.sub_add_cancel] at power
  rw [magnitude_significant, power] at high
  exact_mod_cast le_of_mul_le_mul_right high (scale_pos _)

theorem significant_mono {a b : Nat} (some : a ≠ 0) (digits : 0 < p) (le : a ≤ b) :
    (significant a p).magnitude ≤ (significant b p).magnitude := by
  rcases (Shortest.decimalPoint_mono some le).eq_or_lt with same | less
  · have step := scale_pos (decimalPoint b - p)
    have low := (significant_cell a p).1
    have high := (significant_cell b p).2
    have order : (a : ℚ) ≤ b := Nat.cast_le.mpr le
    rw [magnitude_significant, same] at low ⊢
    rw [magnitude_significant] at high ⊢
    exact mul_le_of_lt_add step (by linarith)
  · calc (significant a p).magnitude ≤ scale (decimalPoint a) := significant_le_scale some
      _ ≤ scale (decimalPoint b - 1) := scale_le_iff.mpr (by omega)
      _ ≤ (significant b p).magnitude := scale_le_significant (by omega) digits

/-- No decimal of so many digits is nearer. -/
theorem significant_nearest (some : m ≠ 0) (digits : 0 < p) {j : Nat} (few : j ≤ 10 ^ p) (e : Int) :
    |(m : ℚ) - (significant m p).magnitude| ≤ |(m : ℚ) - j * scale e| := by
  have step := scale_pos (decimalPoint m - p)
  have multiple : ∀ k : Nat, |(m : ℚ) - (significant m p).magnitude|
      ≤ |(m : ℚ) - k * scale (decimalPoint m - p)| := by
    intro k
    obtain ⟨low, high⟩ := significant_cell m p
    rw [magnitude_significant] at low high ⊢
    generalize scale (decimalPoint m - p) = d at *
    have near : |(m : ℚ) - (significant m p).digits * d| ≤ d / 2 := by
      rw [abs_le]
      constructor <;> linarith
    rcases Nat.lt_trichotomy k (significant m p).digits with below | same | above
    · have gap : ((k : ℚ) + 1) * d ≤ (significant m p).digits * d :=
        mul_le_mul_of_nonneg_right (by exact_mod_cast below) step.le
      exact near.trans (le_trans (by linarith) (le_abs_self _))
    · rw [same]
    · have gap : (((significant m p).digits : ℚ) + 1) * d ≤ k * d :=
        mul_le_mul_of_nonneg_right (by exact_mod_cast above) step.le
      exact near.trans (le_trans (by linarith) (neg_le_abs _))
  by_cases coarse : decimalPoint m - p ≤ e
  · obtain ⟨k, power⟩ := scale_eq_mul coarse
    rw [power, ← mul_assoc]
    exact_mod_cast multiple (j * k)
  · obtain ⟨k, power⟩ := scale_eq_mul (show decimalPoint m - p ≤ decimalPoint m - 1 by omega)
    have below : j * scale e ≤ scale (decimalPoint m - 1) := by
      calc j * scale e ≤ 10 ^ p * scale e := mul_le_mul_of_nonneg_right (by exact_mod_cast few) (scale_pos e).le
        _ = scale (e + p) := (scale_add e p).symm
        _ ≤ scale (decimalPoint m - 1) := scale_le_iff.mpr (by omega)
    have low := Shortest.scale_le_of_decimalPoint some
    refine (multiple k).trans ?_
    rw [← power, abs_of_nonneg (by linarith), abs_of_nonneg (by linarith)]
    linarith

end Binary64

end Calculator
