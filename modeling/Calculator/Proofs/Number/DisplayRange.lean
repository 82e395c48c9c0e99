import Mathlib.Algebra.Order.Floor.Div
import Calculator.Proofs.Number.Redisplay
import Calculator.Proofs.Number.Value

/-!
Where rounding for display leaves the range. Among the numbers with as many digits as the greatest, some
precisions carry the last of them up to a decimal that is out of range, the others never do.
-/
namespace Calculator.Binary64

open Decimal (scale scale_natCast scale_lt_iff scale_le_iff)
open Shortest (decimalPoint)

variable {m p : Nat} {x : Binary64}

/-- The least magnitude, if there is any in range, that is carried out of range with so many digits. -/
def carrying : Nat → Option Decimal
  | 1 => some ⟨15, 307⟩
  | 2 => some ⟨175, 306⟩
  | 3 => some ⟨1795, 305⟩
  | 4 => some ⟨17975, 304⟩
  | 5 => some ⟨179765, 303⟩
  | 10 => some ⟨17976931345, 298⟩
  | 11 => some ⟨179769313485, 297⟩
  | 15 => some ⟨1797693134862315, 293⟩
  | 16 => some ⟨17976931348623155, 292⟩
  | _ => none

/-- Displayed with so many digits, the number is carried out of range. -/
def CarriesOut (x : Binary64) (p : Nat) : Prop :=
  ∃ d ∈ carrying p, (d.digits : ℚ) * 10 ^ d.exponent ≤ |x.value|

/-- The last decimal place that is displayed of the numbers with the most digits. -/
def lastPlace (p : Nat) : Nat :=
  10 ^ (309 - p) * one

/-- The first multiple of the last place that is out of range. -/
def firstOut (p : Nat) : Nat :=
  overflow ⌈/⌉ lastPlace p

/-- From half a place below the first multiple that is out of range on, numbers are carried to it; without
a threshold there are none. -/
def Threshold (p : Nat) : Option Decimal → Prop
  | none => 2 * greatest < (2 * firstOut p - 1) * lastPlace p
  | some d => 2 * (d.digits * 10 ^ d.exponent.toNat * one) = (2 * firstOut p - 1) * lastPlace p ∧
      0 ≤ d.exponent

instance (p : Nat) : (d : Option Decimal) → Decidable (Threshold p d)
  | none => inferInstanceAs (Decidable (_ < _))
  | some _ => inferInstanceAs (Decidable (_ ∧ _))

theorem threshold_carrying : ∀ i : Nat, i < 100 → Threshold (i + 1) (carrying (i + 1)) := by
  decide +kernel

theorem lastPlace_pos (p : Nat) : 0 < lastPlace p :=
  Nat.mul_pos (Nat.pow_pos (by decide)) one_pos

theorem scale_lastPlace (high : p ≤ 309) : scale (309 - p) = lastPlace p := by
  have place : (309 : Int) - p = (309 - p : Nat) := by omega
  rw [place, scale_natCast, lastPlace]

theorem firstOut_le_iff (q : Nat) : firstOut p ≤ q ↔ overflow ≤ q * lastPlace p := by
  rw [firstOut, ceilDiv_le_iff_le_mul (lastPlace_pos p), Nat.mul_comm]

theorem firstOut_pos (p : Nat) : 0 < firstOut p := by
  by_contra none
  have := (firstOut_le_iff 0).mp (not_lt.mp none)
  have := greatest_lt_overflow
  omega

/-- With the most digits before the point, the decimal is out of range from half a place below the first
multiple on that is. -/
theorem overflow_le_significant_iff (top : decimalPoint m = 309) (high : p ≤ 309) :
    (overflow : ℚ) ≤ (significant m p).magnitude ↔ (2 * firstOut p - 1) * lastPlace p ≤ 2 * m := by
  have cell := significant_cell m p
  rw [magnitude_significant, top, scale_lastPlace high] at cell ⊢
  obtain ⟨low, next⟩ := cell
  generalize (significant m p).digits = q at *
  have positive := firstOut_pos p
  have out : (overflow : ℚ) ≤ q * lastPlace p ↔ firstOut p ≤ q := by
    rw [firstOut_le_iff, ← Nat.cast_mul, Nat.cast_le]
  rw [out]
  generalize firstOut p = f at *
  generalize lastPlace p = d at *
  have low' : 2 * q * d ≤ 2 * m + d := by
    have scaled : 2 * (q : ℚ) * d ≤ 2 * m + d := by linarith
    exact_mod_cast scaled
  have next' : 2 * m + d < (2 * q + 2) * d := by
    have scaled : 2 * (m : ℚ) + d < (2 * q + 2) * d := by linarith
    exact_mod_cast scaled
  rw [Nat.sub_mul, Nat.one_mul]
  constructor
  · intro le
    have := Nat.mul_le_mul_right d (Nat.mul_le_mul_left 2 le)
    omega
  · intro le
    by_contra below
    have := Nat.mul_le_mul_right d (show 2 * q + 2 ≤ 2 * f by omega)
    omega

theorem carriesOut_iff (negative : Bool) (fits : Representable m) (low : 1 ≤ p) (high : p ≤ 100) :
    CarriesOut (finite negative m fits) p ↔ (2 * firstOut p - 1) * lastPlace p ≤ 2 * m := by
  have edge := threshold_carrying (p - 1) (by omega)
  rw [Nat.sub_add_cancel low] at edge
  rw [CarriesOut, abs_value, (counts_finite negative fits).units, natAbs_signed]
  cases known : carrying p with
  | none =>
    rw [known] at edge
    have below : m ≤ greatest := le_greatest fits.2 fits.1
    have beyond : 2 * greatest < (2 * firstOut p - 1) * lastPlace p := edge
    simp only [Option.mem_def, reduceCtorEq, false_and, exists_false, false_iff]
    omega
  | some d =>
    rw [known] at edge
    obtain ⟨half, whole⟩ := edge
    have power : (10 : ℚ) ^ d.exponent = (10 ^ d.exponent.toNat : Nat) := by
      rw [← Int.toNat_of_nonneg whole, zpow_natCast]
      push_cast
      rfl
    simp only [Option.mem_def, Option.some.injEq, exists_eq_left']
    rw [← half, Nat.mul_le_mul_left_iff two_pos, power, le_div_iff₀ one_pos_rat,
      ← Nat.cast_mul, ← Nat.cast_mul, Nat.cast_le]

theorem tenth_place (low : 1 ≤ p) (high : p ≤ 309) : 10 ^ (p - 1) * lastPlace p = 10 ^ 308 * one := by
  rw [lastPlace, ← Nat.mul_assoc, ← Nat.pow_add]
  congr 2
  omega

/-- Only numbers with the most digits before the point are carried out of range. -/
theorem decimalPoint_of_carriesOut {negative : Bool} {fits : Representable m} (low : 1 ≤ p) (high : p ≤ 100)
    (carries : CarriesOut (finite negative m fits) p) (some : m ≠ 0) : 308 < decimalPoint m := by
  rw [carriesOut_iff negative fits low high] at carries
  have power := tenth_place low (show p ≤ 309 by omega)
  have more : 10 ^ (p - 1) < firstOut p := by
    rw [← not_le, firstOut_le_iff, power]
    exact not_le.mpr power_in_range
  have most := Nat.mul_le_mul_right (lastPlace p) (show 2 * 10 ^ (p - 1) ≤ 2 * firstOut p - 1 by omega)
  rw [Nat.mul_assoc, power] at most
  have large : 10 ^ 308 * one ≤ m := Nat.le_of_mul_le_mul_left (most.trans carries) two_pos
  apply scale_lt_iff.mp
  refine lt_of_le_of_lt ?_ (Shortest.lt_scale_decimalPoint some)
  rw [show (308 : Int) = (308 : Nat) from rfl, scale_natCast]
  exact Nat.cast_le.mpr large

/-- What is rounded out of range, by its decimal and by its own magnitude. -/
theorem overflow_le_significant (negative : Bool) (fits : Representable m) (some : m ≠ 0) (low : 1 ≤ p)
    (high : p ≤ 100) : (overflow : ℚ) ≤ (significant m p).magnitude ↔ CarriesOut (finite negative m fits) p := by
  have inRange := Shortest.decimalPoint_le fits some
  by_cases top : decimalPoint m = 309
  · rw [overflow_le_significant_iff top (by omega), carriesOut_iff negative fits low high]
  · refine iff_of_false ?_ fun carries => top ?_
    · rw [not_le]
      calc (significant m p).magnitude ≤ scale (decimalPoint m) := significant_le_scale some
        _ ≤ scale (308 : Nat) := scale_le_iff.mpr (by omega)
        _ < overflow := by
          rw [scale_natCast]
          exact Nat.cast_lt.mpr power_in_range
    · have := decimalPoint_of_carriesOut low high carries some
      omega

theorem not_carriesOut_zero {negative : Bool} {fits : Representable 0} (low : 1 ≤ p) (high : p ≤ 100) :
    ¬ CarriesOut (finite negative 0 fits) p := by
  rw [carriesOut_iff negative fits low high, not_le]
  have positive := firstOut_pos p
  exact Nat.mul_pos (by omega) (lastPlace_pos p)

/-- The text of a finite number is read as a finite number. -/
theorem ofText_toText_isFinite (finite : x.isFinite = true) : (ofText x.toText).isFinite = true := by
  rw [ofText_toText finite]
  split_ifs
  · rw [zero, round_unscaled false representable_zero]
    rfl
  · exact finite

/-- Rounded for display, a number in range leaves it exactly where it is carried out; then the text is that of
an infinity. -/
theorem display_range (x : Binary64) (p : Nat) (finite : x.isFinite = true) (low : 1 ≤ p) (high : p ≤ 100) :
    (CarriesOut x p → x.display (some (p : Int)) = .ok (infinite x.isNegative).toText) ∧
      (¬ CarriesOut x p → ∃ t, x.display (some (p : Int)) = .ok t ∧ (ofText t).isFinite = true) := by
  obtain ⟨negative, m, fits, rfl, -⟩ := (counts_self finite).eq_finite
  by_cases none : m = 0
  · subst none
    refine ⟨fun carries => absurd carries (not_carriesOut_zero low high), fun _ => ⟨_, display_zero low high, ?_⟩⟩
    rw [← toText_zero negative fits]
    exact ofText_toText_isFinite finite
  have positive := (significant m p).fraction_positive one
  have out := overflow_le_significant negative fits none low high
  rw [← Decimal.fraction_value] at out
  rw [display_digits none low high, ← out]
  constructor
  · intro carries
    rw [round_outside negative positive carries]
    rfl
  · intro stays
    have inside := (round_isFinite_iff negative positive).mpr (not_le.mp stays)
    exact ⟨_, rfl, ofText_toText_isFinite inside⟩

/-- With one digit, the greatest number is displayed as an infinity. -/
theorem display_greatest : (ofText "1.7976931348623157e+308").isFinite = true ∧
    (ofText "1.7976931348623157e+308").display (some 1) = .ok "Infinity" ∧ (ofText "Infinity").isFinite = false := by
  decide +kernel

/-- With one digit it is carried out of range, with six digits it is not. -/
theorem display_range_greatest : (ofText "1.7976931348623157e+308").isFinite = true ∧
    (ofText "1.7976931348623157e+308").display (some 1) =
      .ok (infinite (ofText "1.7976931348623157e+308").isNegative).toText ∧
    ∃ t, (ofText "1.7976931348623157e+308").display (some 6) = .ok t ∧ (ofText t).isFinite = true := by
  have finite : (ofText "1.7976931348623157e+308").isFinite = true := by decide +kernel
  have large : 15 * 10 ^ 307 * one ≤ (ofText "1.7976931348623157e+308").units.natAbs := by decide +kernel
  have carries : CarriesOut (ofText "1.7976931348623157e+308") 1 := by
    refine ⟨⟨15, 307⟩, rfl, ?_⟩
    show ((15 : Nat) : ℚ) * 10 ^ ((307 : Nat) : Int) ≤ _
    rw [abs_value, le_div_iff₀ one_pos_rat, zpow_natCast]
    exact_mod_cast large
  have stays : ¬ CarriesOut (ofText "1.7976931348623157e+308") 6 := by
    rintro ⟨d, threshold, -⟩
    cases threshold
  exact ⟨finite, (display_range _ 1 finite (by decide) (by decide)).1 carries,
    (display_range _ 6 finite (by decide) (by decide)).2 stays⟩

end Calculator.Binary64
