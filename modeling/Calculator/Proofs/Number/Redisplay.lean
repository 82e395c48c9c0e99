import Calculator.Proofs.Number.Layout
import Calculator.Proofs.Number.Significant

/-!
Displaying a displayed number again. Seventeen significant digits tell the numbers apart; with fewer, rounding
to decimal digits and reading back is a projection, whichever of the two grids is the finer one.
-/
namespace Calculator.Binary64

open Decimal (scale scale_pos scale_add scale_lt_iff scale_le_iff)
open Shortest (decimalPoint)

variable {m p y : Nat}

/-- The magnitude that is read back from the decimal of `p` significant digits, were the range unlimited. -/
def reread (m p : Nat) : Nat :=
  roundRatio ((significant m p).fraction one).1 ((significant m p).fraction one).2

theorem lt_spacing (m : Nat) : m < 2 ^ 53 * spacing m := by
  rw [spacing, ← Nat.pow_add]
  exact Nat.lt_log2_self.trans_le (Nat.pow_le_pow_right (by decide) (by omega))

theorem le_spacing_of_power (power : m = 2 ^ m.log2) : m ≤ 2 ^ 52 * spacing m := by
  rw [spacing, ← Nat.pow_add]
  exact power.le.trans (Nat.pow_le_pow_right (by decide) (by omega))

/-- From seventeen digits on, the decimal is so close that the number itself is read back. -/
theorem reread_eq_self (fits : Granular m) (some : m ≠ 0) (many : 17 ≤ p) : reread m p = m := by
  have positive := (significant m p).fraction_positive one
  have value := (significant m p).fraction_value
  obtain ⟨low, high⟩ := significant_cell m p
  have fine : 10 ^ 16 * scale (decimalPoint m - p) ≤ m := by
    calc 10 ^ 16 * scale (decimalPoint m - p) = scale (decimalPoint m - p + 16) := (scale_add _ 16).symm
      _ ≤ scale (decimalPoint m - 1) := scale_le_iff.mpr (by omega)
      _ ≤ m := Shortest.scale_le_of_decimalPoint some
  have size : (m : ℚ) < 2 ^ 53 * spacing m := by exact_mod_cast lt_spacing m
  have step : (0 : ℚ) < spacing m := Nat.cast_pos.mpr (spacing_pos m)
  apply roundRatio_eq_of_close positive fits
  · rw [value]
    linarith
  · rw [value]
    linarith
  · intro power _
    have size : (m : ℚ) ≤ 2 ^ 52 * spacing m := by exact_mod_cast le_spacing_of_power power
    rw [value]
    linarith

/-- The power of two just below the ratio is the `k`-th, and more than half a spacing below it unless it is
the ratio itself. -/
def ClearOf (k num den : Nat) : Prop :=
  (2 ^ k * den ≤ num ∧ num < 2 ^ (k + 1) * den) ∧
    (k ≤ 52 ∨ 2 ^ k * den = num ∨ (2 * 2 ^ k + 2 ^ (k - 52)) * den < 2 * num)

instance (k num den : Nat) : Decidable (ClearOf k num den) :=
  inferInstanceAs (Decidable ((_ ∧ _) ∧ (_ ∨ _ ∨ _)))

/-- Powers of ten in range, in units, and the power of two below each from an approximate logarithm. -/
theorem powers_of_ten_clear : ∀ i : Nat, i < 632 → ClearOf ((533331 + 1741647 * i) / 524288)
    (Decimal.fraction one ⟨1, (i : Int) - 323⟩).1 (Decimal.fraction one ⟨1, (i : Int) - 323⟩).2 := by
  decide +kernel

theorem scale_clear {e : Int} {k : Nat} (low : -323 ≤ e) (high : e < 309) (large : 52 < k)
    (above : (2 ^ k : ℚ) < scale e) : 2 * 2 ^ k + 2 ^ (k - 52) < 2 * scale e := by
  obtain ⟨i, rfl⟩ : ∃ i : Nat, e = i - 323 := ⟨(e + 323).toNat, by omega⟩
  obtain ⟨⟨least, most⟩, clear⟩ := powers_of_ten_clear i (by omega)
  generalize (533331 + 1741647 * i) / 524288 = j at *
  have value : ((Decimal.fraction one ⟨1, (i : Int) - 323⟩).1 : ℚ)
      / (Decimal.fraction one ⟨1, (i : Int) - 323⟩).2 = scale (i - 323) := by
    rw [Decimal.fraction_value, Decimal.magnitude, Nat.cast_one, one_mul]
  have positive := Decimal.fraction_positive one ⟨1, (i : Int) - 323⟩
  generalize Decimal.fraction one ⟨1, (i : Int) - 323⟩ = ratio at *
  have unit : (0 : ℚ) < ratio.2 := Nat.cast_pos.mpr positive
  rw [← value] at above ⊢
  rw [lt_div_iff₀ unit] at above
  rw [← mul_div_assoc, lt_div_iff₀ unit]
  have above' : 2 ^ k * ratio.2 < ratio.1 := by exact_mod_cast above
  have goal : (2 * 2 ^ k + 2 ^ (k - 52)) * ratio.2 < 2 * ratio.1 := by
    rcases Nat.lt_trichotomy k j with below | same | beyond
    · have power : 2 * 2 ^ k ≤ 2 ^ j := by
        rw [← Nat.pow_succ']
        exact Nat.pow_le_pow_right two_pos below
      have fine : 2 ^ (k - 52) ≤ 2 ^ k := Nat.pow_le_pow_right two_pos (Nat.sub_le k 52)
      have some : 0 < 2 ^ k := Nat.two_pow_pos k
      calc (2 * 2 ^ k + 2 ^ (k - 52)) * ratio.2 < (2 * (2 * 2 ^ k)) * ratio.2 :=
            Nat.mul_lt_mul_of_pos_right (by omega) positive
        _ ≤ (2 * 2 ^ j) * ratio.2 := Nat.mul_le_mul_right _ (by omega)
        _ ≤ 2 * ratio.1 := by
          rw [Nat.mul_assoc]
          exact Nat.mul_le_mul_left 2 least
    · subst same
      rcases clear with small | same | clear
      · omega
      · omega
      · exact clear
    · have power : 2 ^ (j + 1) * ratio.2 ≤ 2 ^ k * ratio.2 :=
        Nat.mul_le_mul_right _ (Nat.pow_le_pow_right two_pos beyond)
      omega
  exact_mod_cast goal

/-- A power of two is not read back from a decimal above it that is coarser than its own: the power of ten in
between is too far. -/
theorem not_power_of_coarser (fits : Representable m) (some : m ≠ 0) (digits : 0 < p) (granular : Granular y)
    (nonzero : y ≠ 0) (larger : y < m) (near : (significant m p).magnitude - y ≤ spacing y / 2)
    (fine : scale (decimalPoint y - p) < spacing y) (large : 52 < y.log2) : y ≠ 2 ^ y.log2 := by
  intro power
  have next : (y : ℚ) + spacing y ≤ m := by exact_mod_cast add_spacing_le granular fits.2 larger
  have cell := (significant_cell m p).2
  have wider : scale (decimalPoint y - p) < scale (decimalPoint m - p) := by linarith
  have later := scale_lt_iff.mp wider
  have ten := scale_le_significant some digits
  have high : (y : ℚ) < scale (decimalPoint m - 1) :=
    (Shortest.lt_scale_decimalPoint nonzero).trans_le (scale_le_iff.mpr (by omega))
  have inRange := Shortest.decimalPoint_le fits some
  have inRange' : -324 < decimalPoint m - 1 := by
    apply scale_lt_iff.mp
    have least : (1 : ℚ) ≤ y := by exact_mod_cast Nat.pos_of_ne_zero nonzero
    linarith [Decimal.scale_lt_half, Decimal.scale_pos (-324)]
  have exact : (2 ^ y.log2 : ℚ) = y := by exact_mod_cast power.symm
  have clear := scale_clear (by omega) (show decimalPoint m - 1 < 309 by omega) large (by rwa [exact])
  have width : (2 ^ (y.log2 - 52) : ℚ) = spacing y := by
    rw [spacing]
    push_cast
    rfl
  rw [exact, width] at clear
  linarith

/-- Where rounding goes down to a number and rounding that number goes down again, the number is still the
one that is read back. -/
theorem reread_of_crossing (fits : Representable m) (some : m ≠ 0) (digits : 0 < p)
    (above : (reread m p : ℚ) < (significant m p).magnitude)
    (below : (significant (reread m p) p).magnitude < reread m p) (nonzero : reread m p ≠ 0) :
    reread (reread m p) p = reread m p := by
  have near := roundRatio_within ((significant m p).fraction one).1
    ((significant m p).fraction_positive one)
  have granular : Granular (reread m p) := granular_roundRatio _ _
  change |_ - (reread m p : ℚ)| ≤ spacing (reread m p) / 2 at near
  rw [Decimal.fraction_value, abs_of_pos (sub_pos.mpr above)] at near
  generalize reread m p = y at *
  have step : (0 : ℚ) < spacing y := Nat.cast_pos.mpr (spacing_pos y)
  have larger : y < m := by
    by_contra smaller
    have order := significant_mono some digits (not_lt.mp smaller)
    linarith
  -- the decimal that was read is at least one step above the one that is shown now
  obtain ⟨k, coarser⟩ := scale_eq_mul
    (show decimalPoint y - p ≤ decimalPoint m - p by
      have := Shortest.decimalPoint_mono nonzero larger.le
      omega)
  have gap : (significant y p).magnitude + scale (decimalPoint y - p) ≤ (significant m p).magnitude := by
    have unit := scale_pos (decimalPoint y - p)
    have order : (significant y p).magnitude < (significant m p).magnitude := below.trans above
    rw [magnitude_significant, magnitude_significant, coarser, ← mul_assoc] at order ⊢
    have fewer : (significant y p).digits < (significant m p).digits * k := by
      exact_mod_cast lt_of_mul_lt_mul_right order unit.le
    have next : ((significant y p).digits : ℚ) + 1 ≤ (significant m p).digits * k := by
      exact_mod_cast fewer
    linarith [mul_le_mul_of_nonneg_right next unit.le]
  have cell := (significant_cell y p).2
  have fine : scale (decimalPoint y - p) < spacing y := by linarith
  refine roundRatio_eq_of_close ((significant y p).fraction_positive one) granular ?_ ?_ fun power large =>
    absurd power (not_power_of_coarser fits some digits granular nonzero larger near fine large)
  · rw [Decimal.fraction_value]
    linarith
  · rw [Decimal.fraction_value]
    linarith

/-- Rounding to a number of digits and reading back is a projection. -/
theorem reread_stable (fits : Representable m) (some : m ≠ 0) (digits : 0 < p) (nonzero : reread m p ≠ 0) :
    reread (reread m p) p = reread m p := by
  have first := (significant m p).fraction_positive one
  have second := (significant (reread m p) p).fraction_positive one
  have granular : Granular (reread m p) := granular_roundRatio _ _
  have nearer := significant_nearest nonzero digits (significant_digits_le some) (decimalPoint m - p)
  rw [← magnitude_significant] at nearer
  have crossing := reread_of_crossing fits some digits
  rw [← Decimal.fraction_value, ← Decimal.fraction_value] at nearer crossing
  by_cases low : ((significant m p).fraction one).1 / ((significant m p).fraction one).2 ≤ (reread m p : ℚ)
  · rw [abs_of_nonneg (sub_nonneg.mpr low)] at nearer
    by_cases low' : ((significant (reread m p) p).fraction one).1
        / ((significant (reread m p) p).fraction one).2 ≤ (reread m p : ℚ)
    · rw [abs_of_nonneg (sub_nonneg.mpr low')] at nearer
      refine Nat.le_antisymm (roundRatio_le second granular low') ?_
      exact roundRatio_mono first second (by linarith)
    · rw [abs_of_neg (sub_neg.mpr (not_le.mp low'))] at nearer
      exact roundRatio_reflected first second (not_le.mp low').le (by
        change _ - (reread m p : ℚ) ≤ reread m p - _
        linarith)
  · rw [abs_of_neg (sub_neg.mpr (not_le.mp low))] at nearer
    by_cases high : (reread m p : ℚ) ≤ ((significant (reread m p) p).fraction one).1
        / ((significant (reread m p) p).fraction one).2
    · rw [abs_of_nonpos (sub_nonpos.mpr high)] at nearer
      refine Nat.le_antisymm ?_ (le_roundRatio second granular high)
      exact roundRatio_mono second first (by linarith)
    · exact crossing (not_le.mp low) (not_le.mp high) nonzero

variable {negative : Bool}

theorem round_reread (negative : Bool) (m p : Nat) :
    (∃ fits, round negative ((significant m p).fraction one).1 ((significant m p).fraction one).2 =
        .finite negative (reread m p) fits) ∨
      round negative ((significant m p).fraction one).1 ((significant m p).fraction one).2 =
        .infinite negative :=
  round_cases negative _ _

theorem display_zero {fits : Representable 0} (low : 1 ≤ p) (high : p ≤ 100) :
    (finite negative 0 fits).display (some (p : Int)) = .ok "0" := by
  have inside : ¬ ((p : Int) < 1 ∨ 100 < (p : Int)) := by omega
  rw [display, roundSignificant, if_neg inside, if_pos rfl]
  rfl

theorem toText_zero (negative : Bool) (fits : Representable 0) : (finite negative 0 fits).toText = "0" := by
  rw [toText, if_pos rfl]

theorem display_zero_again (fits : Representable 0) (low : 1 ≤ p) (high : p ≤ 100) :
    (ofText (finite negative 0 fits).toText).display (some (p : Int)) = .ok (finite negative 0 fits).toText := by
  have blank : (finite negative 0 fits).isZero = true := rfl
  rw [ofText_toText rfl, if_pos blank, zero, round_unscaled false fits, display_zero low high, toText_zero]

theorem display_digits {fits : Representable m} (some : m ≠ 0) (low : 1 ≤ p) (high : p ≤ 100) :
    (finite negative m fits).display (.some (p : Int)) =
      .ok (round negative ((significant m p).fraction one).1 ((significant m p).fraction one).2).toText := by
  have inside : ¬ ((p : Int) < 1 ∨ 100 < (p : Int)) := by omega
  rw [display, roundSignificant, if_neg inside, if_neg some, Int.toNat_natCast,
    Decimal.toBinary64_eq_round]
  rfl

theorem display_exact (fits : Representable m) (many : 17 ≤ p) (high : p ≤ 100) :
    (finite negative m fits).display (some (p : Int)) = (finite negative m fits).display none := by
  by_cases zero : m = 0
  · subst zero
    rw [display_zero (by omega) high]
    rfl
  · rw [display_digits zero (by omega) high,
      round_of_roundRatio negative fits (reread_eq_self fits.2 zero many)]
    rfl

theorem display_again (fits : Representable m) (low : 1 ≤ p) (high : p ≤ 100) :
    ∃ t, (finite negative m fits).display (some (p : Int)) = .ok t ∧
      ((ofText t).isFinite = true → (ofText t).display (some (p : Int)) = .ok t) := by
  by_cases none : m = 0
  · subst none
    refine ⟨_, display_zero low high, fun _ => ?_⟩
    rw [← toText_zero negative fits]
    exact display_zero_again fits low high
  refine ⟨_, display_digits none low high, fun inRange => ?_⟩
  by_cases lost : reread m p = 0
  · rw [round_of_roundRatio negative representable_zero lost]
    exact display_zero_again representable_zero low high
  rcases round_reread negative m p with ⟨fits', rounded⟩ | out
  · have nonzero : (finite negative (reread m p) fits').isZero = false := by simpa [isZero] using lost
    have stable := reread_stable fits none (by omega) lost
    rw [rounded, ofText_toText rfl, nonzero, if_neg Bool.false_ne_true, display_digits lost low high,
      round_of_roundRatio negative fits' stable]
  · rw [out] at inRange
    cases negative <;> exact absurd inRange (by decide)

/-- From seventeen digits on a number is displayed as it is; with any number of digits, the number that is
displayed is displayed alike again. -/
theorem display_settles (x : Binary64) (finite : x.isFinite = true) :
    (∀ p : Int, 17 ≤ p → p ≤ 100 → x.display (some p) = x.display none) ∧
      ∀ p : Int, 1 ≤ p → p ≤ 100 → ∃ t, x.display (some p) = .ok t ∧
        ((ofText t).isFinite = true → (ofText t).display (some p) = .ok t) := by
  cases x with
  | nan => cases finite
  | infinite negative => cases finite
  | finite negative m fits =>
    constructor
    · intro p many high
      obtain ⟨p, rfl⟩ := Int.eq_ofNat_of_zero_le (show 0 ≤ p by omega)
      exact display_exact fits (by omega) (by omega)
    · intro p low high
      obtain ⟨p, rfl⟩ := Int.eq_ofNat_of_zero_le (show 0 ≤ p by omega)
      exact display_again fits (by omega) (by omega)

/-- Seventeen digits show that the sum is not three tenths; ten digits show three tenths, and then always. -/
theorem display_settles_sum : (ofText "0.1" + ofText "0.2").isFinite = true ∧
    (ofText "0.1" + ofText "0.2").display (some 17) = (ofText "0.1" + ofText "0.2").display none ∧
    (ofText "0.1" + ofText "0.2").display (some 10) = .ok "0.3" ∧ (ofText "0.3").display (some 10) = .ok "0.3" := by
  have finite : (ofText "0.1" + ofText "0.2").isFinite = true := by decide +kernel
  have shown : (ofText "0.1" + ofText "0.2").display (some 10) = .ok "0.3" := by decide +kernel
  have finite' : (ofText "0.3").isFinite = true := by decide +kernel
  obtain ⟨exact, again⟩ := display_settles (ofText "0.1" + ofText "0.2") finite
  obtain ⟨t, result, stays⟩ := again 10 (by decide) (by decide)
  obtain rfl : "0.3" = t := Except.ok.inj (shown.symm.trans result)
  exact ⟨finite, exact 17 (by decide) (by decide), shown, stays finite'⟩

end Calculator.Binary64
