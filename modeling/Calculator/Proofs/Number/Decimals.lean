import Mathlib.Algebra.Group.Nat.Defs
import Calculator.Number.Shortest
import Calculator.Proofs.Number.Exactness

/-!
Decimals by the number that they denote: zeros behind the digits go into the exponent, and the digits
chosen for a number read back as it.
-/
namespace Calculator

namespace Decimal

/-- The decimal as a fraction of numbers, the first counted in the given unit. -/
def fraction (unit : Nat) (d : Decimal) : Nat × Nat :=
  if 0 ≤ d.exponent then (d.digits * 10 ^ d.exponent.toNat * unit, 1)
  else (d.digits * unit, 10 ^ (-d.exponent).toNat)

theorem fraction_positive (unit : Nat) (d : Decimal) : 0 < (d.fraction unit).2 := by
  unfold fraction
  split
  · exact Nat.one_pos
  · exact Nat.pow_pos (by decide)

theorem fraction_neg (unit k : Nat) {e : Int} {j : Nat} (below : e < 0) (same : -e = j) :
    fraction unit ⟨k, e⟩ = (k * unit, 10 ^ j) := by
  simp only [fraction, Int.not_le.mpr below, if_false, same, Int.toNat_natCast]

/-- A zero behind the digits goes into the exponent. -/
theorem fraction_ten (unit k : Nat) (e : Int) :
    (fraction unit ⟨10 * k, e⟩).1 * (fraction unit ⟨k, e + 1⟩).2
      = (fraction unit ⟨k, e + 1⟩).1 * (fraction unit ⟨10 * k, e⟩).2 := by
  -- below the exponent `-1` both have a power of ten below the line, at it one has, above it neither
  rcases Int.lt_trichotomy e (-1) with below | rfl | above
  · have first : ¬ 0 ≤ e := by omega
    have second : ¬ 0 ≤ e + 1 := by omega
    have shift : (-e).toNat = (-(e + 1)).toNat + 1 := by omega
    simp only [fraction, first, second, if_false, shift, Nat.pow_succ]
    ac_rfl
  · simp only [fraction, Int.reduceNeg, Int.reduceAdd, Int.reduceLE, if_true, if_false, Int.reduceToNat]
    simp only [Nat.pow_zero, Nat.pow_one, Nat.mul_one]
    ac_rfl
  · have first : 0 ≤ e := by omega
    have second : 0 ≤ e + 1 := by omega
    have shift : (e + 1).toNat = e.toNat + 1 := by omega
    simp only [fraction, first, second, if_true, shift, Nat.pow_succ]
    ac_rfl

theorem width_le {n k : Nat} (positive : 0 < k) (few : n < 10 ^ k) : width n ≤ k :=
  (Nat.length_toDigits_le_iff (by decide) positive).mpr few

theorem lt_width {n k : Nat} (positive : 0 < k) (many : 10 ^ k ≤ n) : k < width n := by
  refine Nat.lt_of_not_le fun short => ?_
  exact Nat.not_lt_of_le many ((Nat.length_toDigits_le_iff (by decide) positive).mp short)

theorem width_mul_ten {n : Nat} (positive : 0 < n) : width (10 * n) = width n + 1 := by
  unfold width
  rw [Nat.toDigits_of_base_le (by decide) (by omega), List.length_append,
    Nat.mul_div_cancel_left n (by decide)]
  rfl

theorem toBinary64_zero (negative : Bool) (e : Int) :
    toBinary64 negative ⟨0, e⟩ = .round negative 0 1 := by
  rw [toBinary64]
  exact if_pos rfl

theorem toBinary64_isNegative (negative : Bool) (d : Decimal) :
    (d.toBinary64 negative).isNegative = negative := by
  unfold toBinary64
  split
  · exact Binary64.round_isNegative negative _ _
  split
  · rfl
  split
  · exact Binary64.round_isNegative negative _ _
  split
  · exact Binary64.round_isNegative negative _ _
  · exact Binary64.round_isNegative negative _ _

theorem toBinary64_neg (negative : Bool) (d : Decimal) :
    d.toBinary64 (!negative) = (d.toBinary64 negative).neg := by
  unfold toBinary64
  simp only [Binary64.round_neg, apply_ite Binary64.neg]
  rfl

/-- Within the range the decimal is rounded once. -/
theorem toBinary64_eq (negative : Bool) {k : Nat} {e : Int} (some : k ≠ 0) (low : -324 < e + width k)
    (high : e + width k < 310) :
    toBinary64 negative ⟨k, e⟩ =
      .round negative (fraction Binary64.one ⟨k, e⟩).1 (fraction Binary64.one ⟨k, e⟩).2 := by
  have inside : ¬ 310 ≤ e + width k := by omega
  have left : ¬ e + width k ≤ -324 := by omega
  unfold toBinary64 fraction
  simp only [some, inside, left, if_false, Nat.pow_eq]
  split
  · rfl
  · rfl

theorem toBinary64_ten (negative : Bool) (k : Nat) (e : Int) :
    toBinary64 negative ⟨10 * k, e⟩ = toBinary64 negative ⟨k, e + 1⟩ := by
  by_cases none : k = 0
  · rw [none, Nat.mul_zero, toBinary64_zero, toBinary64_zero]
  have same : e + width (10 * k) = e + 1 + width k := by
    rw [width_mul_ten (by omega)]
    omega
  have digits : 10 * k ≠ 0 := by omega
  by_cases low : e + 1 + width k ≤ -324
  · have high : ¬ 310 ≤ e + 1 + width k := by omega
    unfold toBinary64
    rw [if_neg digits, if_neg none, same, if_neg high, if_neg high, if_pos low, if_pos low]
  by_cases high : 310 ≤ e + 1 + width k
  · unfold toBinary64
    rw [if_neg digits, if_neg none, same, if_pos high, if_pos high]
  rw [toBinary64_eq negative digits (by omega) (by omega), toBinary64_eq negative none (by omega) (by omega)]
  exact Binary64.round_congr negative (fraction_positive _ _) (fraction_positive _ _)
    (fraction_ten Binary64.one k e)

theorem toBinary64_pow_ten (negative : Bool) (k j : Nat) (e : Int) :
    toBinary64 negative ⟨k * 10 ^ j, e⟩ = toBinary64 negative ⟨k, e + j⟩ := by
  induction j generalizing e with
  | zero => simp
  | succ j ih =>
    have last : k * 10 ^ (j + 1) = 10 * (k * 10 ^ j) := by
      rw [Nat.pow_succ]
      ac_rfl
    rw [last, toBinary64_ten, ih]
    congr 2
    omega

end Decimal

namespace Shortest

open Binary64 (Representable)

variable {m : Nat}

theorem readsBack_iff (fits : Representable m) {d : Decimal} :
    readsBack m d = true ↔ d.toBinary64 false = .finite false m fits := by
  have sign := d.toBinary64_isNegative false
  unfold readsBack
  cases read : d.toBinary64 false with
  | nan => simp
  | infinite s => simp
  | finite s n fits' =>
    rw [read] at sign
    obtain rfl : s = false := sign
    simp

theorem onGrid?_readsBack {step : Int} {d : Decimal} (found : onGrid? m step = some d) :
    readsBack m d = true := by
  unfold onGrid? at found
  rcases onGrid m step with ⟨num, den⟩
  dsimp only at found
  split at found
  · rename_i lower upper
    split at found
    · exact Option.some.inj found ▸ lower
    split at found
    · exact Option.some.inj found ▸ upper
    · rw [← Option.some.inj found]
      split
      · exact lower
      · exact upper
  · rename_i lower _
    exact Option.some.inj found ▸ lower
  · rename_i _ upper
    exact Option.some.inj found ▸ upper
  · cases found

theorem exact_width (fits : Representable m) (some : m ≠ 0) :
    750 < Decimal.width (m * Nat.pow 5 1074) ∧ Decimal.width (m * Nat.pow 5 1074) ≤ 1383 := by
  have least : 10 ^ 750 ≤ Nat.pow 5 1074 := by decide +kernel
  have most : Binary64.limit * Nat.pow 5 1074 ≤ 10 ^ 1383 := by decide +kernel
  have positive : 0 < Nat.pow 5 1074 := by decide +kernel
  constructor
  · exact Decimal.lt_width (by decide)
      (Nat.le_trans least (Nat.le_mul_of_pos_left _ (Nat.pos_of_ne_zero some)))
  · exact Decimal.width_le (by decide)
      (Nat.lt_of_lt_of_le (Nat.mul_lt_mul_of_pos_right fits.1 positive) most)

theorem exact_readsBack (fits : Representable m) (some : m ≠ 0) : readsBack m (exact m) = true := by
  have fives : Nat.pow 5 1074 ≠ 0 := by decide +kernel
  have digits : m * Nat.pow 5 1074 ≠ 0 := Nat.mul_ne_zero some fives
  obtain ⟨low, high⟩ := exact_width fits some
  have power : Nat.pow 5 1074 * Binary64.one = 10 ^ 1074 := by decide +kernel
  have tens : 0 < 10 ^ 1074 := by decide +kernel
  have rounded := Binary64.round_exact false fits tens
  have value := Decimal.fraction_neg Binary64.one (m * Nat.pow 5 1074) (show -1074 < 0 by decide)
    (show - -1074 = ((1074 : Nat) : Int) by decide)
  rw [Nat.mul_assoc, power] at value
  generalize 10 ^ 1074 = den at value rounded
  rw [readsBack_iff fits, exact, Decimal.toBinary64_eq false digits (by omega) (by omega), value]
  exact rounded

theorem stripZeros_toBinary64 (negative : Bool) (fuel : Nat) (d : Decimal) :
    (stripZeros fuel d).toBinary64 negative = d.toBinary64 negative := by
  induction fuel generalizing d with
  | zero => rfl
  | succ fuel ih =>
    unfold stripZeros
    split
    · rename_i zero
      have whole : 10 * (d.digits / 10) = d.digits := by omega
      rw [ih, ← Decimal.toBinary64_ten, whole]
    · rfl

theorem digits_toBinary64 (fits : Representable m) (some : m ≠ 0) :
    (digits m).toBinary64 false = .finite false m fits := by
  rw [digits, stripZeros_toBinary64, ← readsBack_iff fits]
  cases found : (List.range 17).findSome? fun (n : Nat) => onGrid? m (decimalPoint m - (n + 1)) with
  | none => exact exact_readsBack fits some
  | some d =>
    obtain ⟨n, -, there⟩ := List.exists_of_findSome?_eq_some found
    exact onGrid?_readsBack there

end Shortest

end Calculator
