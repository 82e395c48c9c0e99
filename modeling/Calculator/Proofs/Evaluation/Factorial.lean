import Mathlib.Data.Nat.Factorial.Basic
import Calculator.Evaluation.Registry
import Calculator.Proofs.Number.Value

/-!
The factorial. Its loop counts up to a bound that may be any number, also one that a counter of 53 bits
never gets past; what ends it is the product. Every multiplication is rounded by a small part of the
product only, so the products stay near the factorials, and the 171st leaves the range.
-/
namespace Calculator

/-- Refused by an error of the domain that says this. -/
def Refused (result : Except Fault Binary64) (message : Text) : Prop :=
  ∃ fault, result = .error fault ∧ fault.kind = .domainError ∧ fault.message = message

namespace Binary64

/-- Multiplying by a counter until it is beyond a bound or the product out of range: from a counter and a
product, how many multiplications are made and what comes of them. -/
inductive Multiplies (last : Binary64) : Binary64 → Binary64 → Nat → Except Fault Binary64 → Prop where
  | finished {counter result : Binary64} (beyond : lessOrEqual counter last = false) :
    Multiplies last counter result 0 (.ok result)
  | overflowed {counter result : Binary64} (within : lessOrEqual counter last = true)
    (out : (result * counter).isFinite = false) :
    Multiplies last counter result 1 (.error .factorialTooLarge)
  | continued {counter result : Binary64} {count : Nat} {outcome : Except Fault Binary64}
    (within : lessOrEqual counter last = true) (inside : (result * counter).isFinite = true)
    (rest : Multiplies last (counter + 1) (result * counter) count outcome) :
    Multiplies last counter result (count + 1) outcome

variable {last counter p x : Binary64} {a : Int} {k c m count count' : Nat} {outcome outcome' : Except Fault Binary64}

theorem Multiplies.unique (first : Multiplies last counter p count outcome)
    (second : Multiplies last counter p count' outcome') : count = count' ∧ outcome = outcome' := by
  induction first generalizing count' with
  | finished beyond =>
    cases second with
    | finished => exact ⟨rfl, rfl⟩
    | overflowed within => exact absurd (beyond.symm.trans within) Bool.false_ne_true
    | continued within => exact absurd (beyond.symm.trans within) Bool.false_ne_true
  | overflowed within out =>
    cases second with
    | finished beyond => exact absurd (beyond.symm.trans within) Bool.false_ne_true
    | overflowed => exact ⟨rfl, rfl⟩
    | continued _ inside => exact absurd (out.symm.trans inside) Bool.false_ne_true
  | continued within inside rest ih =>
    cases second with
    | finished beyond => exact absurd (beyond.symm.trans within) Bool.false_ne_true
    | overflowed _ out => exact absurd (out.symm.trans inside) Bool.false_ne_true
    | continued _ _ rest' =>
      obtain ⟨same, alike⟩ := ih rest'
      exact ⟨congrArg (· + 1) same, alike⟩

/-- An integer part has an integer place, counted in ones, unless it is not a number; an infinity stands at the
first power of two that is out of range. -/
theorem truncate_place (x : Binary64) : x.truncate = nan ∨ ∃ z : Int, x.truncate.position? = some (z * one) := by
  cases x with
  | nan => exact .inl rfl
  | infinite s =>
    have first : (limit : Int) = 2 ^ 1024 * one := by decide +kernel
    refine .inr ⟨if s then -2 ^ 1024 else 2 ^ 1024, ?_⟩
    show some (if s then -(limit : Int) else limit) = _
    rw [first]
    cases s with
    | false => rfl
    | true => rw [if_pos rfl, if_pos rfl, Int.neg_mul]
  | finite s m fits => exact .inr ⟨_, (counts_finite s fits).truncate.position_eq⟩

theorem less_of_places {y : Binary64} {b : Int} (first : x.position? = some a) (second : y.position? = some b) :
    less x y = decide (a < b) := by
  simp only [less, first, second]

theorem equal_of_places {y : Binary64} {b : Int} (first : x.position? = some a) (second : y.position? = some b) :
    equal x y = decide (a = b) := by
  simp only [equal, first, second]

section Place

variable {z : Int} (place : last.position? = some (z * one))

include place

theorem less_ofNat (few : c ≤ 2 ^ 53) : less last (ofNat c) = decide (z < c) := by
  rw [less_of_places place (counts_ofNat few).position_eq, decide_eq_decide, Int.natCast_mul]
  exact Int.mul_lt_mul_right one_pos_int

theorem equal_ofNat (few : c ≤ 2 ^ 53) : equal last (ofNat c) = decide (z = c) := by
  rw [equal_of_places place (counts_ofNat few).position_eq, decide_eq_decide, Int.natCast_mul]
  exact mul_left_inj' one_pos_int.ne'

theorem ofNat_lessOrEqual (few : c ≤ 2 ^ 53) : lessOrEqual (ofNat c) last = decide (c ≤ z) := by
  have counted := (counts_ofNat few).position_eq
  rw [lessOrEqual, less_of_places counted place, equal_of_places counted place, ← Bool.decide_or, decide_eq_decide,
    ← le_iff_lt_or_eq, Int.natCast_mul]
  exact Int.mul_le_mul_right one_pos_int

/-- One step of the product, by the test of the loop. -/
theorem product_step (fuel : Nat) (p : Binary64) (few : c ≤ 2 ^ 53) :
    Registry.product (fuel + 1) c last p =
      if lessOrEqual (ofNat c) last then
        if (p * ofNat c).isFinite then Registry.product fuel (c + 1) last (p * ofNat c)
        else .error .factorialTooLarge
      else .ok p := by
  rw [Registry.product, less_ofNat place few, ofNat_lessOrEqual place few]
  by_cases within : (c : Int) ≤ z
  · rw [decide_eq_true within, decide_eq_false (by omega)]
    rfl
  · rw [decide_eq_false within, decide_eq_true (by omega)]
    rfl

/-- The product computed with a natural counter is what the loop comes to, given that many steps. -/
theorem product_of_multiplies {fuel : Nat} (run : Multiplies last (ofNat c) p count outcome)
    (few : c + count ≤ 2 ^ 53) (enough : count ≤ fuel) : Registry.product fuel c last p = outcome := by
  -- by induction on the run; up to 2 ^ 53 its counter and the natural one go up together
  generalize counted : ofNat c = counter at run
  induction run generalizing c fuel with
  | finished beyond =>
    cases fuel with
    | zero => rfl
    | succ fuel =>
      rw [← counted] at beyond
      rw [product_step place fuel _ (by omega), beyond, if_neg Bool.false_ne_true]
  | overflowed within out =>
    obtain ⟨fuel, rfl⟩ := Nat.exists_eq_add_of_le' enough
    rw [← counted] at within out
    rw [product_step place fuel _ (by omega), within, if_pos rfl, out, if_neg Bool.false_ne_true]
  | continued within inside rest ih =>
    obtain ⟨fuel, rfl⟩ := Nat.exists_eq_succ_of_ne_zero (show fuel ≠ 0 by omega)
    have next := ofNat_add_one (show c < 2 ^ 53 by omega)
    rw [← counted] at within inside ih
    rw [product_step place fuel _ (by omega), within, if_pos rfl, inside, if_pos rfl]
    exact ih (by omega) (by omega) next.symm

end Place

/-- The product up to a factor is near the factorial, and as long as that fits into 53 bits it is that. -/
structure Approximates (p : Binary64) (k : Nat) : Prop where
  finite : p.isFinite = true
  near : |p.value - k.factorial| ≤ k.factorial * (k / 2 ^ 52)
  exact : k ≤ 22 → p.value = k.factorial

theorem approximates_one (few : k ≤ 1) : Approximates 1 k := by
  have none : k.factorial = 1 := Nat.factorial_eq_one.mpr few
  have value : (1 : Binary64).value = 1 := by rw [counts_one.value_eq, Int.cast_natCast, div_self one_pos_rat.ne']
  refine ⟨counts_one.finite, ?_, fun _ => ?_⟩
  · rw [value, none, Nat.cast_one, sub_self, abs_zero, one_mul]
    exact div_nonneg k.cast_nonneg (pow_nonneg zero_le_two 52)
  · rw [value, none, Nat.cast_one]

theorem exists_magnitude (inside : p.isFinite = true) (positive : 0 < p.value) :
    ∃ m fits, p = .finite false m fits ∧ (m : ℚ) = p.value * one := by
  have unit := one_pos_rat
  obtain ⟨s, m, fits, rfl, -⟩ := (counts_self inside).eq_finite
  have value := (counts_finite s fits).value_eq
  cases s with
  | false =>
    refine ⟨m, fits, rfl, ?_⟩
    rw [value, if_neg Bool.false_ne_true, Int.cast_natCast, div_mul_cancel₀ _ unit.ne']
  | true =>
    have below : (finite true m fits).value ≤ 0 := by
      rw [value, if_pos rfl, Int.cast_neg, Int.cast_natCast, neg_div, neg_nonpos]
      exact div_nonneg m.cast_nonneg unit.le
    exact absurd positive (not_lt.mpr below)

/-- A product of the loop is a magnitude, no more than twice the factorial and not among the least. -/
theorem Approximates.magnitude (approximates : Approximates p k) (few : k ≤ 170) :
    ∃ m fits, p = .finite false m fits ∧ (m : ℚ) = p.value * one ∧ p.value ≤ 2 * k.factorial ∧ 2 ^ 52 ≤ m := by
  have least : (1 : ℚ) ≤ k.factorial := by exact_mod_cast k.factorial_pos
  have part : (k : ℚ) / 2 ^ 52 ≤ 1 / 2 := by
    have few' : (k : ℚ) ≤ 170 := by exact_mod_cast few
    rw [div_le_div_iff₀ (by positivity) two_pos]
    linarith
  obtain ⟨low, high⟩ := abs_le.mp (approximates.near.trans (mul_le_mul_of_nonneg_left part (by linarith)))
  have half : 1 / 2 ≤ p.value := by linarith
  obtain ⟨m, fits, same, size⟩ := exists_magnitude approximates.finite (by linarith)
  have wide : (2 : ℚ) ^ 53 ≤ one := by
    have closed : 2 ^ 53 ≤ one := by decide +kernel
    exact_mod_cast closed
  have far : (2 : ℚ) ^ 52 ≤ m := by
    have scaled := mul_le_mul_of_nonneg_right half one_pos_rat.le
    linarith
  exact ⟨m, fits, same, size, by linarith, by exact_mod_cast far⟩

/-- Multiplying a magnitude by a small integer rounds their exact product. -/
theorem mul_ofNat (fits : Representable m) (few : c ≤ 2 ^ 53) :
    finite false m fits * ofNat c = round false (m * c) 1 := by
  have scaled : round false (m * c * one) (1 * one) = round false (m * c) 1 := round_scale false one_pos
  rw [Nat.one_mul] at scaled
  rw [ofNat, round_unscaled false (representable_whole few)]
  show Binary64.mul _ _ = _
  rw [Binary64.mul, Bool.xor_false, ← Nat.mul_assoc, scaled]

/-- What rounding changes, counted in ones. -/
theorem relative_ones {v : ℚ} (size : (m : ℚ) = v * one) (large : 2 ^ 52 ≤ m) :
    |v - roundRatio m 1 / one| ≤ v / 2 ^ 53 := by
  have unit := one_pos_rat
  have relative := roundRatio_relative m Nat.one_pos (by rwa [Nat.div_one])
  rw [Nat.cast_one, div_one, size] at relative
  have scaled : v - roundRatio m 1 / one = (v * one - roundRatio m 1) / one := by
    rw [sub_div, mul_div_cancel_right₀ _ unit.ne']
  rw [scaled, abs_div, abs_of_pos unit, div_le_iff₀ unit]
  linarith

theorem factorial_in_range : 2 * Nat.factorial 170 * one < overflow := by decide +kernel

theorem factorial_out_of_range : overflow * 2 ^ 52 ≤ (2 ^ 52 - 170) * Nat.factorial 171 * one := by decide +kernel

theorem representable_factorial : ∀ k ≤ 22, Representable (k.factorial * one) := by decide +kernel

theorem factorial_succ_rat (k : Nat) : ((k + 1).factorial : ℚ) = (k + 1 : Nat) * k.factorial := by
  rw [Nat.factorial_succ, Nat.cast_mul]

theorem product_in_range {v : ℚ} (high : v ≤ 2 * k.factorial) (few : k + 1 ≤ 170) :
    v * (k + 1 : Nat) * one < overflow := by
  have most : ((k + 1).factorial : ℚ) ≤ Nat.factorial 170 := by exact_mod_cast Nat.factorial_le few
  have closed : 2 * (Nat.factorial 170 : ℚ) * one < overflow := by exact_mod_cast factorial_in_range
  have scaled := mul_le_mul_of_nonneg_right high (Nat.cast_nonneg (α := ℚ) (k + 1))
  rw [factorial_succ_rat] at most
  refine lt_of_le_of_lt (mul_le_mul_of_nonneg_right ?_ one_pos_rat.le) closed
  linarith

/-- Errors add up: one more rounded multiplication adds one more part. -/
theorem near_mul {v w f c e : ℚ} (positive : 0 ≤ c) (near : |v - f| ≤ f * (e / 2 ^ 52)) (high : v ≤ 2 * f)
    (rounded : |v * c - w| ≤ v * c / 2 ^ 53) : |w - c * f| ≤ c * f * ((e + 1) / 2 ^ 52) := by
  have before : |v * c - c * f| ≤ c * f * (e / 2 ^ 52) := by
    rw [mul_comm v, ← mul_sub, abs_mul, abs_of_nonneg positive, mul_assoc]
    exact mul_le_mul_of_nonneg_left near positive
  have part : v * c / 2 ^ 53 ≤ c * f / 2 ^ 52 := by
    have := mul_le_mul_of_nonneg_right high positive
    linarith
  calc |w - c * f| ≤ |w - v * c| + |v * c - c * f| := abs_sub_le _ _ _
    _ ≤ c * f / 2 ^ 52 + c * f * (e / 2 ^ 52) := by
      rw [abs_sub_comm w]
      exact add_le_add (rounded.trans part) before
    _ = c * f * ((e + 1) / 2 ^ 52) := by ring

/-- The products up to 170 factors stay in range and near the factorials. -/
theorem Approximates.step (approximates : Approximates p k) (few : k + 1 ≤ 170) :
    Approximates (p * ofNat (k + 1)) (k + 1) := by
  obtain ⟨m, fits, rfl, size, high, large⟩ := approximates.magnitude (by omega)
  obtain ⟨-, near, exact⟩ := approximates
  generalize (Binary64.finite false m fits).value = v at *
  have product : ((m * (k + 1) : Nat) : ℚ) = v * (k + 1 : Nat) * one := by
    rw [Nat.cast_mul, size, mul_right_comm]
  have counts := counts_round (product.trans_lt (product_in_range high few))
  have value := counts.value_eq
  rw [Int.cast_natCast] at value
  rw [mul_ofNat fits (by omega)]
  refine ⟨counts.finite, ?_, fun few' => ?_⟩
  · have rounded := relative_ones product (large.trans (Nat.le_mul_of_pos_right m k.succ_pos))
    have one_more := near_mul (Nat.cast_nonneg (k + 1)) near high rounded
    rwa [← Nat.cast_succ, ← factorial_succ_rat, ← value] at one_more
  · have whole : m * (k + 1) = (k + 1).factorial * one := by
      apply Nat.cast_injective (R := ℚ)
      rw [product, exact (by omega), Nat.cast_mul, factorial_succ_rat, mul_comm (k.factorial : ℚ)]
    have rounded := roundRatio_exact (representable_factorial (k + 1) few').2 Nat.one_pos
    rw [Nat.mul_one, ← whole] at rounded
    rw [value, rounded, whole, Nat.cast_mul, mul_div_cancel_right₀ _ one_pos_rat.ne']

/-- The next one is out of range. -/
theorem Approximates.out (approximates : Approximates p 170) : (p * ofNat 171).isFinite = false := by
  obtain ⟨m, fits, rfl, size, -, -⟩ := approximates.magnitude le_rfl
  have unit := one_pos_rat
  have least := (abs_le.mp approximates.near).1
  have closed : (overflow : ℚ) * 2 ^ 52 ≤ ((2 ^ 52 - 170 : Nat) : ℚ) * Nat.factorial 171 * one := by
    exact_mod_cast factorial_out_of_range
  rw [Nat.factorial_succ, Nat.cast_mul] at closed
  rw [mul_ofNat fits (by decide), ← Bool.not_eq_true, round_isFinite_iff false Nat.one_pos, not_lt, Nat.cast_one,
    div_one, Nat.cast_mul, size]
  generalize (Binary64.finite false m fits).value = v at *
  generalize (Nat.factorial 170 : ℚ) = f at *
  generalize (one : ℚ) = u at *
  generalize (overflow : ℚ) = o at *
  have scaled := mul_le_mul_of_nonneg_right least unit.le
  norm_num at closed scaled ⊢
  linarith

/-- The loop gets to every factor up to its bound and to 170, with a product near the factorial. -/
theorem exists_product {z : Int} (place : last.position? = some (z * one)) (some : 1 ≤ k) (within : k ≤ z)
    (few : k ≤ 170) : ∃ p, Approximates p k ∧ ∀ count outcome,
      Multiplies last (ofNat (k + 1)) p count outcome → Multiplies last 2 1 (count + (k - 1)) outcome := by
  -- what is still to come of the loop is left open, so that one more step can be put before it
  induction k, some using Nat.le_induction with
  | base => exact ⟨1, approximates_one le_rfl, fun _ _ run => run⟩
  | succ k some ih =>
    obtain ⟨p, approximates, lead⟩ := ih (by omega) (by omega)
    have next := approximates.step few
    refine ⟨p * ofNat (k + 1), next, fun count outcome run => ?_⟩
    have test : lessOrEqual (ofNat (k + 1)) last = true := by
      rw [ofNat_lessOrEqual place (by omega), decide_eq_true within]
    rw [← ofNat_add_one (show k + 1 < 2 ^ 53 by omega)] at run
    have longer := lead _ _ (.continued test next.finite run)
    rwa [show count + 1 + (k - 1) = count + (k + 1 - 1) by omega] at longer

/-- Up to 170 factors it comes to the end, and to a product near the factorial. -/
theorem multiplies_within (place : last.position? = some ((k : Int) * one)) (few : k ≤ 170) :
    ∃ p, Approximates p k ∧ Multiplies last 2 1 (k - 1) (.ok p) := by
  have beyond : lessOrEqual (ofNat (k + 1)) last = false := by
    rw [ofNat_lessOrEqual place (by omega), decide_eq_false (by omega)]
  by_cases none : k = 0
  · subst none
    have beyond' : lessOrEqual (ofNat 2) last = false := by
      rw [ofNat_lessOrEqual place (by decide), decide_eq_false (by decide)]
    exact ⟨1, approximates_one (by decide), .finished beyond'⟩
  · obtain ⟨p, approximates, lead⟩ := exists_product place (Nat.one_le_iff_ne_zero.mpr none) le_rfl few
    have run := lead 0 _ (.finished beyond)
    rw [Nat.zero_add] at run
    exact ⟨p, approximates, run⟩

/-- Any further bound is as good as none: the 170th multiplication leaves the range. -/
theorem multiplies_beyond {z : Int} (place : last.position? = some (z * one)) (many : 171 ≤ z) :
    Multiplies last 2 1 170 (.error .factorialTooLarge) := by
  obtain ⟨p, approximates, lead⟩ := exists_product place (show 1 ≤ 170 by decide) (by omega) le_rfl
  have test : lessOrEqual (ofNat 171) last = true := by
    rw [ofNat_lessOrEqual place (by decide), decide_eq_true (by omega)]
  exact lead 1 _ (.overflowed test approximates.out)

/-- What the factorial is of a number with the integer part `n`. -/
structure FactorialOf (n : Binary64) (result : Except Fault Binary64) : Prop where
  negative : Refused result "factorial(): not defined for negative values" ↔ less n 0 = true
  tooLarge : Refused result "factorial(): result too large" ↔ lessOrEqual 171 n = true
  finite : less n 0 = false → lessOrEqual 171 n = false → ∃ y, result = .ok y ∧ y.isFinite = true
  near : ∀ k ≤ 170, equal n (ofNat k) = true →
    ∃ y, result = .ok y ∧ |y.value - k.factorial| ≤ k.factorial * (k / 2 ^ 52)
  exact : ∀ k ≤ 22, equal n (ofNat k) = true → ∃ y, result = .ok y ∧ y.value = k.factorial
  ends : less n 0 = false → ∃ count ≤ 170, Multiplies n 2 1 count result ∧
    ∀ count' outcome, Multiplies n 2 1 count' outcome → count' = count ∧ outcome = result

theorem not_refused_ok {y : Binary64} {message : Text} : ¬ Refused (.ok y) message := by
  rintro ⟨fault, same, -⟩
  cases same

theorem refused_error_iff {fault : Fault} {message : Text} (kind : fault.kind = .domainError) :
    Refused (.error fault) message ↔ fault.message = message := by
  constructor
  · rintro ⟨_, same, -, worded⟩
    rwa [Except.error.inj same]
  · exact fun same => ⟨fault, rfl, kind, same⟩

theorem nan_equal (y : Binary64) : equal nan y = false :=
  rfl

theorem lessOrEqual_nan (y : Binary64) : lessOrEqual y nan = false := by
  cases y <;> rfl

/-- What is not a number leaves the loop nothing to do. -/
theorem factorialOf_nan : FactorialOf nan (.ok 1) where
  negative := iff_of_false not_refused_ok Bool.false_ne_true
  tooLarge := by
    rw [lessOrEqual_nan]
    exact iff_of_false not_refused_ok Bool.false_ne_true
  finite _ _ := ⟨1, rfl, counts_one.finite⟩
  near _ _ same := absurd ((nan_equal _).symm.trans same) Bool.false_ne_true
  exact _ _ same := absurd ((nan_equal _).symm.trans same) Bool.false_ne_true
  ends _ := ⟨0, Nat.zero_le _, .finished (lessOrEqual_nan 2), fun _ _ run =>
    run.unique (.finished (lessOrEqual_nan 2))⟩

/-- An integer part that is a number is spoken of by its place. -/
theorem factorialOf_of_place {z : Int} (place : last.position? = some (z * one)) {result : Except Fault Binary64}
    (negative : Refused result "factorial(): not defined for negative values" ↔ z < 0)
    (tooLarge : Refused result "factorial(): result too large" ↔ 171 ≤ z)
    (within : ∀ k : Nat, z = k → k ≤ 170 → ∃ p, result = .ok p ∧ Approximates p k)
    (ends : 0 ≤ z → ∃ count ≤ 170, Multiplies last 2 1 count result) : FactorialOf last result := by
  have below : less last 0 = decide (z < 0) := less_ofNat (c := 0) place (by decide)
  have beyond : lessOrEqual 171 last = decide (171 ≤ z) := ofNat_lessOrEqual (c := 171) place (by decide)
  have stands : ∀ k ≤ 170, equal last (ofNat k) = true → z = k := fun k few same => by
    rwa [equal_ofNat place (by omega), decide_eq_true_eq] at same
  exact {
    negative := by rw [negative, below, decide_eq_true_eq]
    tooLarge := by rw [tooLarge, beyond, decide_eq_true_eq]
    finite := fun positive inside => by
      rw [below, decide_eq_false_iff_not] at positive
      rw [beyond, decide_eq_false_iff_not] at inside
      obtain ⟨p, result, approximates⟩ := within z.toNat (by omega) (by omega)
      exact ⟨p, result, approximates.finite⟩
    near := fun k few same => by
      obtain ⟨p, result, approximates⟩ := within k (stands k few same) few
      exact ⟨p, result, approximates.near⟩
    exact := fun k few same => by
      obtain ⟨p, result, approximates⟩ := within k (stands k (by omega) same) (by omega)
      exact ⟨p, result, approximates.exact few⟩
    ends := fun positive => by
      rw [below, decide_eq_false_iff_not] at positive
      obtain ⟨count, few, run⟩ := ends (by omega)
      exact ⟨count, few, run, fun _ _ run' => run'.unique run⟩ }

/-- The factorial of any number is refused or computed, within 170 multiplications; a result is near the exact
factorial, and up to 22 it is the exact one. -/
theorem apply_factorial (r : Registry) (x : Binary64) :
    FactorialOf x.truncate (r.apply .factorial [.number x]) := by
  show FactorialOf x.truncate (Registry.factorial x)
  rw [Registry.factorial]
  rcases truncate_place x with none | ⟨z, place⟩
  · rw [none]
    exact factorialOf_nan
  generalize x.truncate = last at *
  have number : last.isNaN = false := by
    cases last with
    | nan => cases place
    | infinite s => rfl
    | finite s m fits => rfl
  have below : less last 0 = decide (z < 0) := less_ofNat (c := 0) place (by decide)
  rw [below, number, if_neg Bool.false_ne_true]
  by_cases negative : z < 0
  · rw [decide_eq_true negative, if_pos rfl]
    refine factorialOf_of_place place (iff_of_true ?_ negative) (iff_of_false ?_ (by omega))
      (fun k same => by omega) (by omega)
    · exact (refused_error_iff rfl).mpr rfl
    · rw [refused_error_iff rfl]
      decide +kernel
  rw [decide_eq_false negative, if_neg Bool.false_ne_true]
  by_cases many : 171 ≤ z
  · have run := multiplies_beyond place many
    rw [product_of_multiplies (c := 2) place run (by decide) le_rfl]
    refine factorialOf_of_place place (iff_of_false ?_ negative) (iff_of_true ?_ many) (fun k same => by omega)
      fun _ => ⟨170, le_rfl, run⟩
    · rw [refused_error_iff rfl]
      decide +kernel
    · exact (refused_error_iff rfl).mpr rfl
  · obtain ⟨k, rfl⟩ := Int.eq_ofNat_of_zero_le (not_lt.mp negative)
    obtain ⟨p, approximates, run⟩ := multiplies_within place (by omega)
    rw [product_of_multiplies (c := 2) place run (by omega) (by omega)]
    refine factorialOf_of_place place (iff_of_false not_refused_ok negative) (iff_of_false not_refused_ok many) ?_
      fun _ => ⟨k - 1, by omega, run⟩
    rintro j same -
    obtain rfl := Int.ofNat.inj same
    exact ⟨p, rfl, approximates⟩

end Binary64

end Calculator
