import Mathlib.Data.Rat.Floor
import Mathlib.Tactic.LinearCombination
import Calculator.Evaluation.Operation
import Calculator.Proofs.Number.Value

/-!
Floor division and remainder. The quotient is taken from the truncating remainder and lowered by one where
that opposes the divisor; on integers nothing is rounded on the way.
-/
namespace Calculator

/-- Division with the remainder on the side of the divisor. -/
structure Floored (a b q r : Int) : Prop where
  exact : a = q * b + r
  between : 0 ≤ r ∧ r < b ∨ b < r ∧ r ≤ 0

namespace Floored

variable {a b q r : Int}

theorem neg (floored : Floored a b q r) : Floored (-a) (-b) q (-r) := by
  obtain ⟨exact, between⟩ := floored
  exact ⟨by rw [exact]; ring, by omega⟩

theorem natAbs_tmod_lt (a : Int) (some : b ≠ 0) : (a.tmod b).natAbs < b.natAbs := by
  rw [Int.natAbs_tmod]
  exact Nat.mod_lt _ (Int.natAbs_pos.mpr some)

theorem of_tmod (some : b ≠ 0) (agree : a.tmod b ≠ 0 → (a.tmod b < 0 ↔ b < 0)) :
    Floored a b (a.tdiv b) (a.tmod b) := by
  have less := natAbs_tmod_lt a some
  refine ⟨?_, by omega⟩
  rw [Int.mul_comm, Int.mul_tdiv_add_tmod]

theorem of_opposing (nonzero : a.tmod b ≠ 0) (oppose : ¬ (a.tmod b < 0 ↔ b < 0)) (some : b ≠ 0) :
    Floored a b (a.tdiv b - 1) (a.tmod b + b) := by
  have less := natAbs_tmod_lt a some
  have parts := Int.mul_tdiv_add_tmod a b
  refine ⟨?_, by omega⟩
  rw [Int.sub_mul, Int.mul_comm]
  omega

theorem mul_pos (floored : Floored a b q r) (some : r ≠ 0) : 0 < r * b := by
  rcases floored.between with ⟨low, high⟩ | ⟨low, high⟩
  · exact Int.mul_pos (by omega) (by omega)
  · exact Int.mul_pos_of_neg_of_neg (by omega) (by omega)

theorem abs_lt (floored : Floored a b q r) : |r| < |b| := by
  have between := floored.between
  rw [Int.abs_eq_natAbs, Int.abs_eq_natAbs]
  omega

theorem floor_eq (floored : Floored a b q r) : ⌊(a : ℚ) / b⌋ = q := by
  wlog positive : 0 < b generalizing a b r
  · have result := this floored.neg (by have := floored.between; omega)
    rwa [Int.cast_neg, Int.cast_neg, neg_div_neg_eq] at result
  have unit : (0 : ℚ) < b := Int.cast_pos.mpr positive
  have between := floored.between
  rw [Int.floor_eq_iff, le_div_iff₀ unit, div_lt_iff₀ unit, add_mul, one_mul, floored.exact]
  constructor
  · exact_mod_cast (show q * b ≤ q * b + r by omega)
  · exact_mod_cast (show q * b + r < q * b + b by omega)

theorem natAbs_le (floored : Floored a b q r) : q.natAbs ≤ a.natAbs := by
  wlog positive : 0 < b generalizing a b r
  · have result := this floored.neg (by have := floored.between; omega)
    rwa [Int.natAbs_neg] at result
  obtain ⟨rfl, between⟩ := floored
  rcases Int.lt_or_le q 0 with below | above
  · have bound : (q + 1) * b ≤ q + 1 := by nlinarith
    rw [Int.add_mul] at bound
    omega
  · have bound : q ≤ q * b := by nlinarith
    omega

end Floored

namespace Binary64

variable {x y : Binary64} {a b n : Int}

theorem opposes_iff (first : Counts x a) (second : Counts y b) :
    opposes x y = true ↔ a ≠ 0 ∧ ¬ (a < 0 ↔ b < 0) := by
  rw [opposes, first.equal_eq counts_zero, first.less_eq counts_zero, second.less_eq counts_zero]
  by_cases none : a = 0 <;> by_cases left : a < 0 <;> by_cases right : b < 0 <;> simp [none, left, right]

theorem natAbs_sub_tmod_le (a b : Int) : (a - a.tmod b).natAbs ≤ a.natAbs := by
  have parts : a - a.tmod b = b * a.tdiv b := by
    have := Int.mul_tdiv_add_tmod a b
    omega
  rw [parts, Int.natAbs_mul, Int.natAbs_tdiv]
  exact Nat.mul_div_le _ _

theorem opposes_integers (first : Counts x (a * one)) (second : Counts y (b * one)) (some : b ≠ 0) :
    opposes (x.rem y) y = true ↔ a.tmod b ≠ 0 ∧ ¬ (a.tmod b < 0 ↔ b < 0) := by
  have unit := one_pos_int
  have sign : ∀ n : Int, n * one < 0 ↔ n < 0 := fun n => by
    rw [mul_neg_iff]
    omega
  rw [opposes_iff (rem_integers first second some) second, sign, sign, mul_ne_zero_iff_right unit.ne']

/-- The quotient that the floor division starts from. -/
theorem quotient_integers (first : Counts x (a * one)) (second : Counts y (b * one)) (some : b ≠ 0)
    (few : a.natAbs ≤ 2 ^ 53) : Counts ((x - x.rem y) / y) (a.tdiv b * one) := by
  have fits := representable_integer ((natAbs_sub_tmod_le a b).trans few)
  rw [Int.sub_mul] at fits
  have whole := first.sub (rem_integers first second some) fits
  refine whole.div second (mul_ne_zero some one_pos_int.ne')
    (representable_integer ((Int.natAbs_tdiv_le_natAbs a b).trans few)) ?_
  have parts := Int.mul_tdiv_add_tmod a b
  linear_combination -(one : Int) * one * parts

/-- One less than an integer is exact. -/
theorem lower_integer (counts : Counts x (n * one)) (few : (n - 1).natAbs ≤ 2 ^ 53) :
    Counts (x - 1) ((n - 1) * one) := by
  have fits := representable_integer few
  rw [Int.sub_mul, Int.one_mul] at fits ⊢
  exact counts.sub counts_one fits

/-- The last step of a floor division takes the lowered quotient to an integer. -/
def settledQuotient (lowered : Binary64) : Binary64 :=
  if equal lowered 0 then 0
  else if less half (lowered - lowered.floor) then lowered.floor + 1 else lowered.floor

theorem floorDivide_eq (x y : Binary64) : floorDivide x y =
    settledQuotient (if opposes (x.rem y) y then (x - x.rem y) / y - 1 else (x - x.rem y) / y) :=
  rfl

/-- An integer is left as it is. -/
theorem settledQuotient_integer (counts : Counts x (n * one)) : Counts (settledQuotient x) (n * one) := by
  have unit := one_pos_int
  have floored := counts.floor
  rw [Int.mul_ediv_cancel _ unit.ne'] at floored
  have least : Representable (n * one - n * one).natAbs := by
    rw [Int.sub_self]
    exact representable_zero
  have rest := counts.sub floored least
  have near : less half (x - x.floor) = false := by
    rw [counts_half.less_eq rest, decide_eq_false_iff_not]
    omega
  rw [settledQuotient, counts.equal_eq counts_zero, near, if_neg Bool.false_ne_true]
  split_ifs with none
  · rw [of_decide_eq_true none]
    exact counts_zero
  · exact floored

/-- On integers floor division and remainder are those of the integers. -/
theorem floorDivide_integers (first : Counts x (a * one)) (second : Counts y (b * one)) (some : b ≠ 0)
    (few : a.natAbs ≤ 2 ^ 53) (few' : b.natAbs ≤ 2 ^ 53) :
    ∃ q r, Counts (floorDivide x y) (q * one) ∧ Counts (modulo x y) (r * one) ∧ Floored a b q r := by
  have remainder := rem_integers first second some
  have quotient := quotient_integers first second some few
  have opposing := opposes_integers first second some
  rw [floorDivide_eq, modulo]
  by_cases oppose : opposes (x.rem y) y = true
  · obtain ⟨nonzero, other⟩ := opposing.mp oppose
    have floored := Floored.of_opposing nonzero other some
    have fits : Representable ((a.tmod b + b) * one).natAbs := by
      have between := floored.between
      exact representable_integer (by omega)
    rw [if_pos oppose, if_pos oppose]
    refine ⟨_, _, settledQuotient_integer (lower_integer quotient (floored.natAbs_le.trans few)), ?_, floored⟩
    rw [Int.add_mul] at fits ⊢
    exact remainder.add second fits
  · have agree : a.tmod b ≠ 0 → (a.tmod b < 0 ↔ b < 0) := fun nonzero =>
      not_not.mp fun other => oppose (opposing.mpr ⟨nonzero, other⟩)
    rw [if_neg oppose, if_neg oppose]
    exact ⟨_, _, settledQuotient_integer quotient, remainder, Floored.of_tmod some agree⟩

/-- The remainder is zero or lies on the side of the divisor, no farther from zero. -/
theorem modulo_bounded (first : Counts x a) (second : Counts y b) (some : b ≠ 0) :
    ∃ n, Counts (modulo x y) n ∧ (n = 0 ∨ (n < 0 ↔ b < 0)) ∧ n.natAbs ≤ b.natAbs := by
  have remainder := first.rem second some
  have opposing := opposes_iff remainder second
  have less := Floored.natAbs_tmod_lt a some
  unfold modulo
  dsimp only
  by_cases oppose : opposes (x.rem y) y = true
  · have floored := Floored.of_opposing (opposing.mp oppose).1 (opposing.mp oppose).2 some
    have bound : (a.tmod b + b).natAbs ≤ b.natAbs := by
      have between := floored.between
      omega
    rw [if_pos oppose]
    refine ⟨_, remainder.add_near second second.representable bound, .inr ?_,
      natAbs_nearestUnits_le second.representable.2 bound⟩
    rcases Int.lt_or_gt_of_ne some with below | above
    · exact iff_of_true (nearestUnits_lt_zero (by omega)) below
    · have positive := nearestUnits_pos (show 0 < a.tmod b + b by omega)
      exact iff_of_false (by omega) (by omega)
  · rw [if_neg oppose]
    refine ⟨_, remainder, ?_, less.le⟩
    rw [opposing] at oppose
    tauto

/-- What may come out of a floor division. -/
def Whole (x : Binary64) : Prop :=
  x.isInteger = true ∨ ∃ s, x = .infinite s

theorem whole_of_counts (counts : Counts x n) (whole : (one : Int) ∣ n) : Whole x := by
  left
  rw [counts.isInteger_eq, decide_eq_true whole]

theorem less_nan (x : Binary64) : less x nan = false := by
  unfold less
  cases x.position? <;> rfl

/-- A number is taken to an integer, and an infinity stays. -/
theorem settledQuotient_whole (number : x.isNaN = false) : Whole (settledQuotient x) := by
  have none : Whole 0 := whole_of_counts counts_zero (dvd_zero _)
  unfold settledQuotient
  cases x with
  | nan => cases number
  | infinite s =>
    -- the difference of an infinity from itself is not a number, and so not more than one half
    have stays : (infinite s).floor = infinite s := by cases s <;> rfl
    have rest : infinite s - infinite s = nan := by cases s <;> rfl
    rw [stays, rest, less_nan, if_neg Bool.false_ne_true]
    split_ifs
    · exact none
    · exact .inr ⟨s, rfl⟩
  | finite s m fits =>
    have floored := (counts_finite s fits).floor
    have whole := dvd_mul_left (one : Int) ((if s then -(m : Int) else m) / one)
    split_ifs
    · exact none
    · rcases floored.add_cases counts_one with sum | out
      · exact whole_of_counts sum (dvd_nearestUnits (dvd_add whole dvd_rfl))
      · exact .inr out
    · exact whole_of_counts floored whole

theorem div_isNaN (first : Counts x a) (second : Counts y b) (some : b ≠ 0) : (x / y).isNaN = false := by
  obtain ⟨s, m, fits, rfl, -⟩ := first.eq_finite
  obtain ⟨t, k, fits', rfl, rfl⟩ := second.eq_finite
  show (Binary64.div _ _).isNaN = false
  rw [Binary64.div, if_neg (magnitude_ne_zero some)]
  rcases round_cases (s ^^ t) (m * one) k with ⟨fits, rounded⟩ | out
  · rw [rounded]
    rfl
  · rw [out]
    rfl

theorem sub_one_isNaN (number : x.isNaN = false) : (x - 1).isNaN = false := by
  have sub_eq : ∀ y : Binary64, x - y = x + -y := fun y => rfl
  rw [sub_eq]
  cases x with
  | nan => cases number
  | infinite s =>
    obtain ⟨t, k, fits, unit, -⟩ := counts_one.neg.eq_finite
    rw [unit]
    rfl
  | finite s m fits =>
    rcases (counts_finite s fits).add_cases counts_one.neg with sum | ⟨t, out⟩
    · obtain ⟨t, k, fits', rounded, -⟩ := sum.eq_finite
      rw [rounded]
      rfl
    · rw [out]
      rfl

/-- Floor division gives an integer or an infinity. -/
theorem floorDivide_whole (first : Counts x a) (second : Counts y b) (some : b ≠ 0) :
    Whole (floorDivide x y) := by
  have remainder := (first.rem second some).neg
  have difference := first.add_near remainder first.representable (natAbs_sub_tmod_le a b)
  have quotient := div_isNaN difference second some
  rw [floorDivide_eq]
  refine settledQuotient_whole ?_
  split_ifs
  · exact sub_one_isNaN quotient
  · exact quotient

/-- Where both numbers are integers the results are exact, and the floor and what is left add up. -/
theorem floorDivide_modulo_values (left : x.isFinite = true) (right : y.isFinite = true) (some : y.units ≠ 0)
    (few : |a| ≤ 2 ^ 53) (few' : |b| ≤ 2 ^ 53) (dividend : x.value = a) (divisor : y.value = b) :
    (floorDivide x y).isFinite = true ∧ (floorDivide x y).value = ⌊(a : ℚ) / b⌋ ∧
      (modulo x y).value = a - b * ⌊(a : ℚ) / b⌋ ∧ a = (floorDivide x y).value * b + (modulo x y).value ∧
      ((modulo x y).value ≠ 0 → 0 < (modulo x y).value * b ∧ |(modulo x y).value| < |(b : ℚ)|) := by
  have first := counts_self left
  have second := counts_self right
  rw [value_eq_intCast_iff] at dividend divisor
  rw [dividend] at first
  rw [divisor] at second some
  rw [Int.abs_eq_natAbs] at few few'
  obtain ⟨q, r, quotient, rest, floored⟩ :=
    floorDivide_integers first second (left_ne_zero_of_mul some) (by omega) (by omega)
  have value : (floorDivide x y).value = q := value_eq_intCast_iff.mpr quotient.units
  have value' : (modulo x y).value = r := value_eq_intCast_iff.mpr rest.units
  rw [value, value', floored.floor_eq]
  refine ⟨quotient.finite, rfl, ?_, ?_, fun rest => ?_⟩
  · exact_mod_cast (show r = a - b * q by linear_combination -floored.exact)
  · exact_mod_cast floored.exact
  · constructor
    · exact_mod_cast floored.mul_pos (Int.cast_ne_zero.mp rest)
    · exact_mod_cast floored.abs_lt

end Binary64

open Binary64

/-- Floor division and remainder are refused by zero only. The remainder is zero or has the sign of the
divisor, and no greater magnitude; the quotient is an integer or infinite. On integers of at most 53 bits
both are exact. -/
theorem floorDivide_modulo (x y : Binary64) (left : x.isFinite = true) (right : y.isFinite = true)
    (some : y.isZero = false) :
    ∃ q r, (BinaryOp.known .floorDivide).apply x y = .ok q ∧ (BinaryOp.known .modulo).apply x y = .ok r ∧
      ((q.isInteger = true ∨ ∃ s, q = .infinite s) ∧ r.isFinite = true ∧
        (r.isZero = true ∨ r.isNegative = y.isNegative) ∧ |r.value| ≤ |y.value|) ∧
      ∀ a b : Int, |a| ≤ 2 ^ 53 → |b| ≤ 2 ^ 53 → x.value = a → y.value = b →
        q.isFinite = true ∧ q.value = ⌊(a : ℚ) / b⌋ ∧ r.value = a - b * ⌊(a : ℚ) / b⌋ ∧
          a = q.value * b + r.value ∧ (r.value ≠ 0 → 0 < r.value * b ∧ |r.value| < |(b : ℚ)|) := by
  have first := counts_self left
  have second := counts_self right
  have nonzero : y.units ≠ 0 := by
    rw [second.isZero_eq] at some
    exact of_decide_eq_false some
  have divides : equal y 0 = false := by
    rw [second.equal_eq counts_zero, decide_eq_false nonzero]
  obtain ⟨n, remainder, sign, bound⟩ := modulo_bounded first second nonzero
  refine ⟨x.floorDivide y, x.modulo y, ?_, ?_, ⟨floorDivide_whole first second nonzero, remainder.finite, ?_, ?_⟩,
    fun a b few few' dividend divisor => floorDivide_modulo_values left right nonzero few few' dividend divisor⟩
  · rw [BinaryOp.apply, Operator.apply, divides, if_neg Bool.false_ne_true]
  · rw [BinaryOp.apply, Operator.apply, divides, if_neg Bool.false_ne_true]
  · by_cases none : n = 0
    · rw [remainder.isZero_eq, decide_eq_true none]
      exact .inl rfl
    · rw [remainder.isNegative_eq none, second.isNegative_eq nonzero, decide_eq_decide]
      exact .inr (sign.resolve_left none)
  · rw [abs_value, abs_value, remainder.units]
    exact div_le_div_of_nonneg_right (Nat.cast_le.mpr bound) one_pos_rat.le

/-- Minus seven by three is minus three, and two are left. -/
theorem floorDivide_modulo_minus_seven :
    (-7 : Binary64).isFinite = true ∧ (3 : Binary64).isFinite = true ∧ (3 : Binary64).isZero = false ∧
      ∃ q r, (BinaryOp.known .floorDivide).apply (-7) 3 = .ok q ∧ (BinaryOp.known .modulo).apply (-7) 3 = .ok r ∧
        q.value = -3 ∧ r.value = 2 := by
  have left : (-7 : Binary64).isFinite = true := by decide +kernel
  have right : (3 : Binary64).isFinite = true := by decide +kernel
  have some : (3 : Binary64).isZero = false := by decide +kernel
  have dividend : (-7 : Binary64).value = (-7 : Int) := value_eq_intCast_iff.mpr (by decide +kernel)
  have divisor : (3 : Binary64).value = (3 : Int) := value_eq_intCast_iff.mpr (by decide +kernel)
  have floor : ⌊((-7 : Int) : ℚ) / (3 : Int)⌋ = -3 := by norm_num [Int.floor_eq_iff]
  obtain ⟨q, r, quotient, remainder, -, integers⟩ := floorDivide_modulo (-7) 3 left right some
  obtain ⟨-, value, value', -, -⟩ := integers (-7) 3 (by decide) (by decide) dividend divisor
  rw [floor] at value value'
  refine ⟨left, right, some, q, r, quotient, remainder, ?_, ?_⟩
  · rw [value]
    norm_num
  · rw [value']
    norm_num

end Calculator
