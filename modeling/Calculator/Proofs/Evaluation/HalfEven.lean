import Mathlib.Data.Rat.Floor
import Calculator.Evaluation.Registry
import Calculator.Number.Decimal
import Calculator.Proofs.Number.Value

/-!
Rounding to an integer, a half going to the even neighbour. The difference from the integer below is exact
except for negative numbers that are nearer to zero than one half; there either choice rounds up to zero.
-/
namespace Calculator.Binary64

variable {x : Binary64} {a l e n : Int}

theorem two_mul_half : 2 * ((one / 2 : Nat) : Int) = one := by
  have whole : 2 * (one / 2) = one := by decide +kernel
  omega

theorem parts_whole (a : Int) : a / one * one + a % one = a ∧ 0 ≤ a % one ∧ a % one < one :=
  ⟨Int.ediv_mul_add_emod a one, Int.emod_nonneg a one_pos_int.ne', Int.emod_lt_of_pos a one_pos_int⟩

/-- What is above the integer below lies on the grid of the number, which divides one. -/
theorem granular_excess (granular : Granular a.natAbs) (le : a % one ≤ a.natAbs) :
    Granular (a % one).natAbs := by
  obtain ⟨-, low, -⟩ := parts_whole a
  by_cases none : a.natAbs % one = 0
  · have divides : (one : Int) ∣ a := Int.natCast_dvd.mpr (Nat.dvd_of_mod_eq_zero none)
    rw [Int.emod_eq_zero_of_dvd divides]
    exact Nat.dvd_zero _
  · have few : a.natAbs ≤ 2 ^ 52 * one := by
      have bound := lt_of_not_whole granular none
      exact ((Nat.div_lt_iff_lt_mul one_pos).mp bound).le
    have grid : spacing a.natAbs ∣ one := by
      rw [← spacing_whole]
      exact spacing_dvd few
    refine granular_of_dvd (show (a % one).natAbs ≤ a.natAbs by omega) (Int.natCast_dvd.mp ?_)
    rw [Int.emod_def]
    refine dvd_sub (Int.natCast_dvd.mpr granular) (Dvd.dvd.mul_right ?_ _)
    exact Int.natCast_dvd_natCast.mpr grid

/-- A number that is nearer to zero than to the integer below it is negative, and that integer is minus one. -/
theorem below_minus_half (small : a.natAbs < a % one) : a / one = -1 ∧ (one : Int) < 2 * (a % one) := by
  have unit := one_pos_int
  obtain ⟨parts, low, high⟩ := parts_whole a
  have above : -2 < a / one := by
    by_contra far
    have := Int.mul_le_mul_of_nonneg_right (not_lt.mp far) unit.le
    omega
  have negative : a / one < 0 := by
    by_contra far
    have := Int.mul_nonneg (not_lt.mp far) unit.le
    omega
  have first : a / one = -1 := by omega
  rw [first] at parts
  exact ⟨first, by omega⟩

/-- The difference from the integer below, as it is computed. -/
theorem excess_counts (counts : Counts x a) : ∃ e, Counts (x - x.floor) e ∧
    (e = a % one ∨ a / one = -1 ∧ (one : Int) < 2 * (a % one) ∧ (one : Int) ≤ 2 * e) := by
  obtain ⟨parts, low, high⟩ := parts_whole a
  have fits := counts.representable
  have below := counts.floor.neg
  have difference : a + -(a / one * one) = a % one := by omega
  by_cases small : a % one ≤ a.natAbs
  · have exact : Representable (a + -(a / one * one)).natAbs := by
      rw [difference]
      exact ⟨lt_of_le_of_lt (by omega) fits.1, granular_excess fits.2 small⟩
    have result := counts.add below exact
    rw [difference] at result
    exact ⟨_, result, .inl rfl⟩
  -- the difference may be rounded, but not below one half
  · obtain ⟨first, far⟩ := below_minus_half (not_le.mp small)
    have nearest := counts.add_near below counts_one.representable (by omega)
    rw [difference] at nearest
    have least := le_natAbs_nearestUnits counts_half.representable.2
      (show (one / 2 : Nat) ≤ (a % one).natAbs by omega)
    have positive := nearestUnits_pos (show 0 < a % one by omega)
    have whole := two_mul_half
    exact ⟨_, nearest, .inr ⟨first, far, by omega⟩⟩

theorem isZero_rem_two (counts : Counts x (l * one)) : (x.rem 2).isZero = decide (2 ∣ l) := by
  have two := counts_ofNat (show 2 ≤ 2 ^ 53 by decide)
  rw [Nat.cast_mul, Nat.cast_ofNat] at two
  have parity := rem_integers counts two (by decide)
  show (x.rem (ofNat 2)).isZero = _
  rw [parity.isZero_eq, decide_eq_decide, Int.dvd_iff_tmod_eq_zero]
  exact mul_eq_zero_iff_right one_pos_int.ne'

/-- Only small numbers are not whole, so there is room above the integer below. -/
theorem counts_next (counts : Counts x a) (part : a % one ≠ 0) :
    Counts (x.floor + 1) ((a / one + 1) * one) := by
  have unit := one_pos_int
  obtain ⟨parts, low, high⟩ := parts_whole a
  have some : a.natAbs % one ≠ 0 := fun none =>
    part (Int.emod_eq_zero_of_dvd (Int.natCast_dvd.mpr (Nat.dvd_of_mod_eq_zero none)))
  have few : a.natAbs < 2 ^ 52 * one :=
    (Nat.div_lt_iff_lt_mul one_pos).mp (lt_of_not_whole counts.representable.2 some)
  have above : a / one < 2 ^ 52 := by
    refine lt_of_mul_lt_mul_right ?_ unit.le
    omega
  have below : -2 ^ 52 < a / one + 1 := by
    refine lt_of_mul_lt_mul_right ?_ unit.le
    rw [Int.add_mul]
    omega
  have fits := representable_integer (show (a / one + 1).natAbs ≤ 2 ^ 53 by omega)
  rw [Int.add_mul, Int.one_mul] at fits ⊢
  exact counts.floor.add counts_one fits

theorem roundHalfEven_counts (counts : Counts x a) : ∃ n, Counts x.roundHalfEven (n * one) ∧
    2 * |n * one - a| ≤ one ∧ (2 * |n * one - a| = one → Even n) := by
  have unit := one_pos_int
  obtain ⟨parts, low, high⟩ := parts_whole a
  have whole := two_mul_half
  obtain ⟨e, excess, known⟩ := excess_counts counts
  unfold roundHalfEven
  dsimp only
  rw [counts_half.less_eq excess, excess.less_eq counts_half, isZero_rem_two counts.floor]
  simp only [decide_eq_true_eq, Int.abs_eq_natAbs]
  -- where the difference was rounded the integer below is minus one, and all cases that are left go up from it
  split_ifs with greater less even
  · refine ⟨_, counts_next counts (by omega), ?_, ?_⟩
    · rw [Int.add_mul]
      omega
    · intro tie
      rw [Int.add_mul] at tie
      omega
  · refine ⟨_, counts.floor, ?_, ?_⟩
    · omega
    · intro tie
      omega
  · refine ⟨_, counts.floor, ?_, fun _ => even_iff_two_dvd.mpr even⟩
    omega
  · refine ⟨_, counts_next counts (by omega), ?_, ?_⟩
    · rw [Int.add_mul]
      omega
    · intro _
      rw [even_iff_two_dvd]
      omega

theorem one_eq : ∃ fits, (1 : Binary64) = finite false one fits := by
  have positive := one_pos
  obtain ⟨s, m, fits, same, size⟩ := counts_one.eq_finite
  cases s with
  | false =>
    obtain rfl : one = m := Int.ofNat.inj size
    exact ⟨fits, same⟩
  | true =>
    rw [if_pos rfl] at size
    omega

theorem mul_one_of_finite (finite : x.isFinite = true) : x * 1 = x := by
  obtain ⟨s, m, fits, rfl, -⟩ := (counts_self finite).eq_finite
  obtain ⟨fits', unit⟩ := one_eq
  rw [unit]
  show Binary64.mul _ _ = _
  rw [Binary64.mul, Bool.xor_false, round_exact s fits one_pos]

theorem div_one_of_finite (finite : x.isFinite = true) : x / 1 = x := by
  obtain ⟨s, m, fits, rfl, -⟩ := (counts_self finite).eq_finite
  obtain ⟨fits', unit⟩ := one_eq
  rw [unit]
  show Binary64.div _ _ = _
  rw [Binary64.div, if_neg one_pos.ne', Bool.xor_false, round_exact s fits one_pos]

theorem pow_zero (base : Binary64) : base.pow (ofNat 0) = 1 := by
  rw [ofNat, Nat.zero_mul, round_unscaled false representable_zero, pow, if_pos rfl]

/-- Without places the power of ten is one. -/
theorem powerOfTen_zero : powerOfTen 0 = 1 := by
  have accepted : ((1 : Binary64).isFinite && less 0 1) = true := by decide +kernel
  rw [powerOfTen, if_neg (by decide), pow_zero]
  exact if_pos accepted

theorem roundPlaces_zero (finite : x.isFinite = true) : x.roundPlaces 0 =
    if x.roundHalfEven.isZero then zero else x.roundHalfEven := by
  obtain ⟨n, rounded, -⟩ := roundHalfEven_counts (counts_self finite)
  have factor : powerOfTen (0 : Int).natAbs = 1 := powerOfTen_zero
  have unit : (1 : Binary64).isFinite = true := counts_one.finite
  have inside : ¬ (!(1 : Binary64).isFinite) = true := by
    rw [unit]
    decide
  have inside' : ¬ (!x.isFinite) = true := by
    rw [finite]
    decide
  rw [roundPlaces, factor, if_neg inside]
  dsimp only
  rw [if_pos le_rfl, mul_one_of_finite finite, if_neg inside', if_pos le_rfl, div_one_of_finite rounded.finite]

theorem toInt_zero (none : x.isZero = true) : x.isInteger = true ∧ x.toInt = 0 := by
  cases x with
  | nan => cases none
  | infinite s => cases none
  | finite s m fits =>
    obtain rfl : m = 0 := by simpa [isZero] using none
    cases s <;> simp [isInteger, toInt]

/-- The number that is rounded, and no places. -/
inductive WithoutPlaces (x : Binary64) : List Value → Prop where
  | alone : WithoutPlaces x [.number x]
  | zero (places : Binary64) (none : places.isZero = true) : WithoutPlaces x [.number x, .number places]

theorem apply_round (r : Registry) {args : List Value} (without : WithoutPlaces x args) :
    r.apply .round args = .ok (x.roundPlaces 0) := by
  rw [Registry.apply]
  cases without with
  | alone =>
    obtain ⟨integer, value⟩ := toInt_zero (x := 0) (by rw [counts_zero.isZero_eq, decide_eq_true rfl])
    simp [Registry.roundTo, Registry.numberAt, integer, value]
  | zero places none =>
    obtain ⟨integer, value⟩ := toInt_zero none
    simp [Registry.roundTo, Registry.numberAt, integer, value]

/-- The positive zero in place of either. -/
theorem plain_counts (counts : Counts x n) : Counts (if x.isZero then Binary64.zero else x) n ∧
    (if x.isZero then Binary64.zero else x).isNegativeZero = false := by
  by_cases none : x.isZero = true
  · have size : n = 0 := by
      rw [counts.isZero_eq] at none
      exact of_decide_eq_true none
    rw [if_pos none, Binary64.zero, round_unscaled false representable_zero, size]
    exact ⟨counts_finite false representable_zero, rfl⟩
  · rw [if_neg none]
    refine ⟨counts, ?_⟩
    cases x with
    | nan => rfl
    | infinite s => rfl
    | finite s m fits => simpa [isZero, isNegativeZero] using fun _ => none

theorem distance_eq (counts : Counts x a) (n : Int) : |(n : ℚ) - x.value| = (|n * one - a| : Int) / one := by
  have unit := one_pos_rat
  rw [counts.value_eq, Int.cast_abs, eq_div_iff unit.ne', ← abs_of_pos unit, ← abs_mul, abs_of_pos unit, sub_mul,
    div_mul_cancel₀ _ unit.ne', Int.cast_sub, Int.cast_mul, Int.cast_natCast]

/-- Rounding to no places gives an integer at most one half away, the even one of two, and never the negative
zero. -/
theorem round_nearest_even (r : Registry) (x : Binary64) (args : List Value) (finite : x.isFinite = true)
    (without : WithoutPlaces x args) : ∃ y, ∃ n : Int, r.apply .round args = .ok y ∧ y.isFinite = true ∧
      y.value = n ∧ |y.value - x.value| ≤ 1 / 2 ∧ (|y.value - x.value| = 1 / 2 → Even n) ∧
      y.isNegativeZero = false := by
  obtain ⟨n, rounded, near, even⟩ := roundHalfEven_counts (counts_self finite)
  obtain ⟨result, plain⟩ := plain_counts rounded
  have unit := one_pos_rat
  have value := value_eq_intCast_iff.mpr result.units
  have distance := distance_eq (counts_self finite) n
  refine ⟨_, n, apply_round r without, ?_⟩
  rw [roundPlaces_zero finite, value, distance]
  refine ⟨result.finite, rfl, ?_, fun tie => even ?_, plain⟩
  · rw [div_le_div_iff₀ unit two_pos, one_mul, mul_comm]
    exact_mod_cast near
  · rw [div_eq_div_iff unit.ne' two_ne_zero, one_mul, mul_comm] at tie
    exact_mod_cast tie

/-- Minus two and a half is as far from minus three as from minus two, which is even. -/
theorem round_minus_five_halves : (ofText "-2.5").isFinite = true ∧
    WithoutPlaces (ofText "-2.5") [.number (ofText "-2.5")] ∧
    ∃ y, Registry.apply ⟨.radians, 0⟩ .round [.number (ofText "-2.5")] = .ok y ∧ y.value = -2 := by
  have finite : (ofText "-2.5").isFinite = true := by decide +kernel
  obtain ⟨y, n, result, -, value, near, even, -⟩ :=
    round_nearest_even ⟨.radians, 0⟩ (ofText "-2.5") [.number (ofText "-2.5")] finite .alone
  refine ⟨finite, .alone, y, result, ?_⟩
  have units : 2 * (ofText "-2.5").units = -5 * one := by decide +kernel
  have exact : (ofText "-2.5").value = -5 / 2 := by
    rw [Binary64.value, div_eq_div_iff one_pos_rat.ne' two_ne_zero, mul_comm]
    exact_mod_cast units
  rw [value, exact] at near even
  obtain ⟨low, high⟩ := abs_le.mp near
  have least : (-3 : ℚ) ≤ n := by linarith
  have most : (n : ℚ) ≤ -2 := by linarith
  have least' : -3 ≤ n := by exact_mod_cast least
  have most' : n ≤ -2 := by exact_mod_cast most
  have other : n ≠ -3 := by
    rintro rfl
    exact absurd (even (by norm_num)) (by decide)
  rw [value, show n = -2 by omega]
  norm_num

end Calculator.Binary64
