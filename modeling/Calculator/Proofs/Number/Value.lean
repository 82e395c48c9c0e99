import Mathlib.Data.Rat.Floor
import Calculator.Proofs.Number.Nearest

/-!
Finite numbers by their exact values. Where the exact sum, quotient, remainder or integer part of two numbers
is a number again, the operation gives it; remainders and integer parts always are.
-/
namespace Calculator.Binary64

/-- A finite number, counted in units; what is not finite counts for nothing. -/
def units : Binary64 → Int
  | finite s m _ => if s then -(m : Int) else m
  | _ => 0

/-- The exact value of a finite number. -/
def value (x : Binary64) : ℚ :=
  x.units / one

/-- A finite number of `n` units. -/
structure Counts (x : Binary64) (n : Int) : Prop where
  finite : x.isFinite = true
  units : x.units = n

variable {x y : Binary64} {a b n : Int} {s : Bool} {m k : Nat}

theorem counts_finite (s : Bool) (fits : Representable m) :
    Counts (.finite s m fits) (if s then -(m : Int) else m) :=
  ⟨rfl, rfl⟩

theorem natAbs_signed (s : Bool) (m : Nat) : (if s then -(m : Int) else m).natAbs = m := by
  cases s <;> simp

theorem counts_self (finite : x.isFinite = true) : Counts x x.units :=
  ⟨finite, rfl⟩

namespace Counts

theorem eq_finite (counts : Counts x n) :
    ∃ s m fits, x = .finite s m fits ∧ n = if s then -(m : Int) else m := by
  obtain ⟨finite, rfl⟩ := counts
  cases x with
  | nan => cases finite
  | infinite s => cases finite
  | finite s m fits => exact ⟨s, m, fits, rfl, rfl⟩

theorem representable (counts : Counts x n) : Representable n.natAbs := by
  obtain ⟨s, m, fits, -, rfl⟩ := counts.eq_finite
  rwa [natAbs_signed]

theorem neg (counts : Counts x n) : Counts (-x) (-n) := by
  obtain ⟨s, m, fits, rfl, rfl⟩ := counts.eq_finite
  cases s with
  | false => exact counts_finite true fits
  | true => exact ⟨rfl, (Int.neg_neg _).symm⟩

theorem position_eq (counts : Counts x n) : x.position? = some n := by
  obtain ⟨s, m, fits, rfl, rfl⟩ := counts.eq_finite
  rfl

theorem less_eq (first : Counts x a) (second : Counts y b) : less x y = decide (a < b) := by
  obtain ⟨s, m, fits, rfl, rfl⟩ := first.eq_finite
  obtain ⟨t, k, fits', rfl, rfl⟩ := second.eq_finite
  rfl

theorem equal_eq (first : Counts x a) (second : Counts y b) : equal x y = decide (a = b) := by
  obtain ⟨s, m, fits, rfl, rfl⟩ := first.eq_finite
  obtain ⟨t, k, fits', rfl, rfl⟩ := second.eq_finite
  rfl

theorem isZero_eq (counts : Counts x n) : x.isZero = decide (n = 0) := by
  obtain ⟨s, m, fits, rfl, rfl⟩ := counts.eq_finite
  rw [Bool.eq_iff_iff]
  cases s <;> simp [isZero]

theorem isInteger_eq (counts : Counts x n) : x.isInteger = decide ((one : Int) ∣ n) := by
  obtain ⟨s, m, fits, rfl, rfl⟩ := counts.eq_finite
  rw [Bool.eq_iff_iff, isInteger, beq_iff_eq, decide_eq_true_eq, Int.natCast_dvd, natAbs_signed,
    Nat.dvd_iff_mod_eq_zero]

theorem isNegative_eq (counts : Counts x n) (nonzero : n ≠ 0) : x.isNegative = decide (n < 0) := by
  obtain ⟨s, m, fits, rfl, rfl⟩ := counts.eq_finite
  rw [Bool.eq_iff_iff]
  cases s with
  | false => simp [isNegative]
  | true =>
    rw [if_pos rfl] at nonzero ⊢
    simp only [isNegative, decide_eq_true_eq, true_iff]
    omega

theorem value_eq (counts : Counts x n) : x.value = n / one := by
  rw [value, counts.units]

end Counts

theorem abs_value (x : Binary64) : |x.value| = (x.units.natAbs : ℚ) / one := by
  rw [value, abs_div, abs_of_pos one_pos_rat, Nat.cast_natAbs, Int.cast_abs]

theorem value_eq_intCast_iff : x.value = n ↔ x.units = n * one := by
  rw [value, div_eq_iff one_pos_rat.ne', ← Int.cast_natCast one, ← Int.cast_mul, Int.cast_inj]

/-- What can be represented is rounded to itself. -/
theorem round_counts (fits : Representable n.natAbs) (positive : 0 < k) (below : n < 0 → s = true)
    (above : 0 < n → s = false) : Counts (round s (n.natAbs * k) k) n := by
  rw [round_exact s fits positive]
  refine ⟨rfl, ?_⟩
  cases s with
  | false =>
    have := mt below Bool.false_ne_true
    show (n.natAbs : Int) = n
    omega
  | true =>
    have := mt above Bool.noConfusion
    show -(n.natAbs : Int) = n
    omega

/-- A magnitude below the last middle is rounded in range. -/
theorem counts_round (inside : (m : ℚ) < overflow) : Counts (round false m 1) (roundRatio m 1) := by
  rw [← div_one (m : ℚ), ← Nat.cast_one] at inside
  have fits : Representable (roundRatio m 1) :=
    ⟨(roundRatio_lt_limit_iff Nat.one_pos).mpr inside, granular_roundRatio m 1⟩
  rw [round_of_roundRatio false fits rfl]
  exact counts_finite false fits

/-- The sum is the exact sum, rounded. -/
theorem Counts.add_eq_round (first : Counts x a) (second : Counts y b) :
    ∃ s, x + y = round s (a + b).natAbs 1 ∧ (a + b < 0 → s = true) ∧ (0 < a + b → s = false) := by
  obtain ⟨s, m, fits, rfl, rfl⟩ := first.eq_finite
  obtain ⟨t, k, fits', rfl, rfl⟩ := second.eq_finite
  show ∃ u, add _ _ = _ ∧ _
  have alike : ∀ (u : Bool) (j : Nat) (n : Int), n.natAbs = j → (n < 0 → u = true) → (0 < n → u = false) →
      ∃ u', round u j 1 = round u' n.natAbs 1 ∧ (n < 0 → u' = true) ∧ (0 < n → u' = false) :=
    fun u j n size below above => ⟨u, by rw [size], below, above⟩
  unfold Binary64.add
  cases s <;> cases t <;> simp only [if_true, if_false, Bool.false_eq_true, reduceCtorEq]
  · exact alike false (m + k) _ (by omega) (by omega) (fun _ => rfl)
  · split_ifs with same less
    · exact alike false 0 _ (by omega) (by omega) (fun _ => rfl)
    · exact alike false (m - k) _ (by omega) (by omega) (fun _ => rfl)
    · exact alike true (k - m) _ (by omega) (fun _ => rfl) (by omega)
  · split_ifs with same less
    · exact alike false 0 _ (by omega) (by omega) (fun _ => rfl)
    · exact alike true (m - k) _ (by omega) (fun _ => rfl) (by omega)
    · exact alike false (k - m) _ (by omega) (by omega) (fun _ => rfl)
  · exact alike true (m + k) _ (by omega) (fun _ => rfl) (by omega)

/-- What a number of units is rounded to, were the range unlimited. -/
def nearestUnits (n : Int) : Int :=
  n.sign * roundRatio n.natAbs 1

theorem natAbs_nearestUnits (n : Int) : (nearestUnits n).natAbs = roundRatio n.natAbs 1 := by
  by_cases none : n = 0
  · subst none
    rfl
  · rw [nearestUnits, Int.natAbs_mul, Int.natAbs_sign_of_ne_zero none, Nat.one_mul, Int.natAbs_natCast]

theorem nearestUnits_exact (granular : Granular n.natAbs) : nearestUnits n = n := by
  have exact := roundRatio_exact granular Nat.one_pos
  rw [Nat.mul_one] at exact
  rw [nearestUnits, exact, Int.sign_mul_natAbs]

theorem nearestUnits_neg (n : Int) : nearestUnits (-n) = -nearestUnits n := by
  rw [nearestUnits, nearestUnits, Int.sign_neg, Int.natAbs_neg, Int.neg_mul]

theorem natAbs_nearestUnits_le (granular : Granular m) (le : n.natAbs ≤ m) : (nearestUnits n).natAbs ≤ m := by
  rw [natAbs_nearestUnits]
  refine roundRatio_le Nat.one_pos granular ?_
  rw [Nat.cast_one, div_one]
  exact_mod_cast le

theorem le_natAbs_nearestUnits (granular : Granular m) (le : m ≤ n.natAbs) : m ≤ (nearestUnits n).natAbs := by
  rw [natAbs_nearestUnits]
  refine le_roundRatio Nat.one_pos granular ?_
  rw [Nat.cast_one, div_one]
  exact_mod_cast le

theorem nearestUnits_pos (positive : 0 < n) : 0 < nearestUnits n := by
  have least := le_natAbs_nearestUnits (granular_two_pow 0) (show 2 ^ 0 ≤ n.natAbs by omega)
  rw [natAbs_nearestUnits] at least
  rw [nearestUnits, Int.sign_eq_one_of_pos positive, Int.one_mul]
  omega

theorem nearestUnits_lt_zero (negative : n < 0) : nearestUnits n < 0 := by
  have positive := nearestUnits_pos (Int.neg_pos_of_neg negative)
  rw [nearestUnits_neg] at positive
  exact Int.neg_of_neg_pos positive

theorem nearestUnits_signed (below : n < 0 → s = true) (above : 0 < n → s = false) :
    nearestUnits n = if s then -(roundRatio n.natAbs 1 : Int) else roundRatio n.natAbs 1 := by
  rcases Int.lt_trichotomy n 0 with negative | none | positive
  · rw [below negative, if_pos rfl, nearestUnits, Int.sign_eq_neg_one_of_neg negative, Int.neg_one_mul]
  · subst none
    cases s <;> rfl
  · rw [above positive, if_neg Bool.false_ne_true, nearestUnits, Int.sign_eq_one_of_pos positive, Int.one_mul]

/-- The sum is rounded to the nearest number, unless that is out of range. -/
theorem Counts.add_cases (first : Counts x a) (second : Counts y b) :
    Counts (x + y) (nearestUnits (a + b)) ∨ ∃ s, x + y = .infinite s := by
  obtain ⟨s, sum, below, above⟩ := first.add_eq_round second
  rw [sum, nearestUnits_signed below above]
  rcases round_cases s (a + b).natAbs 1 with ⟨fits, rounded⟩ | out
  · rw [rounded]
    exact .inl (counts_finite s fits)
  · exact .inr ⟨s, out⟩

theorem Counts.add_near (first : Counts x a) (second : Counts y b) (fits : Representable m)
    (le : (a + b).natAbs ≤ m) : Counts (x + y) (nearestUnits (a + b)) := by
  obtain ⟨s, sum, -, -⟩ := first.add_eq_round second
  have inside : (x + y).isFinite = true := by
    rw [sum, round_isFinite_iff s Nat.one_pos, Nat.cast_one, div_one]
    exact (Nat.cast_le.mpr le).trans_lt fits.lt_overflow
  rcases first.add_cases second with rounded | ⟨s, out⟩
  · exact rounded
  · rw [out] at inside
    cases inside

theorem Counts.add (first : Counts x a) (second : Counts y b) (fits : Representable (a + b).natAbs) :
    Counts (x + y) (a + b) := by
  have rounded := first.add_near second fits le_rfl
  rwa [nearestUnits_exact fits.2] at rounded

theorem Counts.sub (first : Counts x a) (second : Counts y b) (fits : Representable (a - b).natAbs) :
    Counts (x - y) (a - b) :=
  first.add second.neg fits

theorem granular_of_dvd {a b : Nat} (le : a ≤ b) (divides : spacing b ∣ a) : Granular a :=
  (spacing_dvd le).trans divides

/-- The remainder lies on the grid of the dividend, or on the coarser one of the divisor. -/
theorem granular_mod {a b : Nat} (first : Granular a) (second : Granular b) : Granular (a % b) := by
  by_cases small : a < b
  · rwa [Nat.mod_eq_of_lt small]
  by_cases none : b = 0
  · rwa [none, Nat.mod_zero]
  have less := Nat.mod_lt a (Nat.pos_of_ne_zero none)
  refine granular_of_dvd less.le ?_
  have divides : spacing b ∣ a := (spacing_dvd (not_lt.mp small)).trans first
  exact (Nat.dvd_mod_iff (granular_iff.mp second)).mpr divides

theorem magnitude_ne_zero (some : (if s then -(m : Int) else m) ≠ 0) : m ≠ 0 := by
  rintro rfl
  exact some (by cases s <;> rfl)

/-- The remainder is exact. -/
theorem Counts.rem (first : Counts x a) (second : Counts y b) (some : b ≠ 0) :
    Counts (x.rem y) (a.tmod b) := by
  obtain ⟨s, m, fits, rfl, rfl⟩ := first.eq_finite
  obtain ⟨t, k, fits', rfl, rfl⟩ := second.eq_finite
  have exact : Representable (m % k) :=
    ⟨(Nat.mod_le m k).trans_lt fits.1, granular_mod fits.2 fits'.2⟩
  rw [Binary64.rem, if_neg (magnitude_ne_zero some), round_unscaled s exact]
  refine ⟨rfl, ?_⟩
  have natural : (m : Int).tmod k = (m % k : Nat) := rfl
  show (if s then -((m % k : Nat) : Int) else (m % k : Nat)) = _
  cases s <;> cases t <;> simp only [if_true, if_false, Bool.false_eq_true, Int.tmod_neg, Int.neg_tmod, natural]

theorem rem_integers (first : Counts x (a * one)) (second : Counts y (b * one)) (some : b ≠ 0) :
    Counts (x.rem y) (a.tmod b * one) := by
  have result := first.rem second (mul_ne_zero some one_pos_int.ne')
  rwa [Int.mul_comm a, Int.mul_comm b, Int.mul_tmod_mul_of_pos _ _ one_pos_int, Int.mul_comm] at result

theorem quotient_sign {t : Bool} {u : Nat} (unit : 0 < u) (positive : 0 < k)
    (exact : (if s then -(m : Int) else m) * u = n * if t then -(k : Int) else k) :
    (n < 0 → (s ^^ t) = true) ∧ (0 < n → (s ^^ t) = false) := by
  have unit' : (0 : Int) < u := Int.natCast_pos.mpr unit
  have positive' : (0 : Int) < k := Int.natCast_pos.mpr positive
  constructor
  · intro below
    cases s <;> cases t <;> simp at exact ⊢ <;> nlinarith
  · intro above
    cases s <;> cases t <;> simp at exact ⊢ <;> nlinarith

/-- A quotient that is a number is exact. -/
theorem Counts.div (first : Counts x a) (second : Counts y b) (some : b ≠ 0)
    (fits : Representable n.natAbs) (exact : a * one = n * b) : Counts (x / y) n := by
  obtain ⟨s, m, fits', rfl, rfl⟩ := first.eq_finite
  obtain ⟨t, k, fits'', rfl, rfl⟩ := second.eq_finite
  have nonzero := magnitude_ne_zero some
  have size : m * one = n.natAbs * k := by
    have sizes := congrArg Int.natAbs exact
    rwa [Int.natAbs_mul, Int.natAbs_mul, natAbs_signed, natAbs_signed, Int.natAbs_natCast] at sizes
  have positive := Nat.pos_of_ne_zero nonzero
  obtain ⟨below, above⟩ := quotient_sign one_pos positive exact
  show Counts (Binary64.div _ _) n
  rw [Binary64.div, if_neg nonzero, size]
  exact round_counts fits positive below above

theorem spacing_whole : spacing (2 ^ 52 * one) = one := by decide +kernel

theorem whole_of_large (granular : Granular m) (large : 2 ^ 52 * one ≤ m) : one ∣ m := by
  rw [← spacing_whole]
  exact (spacing_dvd large).trans granular

theorem representable_whole (few : k ≤ 2 ^ 53) : Representable (k * one) := by
  have inside : 2 ^ 53 * one < limit := by decide +kernel
  refine ⟨(Nat.mul_le_mul_right one few).trans_lt inside, ?_⟩
  have unit : one = Nat.pow 2 one.log2 := by decide +kernel
  rw [unit]
  exact granular_mul_pow k _ few

theorem representable_integer (few : n.natAbs ≤ 2 ^ 53) : Representable (n * one).natAbs := by
  rw [Int.natAbs_mul, Int.natAbs_natCast]
  exact representable_whole few

/-- A number that is not whole is small. -/
theorem lt_of_not_whole (granular : Granular m) (part : m % one ≠ 0) : m / one < 2 ^ 52 := by
  by_contra large
  have bound : 2 ^ 52 * one ≤ m :=
    (Nat.mul_le_mul_right one (not_lt.mp large)).trans (Nat.div_mul_le_self m one)
  exact part (Nat.mod_eq_zero_of_dvd (whole_of_large granular bound))

theorem representable_truncated (fits : Representable m) : Representable (m / one * one) := by
  by_cases none : m % one = 0
  · rwa [Nat.div_mul_cancel (Nat.dvd_of_mod_eq_zero none)]
  · have few := lt_of_not_whole fits.2 none
    exact representable_whole (by omega)

theorem floor_finite (fits : Representable m) : (Binary64.finite s m fits).floor =
    if s then awayFromZero (.finite s m fits) else truncate (.finite s m fits) :=
  rfl

/-- The integer part toward zero is exact. -/
theorem Counts.truncate (counts : Counts x a) : Counts x.truncate (a.tdiv one * one) := by
  obtain ⟨s, m, fits, rfl, rfl⟩ := counts.eq_finite
  have natural : (m : Int).tdiv one = (m / one : Nat) := rfl
  rw [Binary64.truncate, round_unscaled s (representable_truncated fits)]
  refine ⟨rfl, ?_⟩
  show (if s then -((m / one * one : Nat) : Int) else (m / one * one : Nat)) = _
  cases s with
  | false => rw [if_neg Bool.false_ne_true, if_neg Bool.false_ne_true, natural, Int.natCast_mul]
  | true => rw [if_pos rfl, if_pos rfl, Int.neg_tdiv, natural, Int.neg_mul, Int.natCast_mul]

theorem neg_ediv_mul {u : Nat} (positive : 0 < u) (part : m % u ≠ 0) :
    -(m : Int) / u * u = -((m / u + 1) * u : Nat) := by
  have apart : ¬ (u : Int) ∣ m := fun divides =>
    part (Nat.mod_eq_zero_of_dvd (Int.natCast_dvd_natCast.mp divides))
  rw [Int.neg_ediv, if_neg apart, Int.sign_natCast_of_ne_zero positive.ne']
  push_cast
  ring

theorem awayFromZero_counts (fits : Representable m) :
    Counts (Binary64.finite true m fits).awayFromZero (-(m : Int) / one * one) := by
  rw [awayFromZero]
  by_cases none : m % one = 0
  · have divides : (one : Int) ∣ -m := Int.dvd_neg.mpr (Int.natCast_dvd_natCast.mpr (Nat.dvd_of_mod_eq_zero none))
    rw [if_pos none, Int.ediv_mul_cancel divides]
    exact counts_finite true fits
  · have few := lt_of_not_whole fits.2 none
    have exact := representable_whole (show m / one + 1 ≤ 2 ^ 53 by omega)
    have result := counts_finite true exact
    rw [if_pos rfl] at result
    rwa [if_neg none, round_unscaled true exact, neg_ediv_mul one_pos none]

theorem counts_ofNat (few : k ≤ 2 ^ 53) : Counts (ofNat k) (k * one : Nat) := by
  rw [ofNat, round_unscaled false (representable_whole few)]
  exact counts_finite false _

theorem ofNat_add_one (few : k < 2 ^ 53) : ofNat k + 1 = ofNat (k + 1) := by
  show Binary64.add (ofNat k) (ofNat 1) = _
  rw [ofNat, ofNat, round_unscaled false (representable_whole few.le),
    round_unscaled false (representable_whole (show 1 ≤ 2 ^ 53 by decide)), Binary64.add, if_pos rfl,
    ← Nat.add_mul, ofNat]

theorem counts_zero : Counts 0 0 := by
  have result := counts_ofNat (show 0 ≤ 2 ^ 53 by decide)
  rwa [Nat.zero_mul] at result

theorem counts_one : Counts 1 one := by
  have result := counts_ofNat (show 1 ≤ 2 ^ 53 by decide)
  rwa [Nat.one_mul] at result

theorem counts_half : Counts half (one / 2 : Nat) := by
  have fits : Representable (one / 2) := by decide +kernel
  have whole : one = one / 2 * 2 := by decide +kernel
  have exact : half = round false (one / 2 * 2) 2 := congrArg (round false · 2) whole
  rw [exact, round_exact false fits two_pos]
  exact counts_finite false fits

/-- A whole number of ones stays whole: up to `2 ^ 53` it is exact, and all numbers beyond are whole. -/
theorem dvd_nearestUnits (whole : (one : Int) ∣ n) : (one : Int) ∣ nearestUnits n := by
  obtain ⟨k, size⟩ := Int.natCast_dvd.mp whole
  rw [Nat.mul_comm] at size
  by_cases few : k ≤ 2 ^ 53
  · rwa [nearestUnits_exact (size ▸ (representable_whole few).2)]
  · have large : 2 ^ 53 * one ≤ n.natAbs := by
      rw [size]
      exact Nat.mul_le_mul_right one (not_le.mp few).le
    have least := le_natAbs_nearestUnits (representable_whole le_rfl).2 large
    have granular : Granular (nearestUnits n).natAbs := by
      rw [natAbs_nearestUnits]
      exact granular_roundRatio _ _
    refine Int.natCast_dvd.mpr (whole_of_large granular (le_trans ?_ least))
    exact Nat.mul_le_mul_right one (by decide)

/-- The integer below is exact. -/
theorem Counts.floor (counts : Counts x a) : Counts x.floor (a / one * one) := by
  obtain ⟨s, m, fits, rfl, rfl⟩ := counts.eq_finite
  rw [floor_finite]
  cases s with
  | false =>
    have toward := (counts_finite false fits).truncate
    rw [if_neg Bool.false_ne_true] at toward
    rwa [if_neg Bool.false_ne_true, if_neg Bool.false_ne_true, ← Int.tdiv_eq_ediv_of_nonneg m.cast_nonneg]
  | true =>
    rw [if_pos rfl, if_pos rfl]
    exact awayFromZero_counts fits

end Calculator.Binary64
