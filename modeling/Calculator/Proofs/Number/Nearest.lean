import Mathlib.Algebra.Order.Field.Basic
import Mathlib.Algebra.Order.Ring.Unbundled.Rat
import Mathlib.Algebra.Field.Rat
import Mathlib.Data.Nat.Cast.Field
import Mathlib.Data.Nat.Cast.Order.Field
import Mathlib.Data.Nat.Log
import Mathlib.Tactic.FieldSimp
import Mathlib.Tactic.Linarith
import Mathlib.Tactic.NormNum
import Mathlib.Tactic.Positivity
import Mathlib.Tactic.Ring
import Calculator.Proofs.Number.Exactness

/-!
Rounding to 53 significant bits as an approximation. On the line of exact values the rounded ratio is a
nearest number of 53 bits and the even one of two; the numbers stand apart by a spacing that doubles at
each power of two. What is rounded out of range begins half a spacing above the greatest number.
-/
namespace Calculator.Binary64

/-- An integer next to the value, the even one of two. -/
structure Nearest (v : ℚ) (n : Nat) : Prop where
  near : |v - n| ≤ 1 / 2
  even : |v - n| = 1 / 2 → Even n

namespace Nearest

variable {v : ℚ} {a b : Nat}

theorem of_lt (close : |v - a| < 1 / 2) : Nearest v a :=
  ⟨close.le, fun tie => absurd tie close.ne⟩

theorem midway (q : Nat) : Nearest (q + 1 / 2) (q + q % 2) := by
  rcases Nat.mod_two_eq_zero_or_one q with even | odd
  · rw [even, Nat.add_zero]
    refine ⟨?_, fun _ => Nat.even_iff.mpr even⟩
    rw [abs_le]
    constructor <;> linarith
  · rw [odd]
    refine ⟨?_, fun _ => Nat.even_add_one.mpr (Nat.not_even_iff.mpr odd)⟩
    rw [abs_le]
    push_cast
    constructor <;> linarith

theorem unique (first : Nearest v a) (second : Nearest v b) : a = b := by
  by_contra other
  wlog below : a < b generalizing a b
  · exact this second first (Ne.symm other) (by omega)
  have next : (a : ℚ) + 1 ≤ b := by exact_mod_cast below
  have low := (abs_le.mp first.near).2
  have high := (abs_le.mp second.near).1
  have evenA := first.even (by rw [abs_of_nonneg (by linarith)]; linarith)
  have evenB := second.even (by rw [abs_of_nonpos (by linarith)]; linarith)
  have same : b = a + 1 := by
    have : (b : ℚ) = a + 1 := by linarith
    exact_mod_cast this
  rw [same] at evenB
  exact Nat.even_add_one.mp evenB evenA

end Nearest

variable {num den num' den' a b g m : Nat}

theorem nearestEven_nearest (num : Nat) (positive : 0 < den) : Nearest ((num : ℚ) / den) (nearestEven num den) := by
  have unit : (0 : ℚ) < den := by exact_mod_cast positive
  have whole : (den : ℚ) * (num / den : Nat) + (num % den : Nat) = num := by
    exact_mod_cast Nat.div_add_mod num den
  have value : (num : ℚ) / den = (num / den : Nat) + (num % den : Nat) / den := by
    field_simp
    linarith
  have above : 0 ≤ ((num % den : Nat) : ℚ) / den := by positivity
  have below : ((num % den : Nat) : ℚ) / den < 1 := by
    rw [div_lt_one unit]
    exact_mod_cast Nat.mod_lt num positive
  have low : ((num % den : Nat) : ℚ) / den < 1 / 2 ↔ 2 * (num % den) < den := by
    rw [div_lt_div_iff₀ unit two_pos, one_mul, mul_comm]
    norm_cast
  have high : 1 / 2 < ((num % den : Nat) : ℚ) / den ↔ den < 2 * (num % den) := by
    rw [div_lt_div_iff₀ two_pos unit, one_mul, mul_comm]
    norm_cast
  rw [value]
  generalize ((num % den : Nat) : ℚ) / den = f at *
  unfold nearestEven
  simp only [← low, ← high]
  split_ifs with down up
  · apply Nearest.of_lt
    rw [abs_lt]
    constructor <;> linarith
  · apply Nearest.of_lt
    rw [abs_lt]
    push_cast
    constructor <;> linarith
  · rw [le_antisymm (not_lt.mp up) (not_lt.mp down)]
    exact Nearest.midway _

/-- Of all integers none is nearer. -/
theorem Nearest.le {v : ℚ} {n : Nat} (nearest : Nearest v n) (k : Nat) : |v - n| ≤ |v - k| := by
  by_cases same : n = k
  · rw [same]
  have apart : (1 : ℚ) ≤ |(n : ℚ) - k| := by
    have distinct : (1 : Int) ≤ |(n : Int) - k| := Int.one_le_abs (by omega)
    exact_mod_cast distinct
  have triangle := abs_sub_le (n : ℚ) v k
  rw [abs_sub_comm (n : ℚ) v] at triangle
  linarith [nearest.near]

theorem one_pos : 0 < one := by decide +kernel

theorem one_pos_int : (0 : Int) < one :=
  Int.natCast_pos.mpr one_pos

theorem one_pos_rat : (0 : ℚ) < one :=
  Nat.cast_pos.mpr one_pos

/-- How far apart the numbers of 53 significant bits stand, from `m` up to the next power of two. -/
def spacing (m : Nat) : Nat :=
  2 ^ (m.log2 - 52)

theorem granular_iff : Granular a ↔ spacing a ∣ a :=
  Iff.rfl

theorem spacing_pos (m : Nat) : 0 < spacing m :=
  Nat.two_pow_pos _

theorem spacing_congr (same : a.log2 = b.log2) : spacing a = spacing b := by
  rw [spacing, spacing, same]

theorem spacing_dvd (le : a ≤ b) : spacing a ∣ spacing b := by
  have logs : a.log2 ≤ b.log2 := by
    rw [Nat.log2_eq_log_two, Nat.log2_eq_log_two]
    exact Nat.log_mono_right le
  exact Nat.pow_dvd_pow 2 (by omega)

theorem granular_two_pow (k : Nat) : Granular (2 ^ k) := by
  have power := granular_mul_pow 1 k (by decide)
  rwa [Nat.one_mul] at power

/-- Numbers of 53 significant bits stand apart. -/
theorem add_spacing_le (first : Granular a) (second : Granular b) (below : a < b) : a + spacing a ≤ b := by
  obtain ⟨x, multiple⟩ := granular_iff.mp first
  obtain ⟨y, multiple'⟩ := (spacing_dvd below.le).trans (granular_iff.mp second)
  have fewer : x < y := by
    have scaled : spacing a * x < spacing a * y := by rwa [← multiple, ← multiple']
    exact Nat.lt_of_mul_lt_mul_left scaled
  calc a + spacing a = spacing a * (x + 1) := by rw [Nat.mul_succ, ← multiple]
    _ ≤ spacing a * y := Nat.mul_le_mul_left _ fewer
    _ = b := multiple'.symm

/-- Up to the next power of two. -/
theorem add_spacing_le_two_pow (granular : Granular a) : a + spacing a ≤ 2 ^ (a.log2 + 1) :=
  add_spacing_le granular (granular_two_pow _) Nat.lt_log2_self

/-- What is not itself a power of two has the numbers below it no nearer than those above. -/
theorem add_spacing_le_of_not_power (first : Granular a) (second : Granular b) (below : a < b)
    (inside : b = 2 ^ b.log2 → b.log2 ≤ 52) : a + spacing b ≤ b := by
  by_cases small : b.log2 ≤ 52
  · rw [spacing, Nat.sub_eq_zero_of_le small, Nat.pow_zero]
    exact below
  have some : b ≠ 0 := by omega
  have power : 2 ^ b.log2 < b := lt_of_le_of_ne (Nat.log2_self_le some) fun same => small (inside same.symm)
  have logPower : (2 ^ b.log2).log2 = b.log2 := Nat.log2_two_pow
  by_cases low : 2 ^ b.log2 ≤ a
  · have log : a.log2 = b.log2 :=
      (Nat.log2_eq_iff (Nat.ne_of_gt ((Nat.two_pow_pos _).trans_le low))).mpr ⟨low, below.trans Nat.lt_log2_self⟩
    rw [← spacing_congr log]
    exact add_spacing_le first second below
  · have step := add_spacing_le (granular_two_pow b.log2) second power
    rw [spacing_congr logPower] at step
    omega

/-- Below a power of two the numbers stand at least half as far apart as above it. -/
theorem add_half_spacing_le (first : Granular a) (second : Granular b) (below : a < b) :
    2 * a + spacing b ≤ 2 * b := by
  by_cases inside : b = 2 ^ b.log2 → b.log2 ≤ 52
  · have step := add_spacing_le_of_not_power first second below inside
    omega
  · obtain ⟨inside, large⟩ := not_forall.mp inside
    -- the number before the power of two stands half a spacing below it
    obtain ⟨k, log⟩ : ∃ k, b.log2 = k + 53 := ⟨b.log2 - 53, by omega⟩
    have before : Granular ((2 ^ 53 - 1) * 2 ^ k) := granular_mul_pow _ k (by decide)
    have half : spacing b = 2 * 2 ^ k := by
      rw [spacing, log, ← Nat.pow_succ']
      rfl
    have whole : b = 2 ^ 53 * 2 ^ k := by rw [inside, log, Nat.pow_add, Nat.mul_comm]
    by_contra far
    have between : (2 ^ 53 - 1) * 2 ^ k < a := by omega
    have step := add_spacing_le before first between
    have logBefore : ((2 ^ 53 - 1) * 2 ^ k).log2 = 52 + k := by
      refine (Nat.log2_eq_iff (by positivity)).mpr ⟨?_, ?_⟩
      · rw [Nat.pow_add]
        exact Nat.mul_le_mul_right _ (by decide)
      · rw [show 52 + k + 1 = 53 + k by omega, Nat.pow_add]
        exact Nat.mul_lt_mul_of_pos_right (by decide) (Nat.two_pow_pos k)
    rw [spacing, logBefore, Nat.add_sub_cancel_left] at step
    omega

theorem nearest_multiple {v s : ℚ} {n : Nat} (positive : 0 < s) (nearest : Nearest (v / s) n) (k : Nat) :
    |v - n * s| ≤ |v - k * s| := by
  have scaled : ∀ j : Nat, |v - j * s| = |v / s - j| * s := by
    intro j
    rw [← abs_of_pos positive, ← abs_mul, abs_of_pos positive]
    congr 1
    field_simp
  rw [scaled, scaled]
  exact mul_le_mul_of_nonneg_right (nearest.le k) positive.le

/-- The rounded ratio is a whole number of steps of the grid on which its whole part lies. -/
theorem roundRatio_grid (num : Nat) (positive : 0 < den) :
    ∃ n, roundRatio num den = n * spacing (num / den) ∧
      Nearest ((num : ℚ) / den / spacing (num / den)) n := by
  refine ⟨_, rfl, ?_⟩
  have nearest := nearestEven_nearest num (Nat.mul_pos positive (spacing_pos (num / den)))
  rwa [Nat.cast_mul, ← div_div] at nearest

/-- What rounding takes from a value that is not among the least, or adds to it, is a small part of it. -/
theorem roundRatio_relative (num : Nat) (positive : 0 < den) (large : 2 ^ 52 ≤ num / den) :
    |(num : ℚ) / den - roundRatio num den| ≤ (num : ℚ) / den / 2 ^ 53 := by
  obtain ⟨n, ratio, nearest⟩ := roundRatio_grid num positive
  have step : (0 : ℚ) < spacing (num / den) := by exact_mod_cast spacing_pos _
  have some : num / den ≠ 0 := by omega
  have fine : spacing (num / den) * 2 ^ 52 ≤ num / den := by
    rw [spacing, ← Nat.pow_add, Nat.sub_add_cancel ((Nat.le_log2 some).mpr large)]
    exact Nat.log2_self_le some
  have part : (spacing (num / den) : ℚ) * 2 ^ 52 ≤ num / den := by
    refine le_trans ?_ Nat.cast_div_le
    exact_mod_cast fine
  have scaled : (num : ℚ) / den - roundRatio num den =
      ((num : ℚ) / den / spacing (num / den) - n) * spacing (num / den) := by
    rw [ratio, Nat.cast_mul, sub_mul, div_mul_cancel₀ _ step.ne']
  have near := mul_le_mul_of_nonneg_right nearest.near step.le
  rw [scaled, abs_mul, abs_of_pos step]
  linarith

/-- No number of 53 significant bits is nearer. -/
theorem roundRatio_nearest (num : Nat) (positive : 0 < den) (granular : Granular g) :
    |(num : ℚ) / den - roundRatio num den| ≤ |(num : ℚ) / den - g| := by
  obtain ⟨n, ratio, nearest⟩ := roundRatio_grid num positive
  have step : (0 : ℚ) < spacing (num / den) := by exact_mod_cast spacing_pos _
  have multiple : ∀ k : Nat, spacing (num / den) ∣ k →
      |(num : ℚ) / den - roundRatio num den| ≤ |(num : ℚ) / den - k| := by
    rintro _ ⟨k, rfl⟩
    have least := nearest_multiple step nearest k
    rw [ratio]
    push_cast
    rwa [mul_comm ((spacing _ : Nat) : ℚ)]
  by_cases fine : spacing (num / den) ∣ g
  · exact multiple g fine
  -- otherwise the power of two below the value lies on the grid, and between the two
  have low : g < num / den := by
    by_contra high
    exact fine ((spacing_dvd (not_lt.mp high)).trans granular)
  have some : num / den ≠ 0 := by omega
  have power : spacing (num / den) ∣ 2 ^ (num / den).log2 := Nat.pow_dvd_pow 2 (by omega)
  have below : g < 2 ^ (num / den).log2 := by
    by_contra high
    have log : g.log2 = (num / den).log2 :=
      (Nat.log2_eq_iff (Nat.ne_of_gt ((Nat.two_pow_pos _).trans_le (not_lt.mp high)))).mpr
        ⟨not_lt.mp high, low.trans Nat.lt_log2_self⟩
    exact fine (spacing_congr log ▸ granular)
  have value : ((2 ^ (num / den).log2 : Nat) : ℚ) ≤ (num : ℚ) / den :=
    le_trans (Nat.cast_le.mpr (Nat.log2_self_le some)) Nat.cast_div_le
  have between : (g : ℚ) < (2 ^ (num / den).log2 : Nat) := by exact_mod_cast below
  calc |(num : ℚ) / den - roundRatio num den|
      ≤ |(num : ℚ) / den - (2 ^ (num / den).log2 : Nat)| := multiple _ power
    _ ≤ |(num : ℚ) / den - g| := by
      rw [abs_of_nonneg (by linarith), abs_of_nonneg (by linarith)]
      linarith

theorem roundRatio_le (positive : 0 < den) (granular : Granular g) (below : (num : ℚ) / den ≤ g) :
    roundRatio num den ≤ g := by
  have nearest := roundRatio_nearest num positive granular
  rw [abs_sub_comm _ (g : ℚ), abs_of_nonneg (sub_nonneg.mpr below)] at nearest
  have bound : (roundRatio num den : ℚ) ≤ g := by linarith [(abs_le.mp nearest).1]
  exact_mod_cast bound

theorem le_roundRatio (positive : 0 < den) (granular : Granular g) (above : (g : ℚ) ≤ num / den) :
    g ≤ roundRatio num den := by
  have nearest := roundRatio_nearest num positive granular
  rw [abs_of_nonneg (sub_nonneg.mpr above)] at nearest
  have bound : (g : ℚ) ≤ roundRatio num den := by linarith [(abs_le.mp nearest).2]
  exact_mod_cast bound

theorem roundRatio_congr (first : 0 < den) (second : 0 < den')
    (same : (num : ℚ) / den = num' / den') : roundRatio num den = roundRatio num' den' := by
  have left : (den : ℚ) ≠ 0 := by exact_mod_cast first.ne'
  have right : (den' : ℚ) ≠ 0 := by exact_mod_cast second.ne'
  have cross : num * den' = num' * den := by
    rw [div_eq_div_iff left right] at same
    exact_mod_cast same
  calc roundRatio num den = roundRatio (num * den') (den * den') := (roundRatio_scale second).symm
    _ = roundRatio (num' * den) (den' * den) := by rw [cross, Nat.mul_comm den]
    _ = roundRatio num' den' := roundRatio_scale first

/-- What is nearer to the greater of two numbers is not below the middle between them. -/
theorem middle_le {v low high : ℚ} (order : low < high) (near : |v - high| ≤ |v - low|) :
    low + high ≤ 2 * v := by
  rw [← sq_le_sq] at near
  by_contra below
  nlinarith [mul_pos (sub_pos.mpr order) (sub_pos.mpr (not_le.mp below))]

theorem le_middle {v low high : ℚ} (order : low < high) (near : |v - low| ≤ |v - high|) :
    2 * v ≤ low + high := by
  rw [← sq_le_sq] at near
  by_contra above
  nlinarith [mul_pos (sub_pos.mpr order) (sub_pos.mpr (not_le.mp above))]

theorem roundRatio_mono (first : 0 < den) (second : 0 < den')
    (le : (num : ℚ) / den ≤ num' / den') : roundRatio num den ≤ roundRatio num' den' := by
  rcases le.eq_or_lt with same | less
  · exact (roundRatio_congr first second same).le
  by_contra above
  have order : (roundRatio num' den' : ℚ) < roundRatio num den := by exact_mod_cast not_le.mp above
  have low := middle_le order (roundRatio_nearest num first (granular_roundRatio num' den'))
  have high := le_middle order (roundRatio_nearest num' second (granular_roundRatio num den))
  linarith

theorem lt_two_pow_of_div (positive : 0 < den) :
    (num : ℚ) / den < (2 ^ ((num / den).log2 + 1) : Nat) := by
  have unit : (0 : ℚ) < den := by exact_mod_cast positive
  rw [div_lt_iff₀ unit]
  exact_mod_cast (Nat.div_lt_iff_lt_mul positive).mp Nat.lt_log2_self

/-- The grid of the result is that of the ratio, unless the result is the next power of two. -/
theorem roundRatio_spacing (num : Nat) (positive : 0 < den) :
    spacing (roundRatio num den) = spacing (num / den) ∨
      52 ≤ (num / den).log2 ∧ roundRatio num den = 2 ^ ((num / den).log2 + 1) := by
  have most : roundRatio num den ≤ 2 ^ ((num / den).log2 + 1) :=
    roundRatio_le positive (granular_two_pow _) (lt_two_pow_of_div positive).le
  by_cases power : roundRatio num den = 2 ^ ((num / den).log2 + 1)
  · by_cases wide : 52 ≤ (num / den).log2
    · exact .inr ⟨wide, power⟩
    · rw [power, spacing, spacing, Nat.log2_two_pow, Nat.sub_eq_zero_of_le (by omega),
        Nat.sub_eq_zero_of_le (by omega)]
      exact .inl rfl
  · refine .inl (spacing_congr ?_)
    by_cases zero : num / den = 0
    · simp only [zero, Nat.log2_zero] at most power ⊢
      have few : roundRatio num den = 0 ∨ roundRatio num den = 1 := by omega
      rcases few with none | one
      · rw [none, Nat.log2_zero]
      · rw [one]
        rfl
    · have least : 2 ^ (num / den).log2 ≤ roundRatio num den :=
        le_roundRatio positive (granular_two_pow _)
          ((Nat.cast_le.mpr (Nat.log2_self_le zero)).trans Nat.cast_div_le)
      have some := Nat.two_pow_pos (num / den).log2
      exact (Nat.log2_eq_iff (by omega)).mpr ⟨least, by omega⟩

/-- Seen on the grid of the result itself, the result is the nearest even integer. -/
theorem roundRatio_own (num : Nat) (positive : 0 < den) :
    Nearest ((num : ℚ) / den / spacing (roundRatio num den))
      (roundRatio num den / spacing (roundRatio num den)) := by
  obtain ⟨n, ratio, nearest⟩ := roundRatio_grid num positive
  rcases roundRatio_spacing num positive with same | ⟨wide, power⟩
  · rw [same, ratio, Nat.mul_div_cancel n (spacing_pos _)]
    exact nearest
  -- the result is the next power of two, where the grid is twice as wide
  obtain ⟨j, log⟩ := Nat.exists_eq_add_of_le wide
  have fine : spacing (num / den) = 2 ^ j := by rw [spacing, log, Nat.add_sub_cancel_left]
  have coarse : spacing (roundRatio num den) = 2 * 2 ^ j := by
    rw [power, spacing, Nat.log2_two_pow, log, ← Nat.pow_succ']
    congr 1
    omega
  have whole : roundRatio num den = 2 ^ 53 * 2 ^ j := by
    rw [power, log, ← Nat.pow_add]
    congr 1
    omega
  have digits : n = 2 ^ 53 := by
    rw [whole, fine] at ratio
    exact (Nat.mul_right_cancel (Nat.two_pow_pos j) ratio).symm
  have quotient : 2 ^ 53 * 2 ^ j / (2 * 2 ^ j) = 2 ^ 52 :=
    Nat.mul_div_mul_right (2 ^ 53) 2 (Nat.two_pow_pos j)
  have value : (num : ℚ) / den / (2 * 2 ^ j : Nat) = (num : ℚ) / den / spacing (num / den) / 2 := by
    rw [fine, div_div _ _ (2 : ℚ)]
    push_cast
    rw [mul_comm]
  obtain ⟨low, high⟩ := abs_le.mp nearest.near
  rw [coarse, whole, quotient, value]
  apply Nearest.of_lt
  rw [digits] at low high
  push_cast at low high ⊢
  rw [abs_lt]
  constructor <;> linarith

theorem roundRatio_within (num : Nat) (positive : 0 < den) :
    |(num : ℚ) / den - roundRatio num den| ≤ spacing (roundRatio num den) / 2 := by
  have near := (roundRatio_own num positive).near
  have granular := granular_roundRatio num den
  generalize roundRatio num den = g at *
  have step : (0 : ℚ) < spacing g := by exact_mod_cast spacing_pos g
  rw [Nat.cast_div (granular_iff.mp granular) step.ne', ← sub_div, abs_div, abs_of_pos step, div_le_iff₀ step] at near
  linarith

/-- A number is the rounded ratio where it is the nearest even integer on its own grid, from below. -/
theorem roundRatio_eq_of_le (positive : 0 < den) (granular : Granular g) (below : (g : ℚ) ≤ num / den)
    (nearest : Nearest ((num : ℚ) / den / spacing g) (g / spacing g)) : roundRatio num den = g := by
  have unit : (0 : ℚ) < den := by exact_mod_cast positive
  have step : (0 : ℚ) < spacing g := by exact_mod_cast spacing_pos g
  have exact : g / spacing g * spacing g = g := Nat.div_mul_cancel granular
  have low : g ≤ num / den := by
    rw [Nat.le_div_iff_mul_le positive]
    rw [le_div_iff₀ unit] at below
    exact_mod_cast below
  have high : num / den < g + spacing g := by
    have near := (abs_le.mp nearest.near).2
    have scaled : (num : ℚ) / den / spacing g < (g / spacing g : Nat) + 1 := by linarith
    rw [div_lt_iff₀ step, div_lt_iff₀ unit, add_mul, one_mul, ← Nat.cast_mul, exact] at scaled
    rw [Nat.div_lt_iff_lt_mul positive]
    exact_mod_cast scaled
  have log : (num / den).log2 = g.log2 := by
    by_cases zero : g = 0
    · subst zero
      have none : num / den = 0 := by
        have one : spacing 0 = 1 := rfl
        omega
      rw [none]
    · have most := add_spacing_le_two_pow granular
      have least := Nat.log2_self_le zero
      exact (Nat.log2_eq_iff (by omega)).mpr ⟨by omega, by omega⟩
  obtain ⟨n, ratio, nearest'⟩ := roundRatio_grid num positive
  rw [spacing_congr log] at ratio nearest'
  rw [ratio, nearest'.unique nearest, exact]

/-- A value on the other side of the result, above it and no farther away, has the same result: the grid
is no finer above. -/
theorem roundRatio_reflected (first : 0 < den) (second : 0 < den')
    (above : (roundRatio num den : ℚ) ≤ num' / den')
    (near : (num' : ℚ) / den' - roundRatio num den ≤ roundRatio num den - num / den) :
    roundRatio num' den' = roundRatio num den := by
  have granular := granular_roundRatio num den
  have nearest := roundRatio_own num first
  generalize roundRatio num den = g at *
  have step : (0 : ℚ) < spacing g := by exact_mod_cast spacing_pos g
  have exact : ((g / spacing g : Nat) : ℚ) = g / spacing g := Nat.cast_div granular step.ne'
  have size : (num : ℚ) / den ≤ g := by linarith
  refine roundRatio_eq_of_le second granular above ?_
  have near' : (num' : ℚ) / den' / spacing g - (g / spacing g : Nat)
      ≤ (g / spacing g : Nat) - (num : ℚ) / den / spacing g := by
    rw [exact, ← sub_div, ← sub_div]
    exact div_le_div_of_nonneg_right near step.le
  have above' : 0 ≤ (num' : ℚ) / den' / spacing g - (g / spacing g : Nat) := by
    rw [exact, ← sub_div]
    exact div_nonneg (sub_nonneg.mpr above) step.le
  have half := (abs_le.mp nearest.near).1
  constructor
  · rw [abs_of_nonneg above']
    linarith
  · intro tie
    rw [abs_of_nonneg above'] at tie
    exact nearest.even (by rw [abs_of_nonpos (by linarith)]; linarith)

/-- The result is any number of 53 significant bits that is close enough to the value for its grid. -/
theorem roundRatio_eq_of_close (positive : 0 < den) (granular : Granular g)
    (low : 2 * (g - (num : ℚ) / den) < spacing g) (high : 2 * ((num : ℚ) / den - g) < spacing g)
    (power : g = 2 ^ g.log2 → 52 < g.log2 → 4 * (g - (num : ℚ) / den) < spacing g) : roundRatio num den = g := by
  have nearest := roundRatio_nearest num positive granular
  have granular' := granular_roundRatio num den
  rcases Nat.lt_trichotomy (roundRatio num den) g with below | same | above
  · have order : (roundRatio num den : ℚ) < g := by exact_mod_cast below
    have middle := le_middle order nearest
    exfalso
    by_cases inside : g = 2 ^ g.log2 → g.log2 ≤ 52
    · have gap : (roundRatio num den : ℚ) + spacing g ≤ g := by
        exact_mod_cast add_spacing_le_of_not_power granular' granular below inside
      linarith
    · obtain ⟨edge, large⟩ := not_forall.mp inside
      have gap : 2 * (roundRatio num den : ℚ) + spacing g ≤ 2 * g := by
        exact_mod_cast add_half_spacing_le granular' granular below
      linarith [power edge (not_le.mp large)]
  · exact same
  · have order : (g : ℚ) < roundRatio num den := by exact_mod_cast above
    have middle := middle_le order nearest
    have gap : (g : ℚ) + spacing g ≤ roundRatio num den := by
      exact_mod_cast add_spacing_le granular granular' above
    linarith

/-- What is nearer to zero than to the least number is lost. -/
theorem roundRatio_eq_zero (positive : 0 < den) (small : 2 * ((num : ℚ) / den) < 1) :
    roundRatio num den = 0 := by
  have value : (0 : ℚ) ≤ num / den := by positivity
  have one : (spacing 0 : ℚ) = 1 := by norm_num [spacing]
  refine roundRatio_eq_of_close positive (Nat.dvd_zero _) ?_ ?_ ?_
  · rw [one]
    push_cast
    linarith
  · rw [one]
    push_cast
    linarith
  · intro power
    exact absurd power.symm (Nat.two_pow_pos _).ne'

/-- How far apart the last numbers in range stand. -/
def widest : Nat := Nat.pow 2 2045

/-- The greatest magnitude in range. -/
def greatest : Nat := (Nat.pow 2 53 - 1) * widest

/-- The least magnitude that is rounded out of range: the middle between the last number in range and the
first one out of it. -/
def overflow : Nat := (Nat.pow 2 54 - 1) * Nat.pow 2 2044

theorem widest_pos : 0 < widest := by decide +kernel

theorem power_in_range : 10 ^ 308 * one < overflow := by decide +kernel

theorem granular_greatest : Granular greatest := by
  unfold greatest widest
  generalize 2045 = place
  exact granular_mul_pow _ place (Nat.sub_le _ _)

theorem granular_limit : Granular limit := by
  unfold limit
  generalize 2098 = place
  exact granular_two_pow place

theorem spacing_greatest : spacing greatest = widest := by decide +kernel

theorem greatest_add : greatest + widest = limit := by decide +kernel

theorem two_mul_overflow : 2 * overflow = 2 * greatest + widest := by decide +kernel

theorem widest_dvd_greatest : widest ∣ greatest := by
  unfold greatest
  exact Nat.dvd_mul_left _ _

theorem greatest_digits : greatest / widest = 2 ^ 53 - 1 := by
  unfold greatest
  exact Nat.mul_div_cancel _ widest_pos

theorem le_greatest (granular : Granular g) (inside : g < limit) : g ≤ greatest := by
  by_contra beyond
  have gap := add_spacing_le granular_greatest granular (not_le.mp beyond)
  rw [spacing_greatest, greatest_add] at gap
  omega

theorem greatest_lt_overflow : greatest < overflow := by
  have middle := two_mul_overflow
  have step := widest_pos
  omega

theorem Representable.lt_overflow (fits : Representable m) : (m : ℚ) < overflow := by
  have inside := (le_greatest fits.2 fits.1).trans_lt greatest_lt_overflow
  exact_mod_cast inside

/-- The greatest number has an odd significand, so it does not win the tie at the limit of the range. -/
theorem roundRatio_ne_greatest (positive : 0 < den) (tie : (num : ℚ) / den = overflow) :
    roundRatio num den ≠ greatest := by
  intro same
  have step : (0 : ℚ) < widest := by exact_mod_cast widest_pos
  have middle : 2 * (overflow : ℚ) = 2 * greatest + widest := by exact_mod_cast two_mul_overflow
  have even := (roundRatio_own num positive).even
  have exact : ((greatest / widest : Nat) : ℚ) = greatest / widest :=
    Nat.cast_div widest_dvd_greatest step.ne'
  have half : (overflow : ℚ) / widest - (greatest / widest : Nat) = 1 / 2 := by
    rw [exact, ← sub_div, div_eq_iff step.ne']
    linarith
  rw [same, spacing_greatest, tie, half, greatest_digits] at even
  exact absurd (even (by norm_num)) (by decide)

theorem roundRatio_lt_limit_iff (positive : 0 < den) :
    roundRatio num den < limit ↔ (num : ℚ) / den < overflow := by
  have last : (greatest : ℚ) + widest = limit := by exact_mod_cast greatest_add
  have middle : 2 * (overflow : ℚ) = 2 * greatest + widest := by exact_mod_cast two_mul_overflow
  constructor
  · intro inside
    have below := le_greatest (granular_roundRatio num den) inside
    have order : (roundRatio num den : ℚ) < limit := by exact_mod_cast inside
    have high := le_middle order (roundRatio_nearest num positive granular_limit)
    have most : (roundRatio num den : ℚ) ≤ greatest := by exact_mod_cast below
    refine lt_of_le_of_ne (by linarith) fun tie => roundRatio_ne_greatest positive tie ?_
    have least : (greatest : ℚ) ≤ roundRatio num den := by linarith
    exact Nat.le_antisymm below (by exact_mod_cast least)
  · intro small
    by_contra outside
    have above : (limit : ℚ) ≤ roundRatio num den := by exact_mod_cast not_lt.mp outside
    have step : (0 : ℚ) < widest := by exact_mod_cast widest_pos
    have order : (greatest : ℚ) < roundRatio num den := by linarith
    have low := middle_le order (roundRatio_nearest num positive granular_greatest)
    linarith

theorem round_of_roundRatio (negative : Bool) (fits : Representable m) (same : roundRatio num den = m) :
    round negative num den = .finite negative m fits := by
  unfold round
  simp only [same, fits.1, dite_true]

theorem round_outside (negative : Bool) (positive : 0 < den) (outside : (overflow : ℚ) ≤ num / den) :
    round negative num den = .infinite negative := by
  unfold round
  rw [dif_neg fun inside => not_lt.mpr outside ((roundRatio_lt_limit_iff positive).mp inside)]

theorem round_isFinite_iff (negative : Bool) (positive : 0 < den) :
    (round negative num den).isFinite = true ↔ (num : ℚ) / den < overflow := by
  rw [← roundRatio_lt_limit_iff positive, round]
  split
  · rename_i inside
    exact iff_of_true rfl inside
  · rename_i outside
    exact iff_of_false Bool.false_ne_true outside

end Calculator.Binary64
