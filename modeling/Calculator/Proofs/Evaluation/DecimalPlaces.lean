import Calculator.Number.Rounding
import Calculator.Proofs.Number.Value
import Calculator.Session.Session

/-!
The sign of zero in rounding to decimal places. A result of zero is made positive, whatever it came from,
except where the power of ten is out of range and the number is handed back as it is.
-/
namespace Calculator.Binary64

variable {x y : Binary64} {b : Int} {n : Nat} {places : Int}

theorem negativeZero_eq : negativeZero = finite true 0 representable_zero :=
  round_unscaled true representable_zero

theorem zero_ne_negativeZero : zero ≠ negativeZero := by
  rw [negativeZero_eq, zero, round_unscaled false representable_zero]
  exact fun same => by cases same

theorem powerOfTen_far (far : 308 < n) : powerOfTen n = infinite false :=
  if_pos far

/-- Up to the 308th, a power of ten is a positive number, also where the platform's is not trusted. -/
theorem powerOfTen_counts (near : n ≤ 308) : ∃ p, Counts (powerOfTen n) p ∧ 0 < p := by
  rw [powerOfTen, if_neg (not_lt.mpr near)]
  dsimp only
  split_ifs with trusted
  · obtain ⟨finite, positive⟩ := Bool.and_eq_true_iff.mp trusted
    have counts := counts_self finite
    rw [counts_zero.less_eq counts, decide_eq_true_eq] at positive
    exact ⟨_, counts, positive⟩
  · rw [Nat.pow_eq]
    have least : 1 ≤ 10 ^ n * one := Nat.mul_pos (Nat.pow_pos (by decide)) one_pos
    have power : ∀ k, n ≤ k → 10 ^ n ≤ 10 ^ k := fun k => Nat.pow_le_pow_right (by decide)
    have most := (Nat.mul_le_mul_right one (power 308 near)).trans_lt power_in_range
    generalize 10 ^ n * one = m at *
    have positive : 2 ^ 0 ≤ roundRatio m 1 := le_roundRatio Nat.one_pos (granular_two_pow 0) (by
      rw [Nat.cast_one, div_one]
      exact_mod_cast least)
    exact ⟨_, counts_round (Nat.cast_lt.mpr most), Int.natCast_pos.mpr positive⟩

/-- The negative zero stays in range when it is multiplied or divided. -/
theorem negativeZero_mul_isFinite (counts : Counts y b) : (negativeZero * y).isFinite = true := by
  obtain ⟨t, k, fits, rfl, -⟩ := counts.eq_finite
  rw [negativeZero_eq]
  show (Binary64.mul _ _).isFinite = true
  rw [Binary64.mul, Nat.zero_mul, ← Nat.zero_mul one, round_exact _ representable_zero one_pos]
  rfl

theorem negativeZero_div_isFinite (counts : Counts y b) (some : b ≠ 0) : (negativeZero / y).isFinite = true := by
  obtain ⟨t, k, fits, rfl, rfl⟩ := counts.eq_finite
  have nonzero := magnitude_ne_zero some
  rw [negativeZero_eq]
  show (Binary64.div _ _).isFinite = true
  rw [Binary64.div, if_neg nonzero, Nat.zero_mul, ← Nat.zero_mul k,
    round_exact _ representable_zero (Nat.pos_of_ne_zero nonzero)]
  rfl

theorem ite_isZero_ne_negativeZero (x : Binary64) : (if x.isZero then zero else x) ≠ negativeZero := by
  split_ifs with none
  · exact zero_ne_negativeZero
  · rw [negativeZero_eq]
    rintro rfl
    exact none rfl

theorem roundPlaces_far (far : 308 < places.natAbs) : x.roundPlaces places = if 0 < places then x else zero := by
  rw [roundPlaces, powerOfTen_far far]
  rfl

/-- Where the power of ten is in range, only what is scaled out of range is handed back, and that is not zero. -/
theorem roundPlaces_near (near : places.natAbs ≤ 308) : x.roundPlaces places ≠ negativeZero := by
  obtain ⟨p, counts, positive⟩ := powerOfTen_counts near
  have stays : x = negativeZero → (if 0 ≤ places then x * powerOfTen places.natAbs
      else x / powerOfTen places.natAbs).isFinite = true := by
    intro same
    rw [same]
    split_ifs
    · exact negativeZero_mul_isFinite counts
    · exact negativeZero_div_isFinite counts positive.ne'
  rw [roundPlaces]
  dsimp only
  rw [counts.finite, if_neg (by decide)]
  generalize (if 0 ≤ places then x * powerOfTen places.natAbs else x / powerOfTen places.natAbs) = scaled at *
  cases inside : scaled.isFinite with
  | true =>
    rw [if_neg (by decide)]
    exact ite_isZero_ne_negativeZero _
  | false =>
    rw [if_pos (by decide)]
    exact fun same => Bool.false_ne_true (inside.symm.trans (stays same))

/-- The negative zero is rounded to itself where the places are too many for their power of ten; nothing else is
ever rounded to it. -/
theorem roundPlaces_eq_negativeZero_iff (x : Binary64) (places : Int) :
    x.roundPlaces places = negativeZero ↔ x = negativeZero ∧ 308 < places := by
  by_cases near : places.natAbs ≤ 308
  · exact iff_of_false (roundPlaces_near near) fun ⟨_, far⟩ => by omega
  rw [roundPlaces_far (not_le.mp near)]
  split_ifs with positive
  · exact ⟨fun same => ⟨same, by omega⟩, And.left⟩
  · exact iff_of_false zero_ne_negativeZero fun ⟨_, far⟩ => by omega

/-- With 400 places the sign comes through, also from a text. -/
theorem round_negativeZero_far : negativeZero.isFinite = true ∧ negativeZero.roundPlaces 400 = negativeZero ∧
    (Session.evaluate ⟨.degrees, .zero⟩ "round(-0, 400)").outcome = .ok negativeZero := by
  decide +kernel

end Calculator.Binary64
