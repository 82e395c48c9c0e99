import Calculator.Number.Arithmetic

/-!
Rounding depends on the value alone, not on the fraction that it is given as, and what can be represented
is its own rounding.
-/
namespace Calculator.Binary64

variable {num den c m : Nat}

theorem nearestEven_scale (positive : 0 < c) :
    nearestEven (num * c) (den * c) = nearestEven num den := by
  have quotient : num * c / (den * c) = num / den := Nat.mul_div_mul_right num den positive
  have remainder : 2 * (num * c % (den * c)) = 2 * (num % den) * c := by
    rw [Nat.mul_mod_mul_right, Nat.mul_assoc]
  unfold nearestEven
  simp only [quotient, remainder, Nat.mul_lt_mul_right positive]

theorem nearestEven_whole (n : Nat) (positive : 0 < den) : nearestEven (n * den) den = n := by
  unfold nearestEven
  rw [Nat.mul_mod_left, if_pos (by omega)]
  exact Nat.mul_div_cancel n positive

theorem roundRatio_scale (positive : 0 < c) : roundRatio (num * c) (den * c) = roundRatio num den := by
  unfold roundRatio
  rw [Nat.mul_div_mul_right num den positive, Nat.mul_right_comm, nearestEven_scale positive]

theorem roundRatio_exact (granular : Granular m) (positive : 0 < den) : roundRatio (m * den) den = m := by
  obtain ⟨k, multiple⟩ := granular
  have grid : 0 < den * Nat.pow 2 (m.log2 - 52) := Nat.mul_pos positive (Nat.two_pow_pos _)
  have steps : m * den = k * (den * Nat.pow 2 (m.log2 - 52)) := by
    calc m * den = Nat.pow 2 (m.log2 - 52) * k * den := by rw [← multiple]
      _ = k * (den * Nat.pow 2 (m.log2 - 52)) := by ac_rfl
  unfold roundRatio
  rw [Nat.mul_div_cancel m positive, steps, nearestEven_whole k grid, Nat.mul_comm k, ← multiple]

theorem round_scale (negative : Bool) (positive : 0 < c) :
    round negative (num * c) (den * c) = round negative num den := by
  unfold round
  simp only [roundRatio_scale positive]

/-- Equal fractions are rounded alike. -/
theorem round_congr (negative : Bool) {num' den' : Nat} (first : 0 < den) (second : 0 < den')
    (same : num * den' = num' * den) : round negative num den = round negative num' den' := by
  calc round negative num den = round negative (num * den') (den * den') := (round_scale negative second).symm
    _ = round negative (num' * den) (den' * den) := by rw [same, Nat.mul_comm den]
    _ = round negative num' den' := round_scale negative first

theorem round_exact (negative : Bool) (fits : Representable m) (positive : 0 < den) :
    round negative (m * den) den = .finite negative m fits := by
  unfold round
  simp only [roundRatio_exact fits.2 positive, fits.1, dite_true]

theorem round_unscaled (negative : Bool) (fits : Representable m) :
    round negative m 1 = .finite negative m fits := by
  have rounded := round_exact negative fits Nat.one_pos
  rwa [Nat.mul_one] at rounded

theorem representable_zero : Representable 0 := by decide +kernel

theorem round_cases (negative : Bool) (num den : Nat) :
    (∃ fits, round negative num den = .finite negative (roundRatio num den) fits) ∨
      round negative num den = .infinite negative := by
  unfold round
  split
  · rename_i inside
    exact .inl ⟨⟨inside, granular_roundRatio num den⟩, rfl⟩
  · exact .inr rfl

theorem round_isNegative (negative : Bool) (num den : Nat) :
    (round negative num den).isNegative = negative := by
  unfold round
  split
  · rfl
  · rfl

theorem round_neg (negative : Bool) (num den : Nat) :
    round (!negative) num den = (round negative num den).neg := by
  unfold round
  split
  · rfl
  · rfl

end Calculator.Binary64
