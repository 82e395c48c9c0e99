import Calculator.Proofs.Number.Numerals
import Calculator.Proofs.Number.Significant

/-!
Converting numerals. A numeral has an exact value, however long it is, and its conversion is the number of
53 significant bits nearest to that, the even one of two.
-/
namespace Calculator

namespace Binary64

/-- The magnitude of 53 significant bits nearest to a value in units, however great; of two the one whose
significand is even. -/
structure RoundsTo (v : ℚ) (m : Nat) : Prop where
  granular : Granular m
  nearest : ∀ g, Granular g → |v - m| ≤ |v - g|
  even : ∀ g, Granular g → g ≠ m → |v - g| = |v - m| → Even (m / spacing m)

theorem granular_add_spacing {a : Nat} (granular : Granular a) : Granular (a + spacing a) := by
  rcases (add_spacing_le_two_pow granular).lt_or_eq with inside | power
  · have log : (a + spacing a).log2 = a.log2 := by
      by_cases zero : a = 0
      · subst zero
        rfl
      · have least := Nat.log2_self_le zero
        exact (Nat.log2_eq_iff (by omega)).mpr ⟨by omega, inside⟩
    rw [granular_iff, spacing_congr log]
    exact Nat.dvd_add (granular_iff.mp granular) (Nat.dvd_refl _)
  · rw [power]
    exact granular_two_pow _

/-- There is one magnitude that a value rounds to: of two neighbours at the same distance one is odd. -/
theorem RoundsTo.unique {v : ℚ} {a b : Nat} (first : RoundsTo v a) (second : RoundsTo v b) : a = b := by
  by_contra other
  wlog below : a < b generalizing a b
  · exact this second first (Ne.symm other) (by omega)
  have order : (a : ℚ) < b := by exact_mod_cast below
  have tie : |v - b| = |v - a| :=
    le_antisymm (second.nearest a first.granular) (first.nearest b second.granular)
  have evenA := first.even b second.granular (Ne.symm other) tie
  have evenB := second.even a first.granular other tie.symm
  have low := le_middle order tie.ge
  have high := middle_le order tie.le
  have adjacent : b = a + spacing a := by
    by_contra apart
    have gap := add_spacing_le first.granular second.granular below
    have between : ((a + spacing a : Nat) : ℚ) < b := by exact_mod_cast (by omega : a + spacing a < b)
    have step : (0 : ℚ) < spacing a := by exact_mod_cast spacing_pos a
    have nearer := first.nearest _ (granular_add_spacing first.granular)
    push_cast at between nearer
    rw [abs_of_nonneg (by linarith : 0 ≤ v - a)] at nearer
    rcases abs_cases (v - (a + spacing a)) with ⟨same, _⟩ | ⟨same, _⟩ <;> rw [same] at nearer <;> linarith
  obtain ⟨d, finer⟩ := spacing_dvd below.le
  obtain ⟨i, half⟩ := evenA
  obtain ⟨j, half'⟩ := evenB
  have wholeA : a = spacing a * (i + i) := by
    rw [← half, Nat.mul_div_cancel' (granular_iff.mp first.granular)]
  have wholeB : b = spacing a * (d * (j + j)) := by
    rw [← Nat.mul_assoc, ← finer, ← half', Nat.mul_div_cancel' (granular_iff.mp second.granular)]
  have digits : spacing a * (i + i + 1) = spacing a * (d * (j + j)) := by
    rw [← wholeB, Nat.mul_succ, ← wholeA, adjacent]
  have parity := Nat.eq_of_mul_eq_mul_left (spacing_pos a) digits
  have even : d * (j + j) = 2 * (d * j) := by ring
  omega

theorem even_of_middle {num den : Nat} (positive : 0 < den)
    (middle : (spacing (roundRatio num den) : ℚ) ≤ 2 * |(num : ℚ) / den - roundRatio num den|) :
    Even (roundRatio num den / spacing (roundRatio num den)) := by
  have granular := granular_roundRatio num den
  have within := roundRatio_within num positive
  refine (roundRatio_own num positive).even ?_
  generalize roundRatio num den = g at *
  have step : (0 : ℚ) < spacing g := by exact_mod_cast spacing_pos g
  rw [Nat.cast_div (granular_iff.mp granular) step.ne', ← sub_div, abs_div, abs_of_pos step,
    div_eq_iff step.ne']
  linarith

/-- A ratio is rounded to the nearest number, a tie going to the even one. -/
theorem roundsTo_roundRatio (num : Nat) {den : Nat} (positive : 0 < den) :
    RoundsTo ((num : ℚ) / den) (roundRatio num den) := by
  have granular := granular_roundRatio num den
  refine ⟨granular, fun g granular' => roundRatio_nearest num positive granular', ?_⟩
  intro g granular' other tie
  have even := @even_of_middle num den positive
  generalize roundRatio num den = m at *
  rcases Nat.lt_or_gt_of_ne other with below | above
  · have order : (g : ℚ) < m := by exact_mod_cast below
    have low := middle_le order tie.ge
    have high := le_middle order tie.le
    by_cases inside : m = 2 ^ m.log2 → m.log2 ≤ 52
    · have gap : (g : ℚ) + spacing m ≤ m := by
        exact_mod_cast add_spacing_le_of_not_power granular' granular below inside
      refine even ?_
      rw [abs_of_nonpos (by linarith)]
      linarith
    · obtain ⟨power, large⟩ := not_forall.mp inside
      -- a power of two beyond the fine grid has an even significand in any case
      obtain ⟨k, log⟩ : ∃ k, m.log2 = k + 53 := ⟨m.log2 - 53, by omega⟩
      have split : m = 2 ^ 52 * spacing m := by
        rw [spacing, ← Nat.pow_add]
        conv_lhs => rw [power]
        congr 1
        omega
      have digits : m / spacing m = 2 ^ 52 := Nat.div_eq_of_eq_mul_left (spacing_pos m) split
      rw [digits]
      decide
  · have order : (m : ℚ) < g := by exact_mod_cast above
    have low := middle_le order tie.le
    have high := le_middle order tie.ge
    have gap : (m : ℚ) + spacing m ≤ g := by exact_mod_cast add_spacing_le granular granular' above
    refine even ?_
    rw [abs_of_nonneg (by linarith)]
    linarith

end Binary64

namespace Decimal

theorem ofDigits_append (s t : Text) : ofDigits (s ++ t) = ofDigits s * 10 ^ t.length + ofDigits t := by
  induction t using List.reverseRecOn with
  | nil => simp [ofDigits]
  | append_singleton t u ih =>
    have last : ∀ t : Text, ofDigits (t ++ [u]) = 10 * ofDigits t + digitValue u := fun t => by
      simp [ofDigits]
    rw [← List.append_assoc, last, last, ih, List.length_append, List.length_singleton, Nat.pow_succ]
    ring

/-- An exponent part that is read is none, or one of the spellings. -/
theorem exists_exponent {t : Text} {e : Int} (read : readExponent? t = some e) :
    ∃ x : Option Exponent, x.elim [] Exponent.text = t ∧ x.elim 0 Exponent.value = e := by
  cases t with
  | nil =>
    cases read
    exact ⟨none, rfl, rfl⟩
  | cons mark rest =>
    simp only [readExponent?] at read
    split at read
    · rename_i marked
      have spelled : ∀ {sign ds : Text}, sign = [] ∨ sign = [0x2B] ∨ sign = [0x2D] →
          ds ≠ [] ∧ ds.all Text.isDigit = true →
            (if sign = [0x2D] then -(ofDigits ds : Int) else ofDigits ds) = e →
              ∃ x : Option Exponent, x.elim [] Exponent.text = mark :: (sign ++ ds) ∧
                x.elim 0 Exponent.value = e := fun {sign ds} signed digits value =>
        ⟨some ⟨mark, sign, ds, marked, signed, digits.1, List.all_eq_true.mp digits.2⟩, rfl, value⟩
      split at read
      · obtain ⟨digits, value⟩ := Option.ite_none_right_eq_some.mp read
        exact spelled (.inr (.inr rfl)) digits (Option.some.inj value)
      · obtain ⟨digits, value⟩ := Option.ite_none_right_eq_some.mp read
        exact spelled (.inr (.inl rfl)) digits (Option.some.inj value)
      · obtain ⟨digits, value⟩ := Option.ite_none_right_eq_some.mp read
        exact spelled (.inl rfl) digits (Option.some.inj value)
    · cases read

/-- What is read is a numeral, and read for what it says. -/
theorem read_iff {t : Text} {d : Decimal} : read? t = some d ↔ ∃ n : Numeral, n.text = t ∧ n.value = d := by
  constructor
  · intro read
    have split : t.takeWhile Text.isDigit ++ t.dropWhile Text.isDigit = t :=
      List.takeWhile_append_dropWhile
    have decimal : ∀ s : Text, ∀ u ∈ s.takeWhile Text.isDigit, Text.isDigit u = true :=
      fun s => List.all_eq_true.mp List.all_takeWhile
    simp only [read?] at read
    split at read
    · rename_i behind point
      obtain ⟨some, read⟩ := Option.ite_none_left_eq_some.mp read
      obtain ⟨e, tail, rfl⟩ := Option.map_eq_some_iff.mp read
      obtain ⟨x, text, rfl⟩ := exists_exponent tail
      have parts : behind.takeWhile Text.isDigit ++ x.elim [] Exponent.text = behind := by
        rw [text, List.takeWhile_append_dropWhile]
      refine ⟨⟨t.takeWhile Text.isDigit, .some (behind.takeWhile Text.isDigit), x, by simpa using some,
        List.forall_mem_append.mpr ⟨decimal t, decimal behind⟩⟩, ?_, rfl⟩
      simp only [Numeral.text, Numeral.mantissa, Numeral.tail, Option.elim_some, List.append_assoc,
        List.cons_append, parts, ← point, split]
    · obtain ⟨some, read⟩ := Option.ite_none_left_eq_some.mp read
      obtain ⟨e, tail, rfl⟩ := Option.map_eq_some_iff.mp read
      obtain ⟨x, text, rfl⟩ := exists_exponent tail
      refine ⟨⟨t.takeWhile Text.isDigit, none, x, by simpa using some, by simpa using decimal t⟩, ?_, rfl⟩
      simp only [Numeral.text, Numeral.mantissa, Numeral.tail, Option.elim_none, List.append_nil, text,
        split]
  · rintro ⟨n, rfl, rfl⟩
    exact read_text n

end Decimal

/-- What a numeral says: its digits before and behind the point, times its power of ten. -/
def Numeral.exact (n : Numeral) : ℚ :=
  (Decimal.ofDigits n.whole + Decimal.ofDigits (n.fraction.getD []) / 10 ^ (n.fraction.getD []).length) *
    10 ^ n.exponent.elim 0 Exponent.value

theorem Numeral.magnitude_value (n : Numeral) : n.value.magnitude = n.exact * Binary64.one := by
  have power : (10 : ℚ) ^ (n.fraction.getD []).length ≠ 0 := by positivity
  rw [Decimal.magnitude, Decimal.scale, value, exact, Decimal.ofDigits_append, zpow_sub₀ (by norm_num),
    zpow_natCast]
  push_cast
  generalize (Binary64.one : ℚ) = unit
  field_simp

/-- A numeral is converted to the number nearest to what it says, or to infinity if that is out of range. -/
theorem Binary64.ofText_rounds (n : Numeral) {m : Nat} (rounds : RoundsTo (n.exact * one) m) :
    (∀ inside : m < limit, ofText n.text = .finite false m ⟨inside, rounds.granular⟩) ∧
      (limit ≤ m → ofText n.text = .infinite false) := by
  have positive := n.value.fraction_positive one
  have value := n.value.fraction_value
  rw [n.magnitude_value] at value
  rw [← value] at rounds
  obtain rfl := rounds.unique (roundsTo_roundRatio _ positive)
  rw [ofText_text, Decimal.toBinary64_eq_round]
  constructor
  · intro inside
    exact round_of_roundRatio false ⟨inside, rounds.granular⟩ rfl
  · intro outside
    rw [round, dif_neg (not_lt.mpr outside)]

end Calculator
