import Calculator.Number.Display
import Calculator.Proofs.Number.Decimals
import Calculator.Proofs.Number.Numerals

/-!
What a number is written as: a numeral in every layout, and one that says the number.
-/
namespace Calculator

namespace Text

theorem toNat_code {c : Char} (digit : c.isDigit = true) :
    (code c).toNat = c.toNat ∧ 0x30 ≤ c.toNat ∧ c.toNat ≤ 0x39 := by
  simp only [Char.isDigit, Bool.and_eq_true, decide_eq_true_eq, ge_iff_le, UInt32.le_iff_toNat_le] at digit
  have low : 0x30 ≤ c.toNat := digit.1
  have high : c.toNat ≤ 0x39 := digit.2
  have kept : (code c).toNat = c.toNat % 2 ^ 16 := UInt32.toNat_toUInt16 c.val
  omega

theorem isDigit_of_mem_toDigits {n : Nat} {c : Char} (member : c ∈ Nat.toDigits 10 n) : c.isDigit = true :=
  Nat.isDigit_of_mem_toDigits (by decide) (by decide) member

theorem ofNat_eq_map (n : Nat) : ofNat n = (Nat.toDigits 10 n).map code := by
  have single : ∀ c ∈ Nat.toDigits 10 n, ofChar c = [code c] := by
    intro c member
    have digit := isDigit_of_mem_toDigits member
    have top : c.val < 0x10000 := by
      rw [UInt32.lt_iff_toNat_lt]
      exact Nat.lt_of_le_of_lt (toNat_code digit).2.2 (by decide)
    rw [ofChar, if_pos top, code]
  rw [ofNat, List.flatMap_def, List.map_congr_left single, ← List.flatMap_def]
  exact List.map_eq_flatMap.symm

theorem ofNat_decimal (n : Nat) : ∀ u ∈ ofNat n, isDigit u = true := by
  intro u member
  rw [ofNat_eq_map, List.mem_map] at member
  obtain ⟨c, digit, rfl⟩ := member
  obtain ⟨same, low, high⟩ := toNat_code (isDigit_of_mem_toDigits digit)
  rw [isDigit_iff, same]
  exact ⟨low, high⟩

theorem ofNat_ne_nil (n : Nat) : ofNat n ≠ [] := by
  rw [ofNat_eq_map]
  exact fun none => Nat.toDigits_ne_nil (List.map_eq_nil_iff.mp none)

/-- Only zero is written with a zero in front. -/
theorem ofNat_first {n : Nat} (nonzero : n ≠ 0) : (ofNat n).head? ≠ some 0x30 := by
  induction n using Nat.strongRecOn with
  | ind n ih =>
    by_cases small : n < 10
    · have digit : ∀ k < 10, k ≠ 0 → (ofNat k).head? ≠ some 0x30 := by decide
      exact digit n small nonzero
    · have split : ofNat n = ofNat (n / 10) ++ [code (n % 10).digitChar] := by
        rw [ofNat_eq_map, ofNat_eq_map, Nat.toDigits_of_base_le (by decide) (by omega), List.map_append]
        rfl
      have front := ih (n / 10) (by omega) (by omega)
      obtain ⟨u, rest, same⟩ := List.exists_cons_of_ne_nil (ofNat_ne_nil (n / 10))
      rw [split]
      rwa [same] at front ⊢

end Text

namespace Decimal

theorem foldl_code {cs : List Char} (digits : ∀ c ∈ cs, c.isDigit = true) (start : Nat) :
    (cs.map Text.code).foldl (fun n u => 10 * n + digitValue u) start = Nat.ofDigitChars 10 cs start := by
  induction cs generalizing start with
  | nil => rfl
  | cons c rest ih =>
    simp only [List.mem_cons, forall_eq_or_imp] at digits
    have first : digitValue (Text.code c) = c.toNat - '0'.toNat := by
      rw [digitValue, (Text.toNat_code digits.1).1]
      rfl
    rw [List.map_cons, List.foldl_cons, first, ih digits.2, Nat.ofDigitChars_cons]

theorem ofDigits_ofNat (n : Nat) : ofDigits (Text.ofNat n) = n := by
  have digits : ∀ c ∈ Nat.toDigits 10 n, c.isDigit = true := fun c => Text.isDigit_of_mem_toDigits
  rw [ofDigits, Text.ofNat_eq_map, foldl_code digits, Nat.ofDigitChars_ten_toDigits]

theorem ofDigits_zeros_append (k : Nat) (t : Text) : ofDigits (zeros k ++ t) = ofDigits t := by
  induction k with
  | zero => rfl
  | succ k ih =>
    rw [← ih]
    rfl

theorem ofDigits_append_zeros (t : Text) (k : Nat) : ofDigits (t ++ zeros k) = ofDigits t * 10 ^ k := by
  induction k with
  | zero => simp [zeros]
  | succ k ih =>
    have last : t ++ zeros (k + 1) = t ++ zeros k ++ [0x30] := by
      rw [zeros, List.replicate_succ', ← List.append_assoc, zeros]
    have value : ofDigits (t ++ zeros k ++ [0x30]) = 10 * ofDigits (t ++ zeros k) := by
      simp [ofDigits, digitValue]
    rw [last, value, ih, Nat.pow_succ]
    ac_rfl

theorem zeros_decimal (k : Nat) : ∀ u ∈ zeros k, Text.isDigit u = true := by
  intro u member
  rw [List.eq_of_mem_replicate member]
  rfl

/-- The exponent part that stands behind a mantissa with a single digit before the point. -/
def writtenExponent (e : Int) : Exponent where
  mark := 0x65
  sign := if 0 ≤ e then [0x2B] else [0x2D]
  digits := Text.ofNat e.natAbs
  marked := .inl rfl
  signed := by split <;> simp
  some := Text.ofNat_ne_nil _
  decimal := Text.ofNat_decimal _

theorem writtenExponent_value (e : Int) : (writtenExponent e).value = e := by
  unfold Exponent.value writtenExponent
  rw [ofDigits_ofNat]
  by_cases sign : 0 ≤ e
  · simp only [sign, if_true]
    rw [if_neg (by decide)]
    omega
  · simp only [sign, if_false, if_true]
    omega

/-- The numeral says what the digits say with the point at the given place. -/
structure Lays (digits : Text) (point : Int) (n : Numeral) : Prop where
  text : n.text = layout digits point
  value : ∀ negative, n.value.toBinary64 negative =
    toBinary64 negative ⟨ofDigits digits, point - digits.length⟩
  strict : n.Strict

section Layouts

variable {digits : Text} (nonempty : digits ≠ []) (decimal : ∀ u ∈ digits, Text.isDigit u = true)
include nonempty decimal

theorem lays_leadingZeros {point : Int} (near : ¬ (point < positional.lowest ∨ positional.highest < point))
    (small : point ≤ 0) : ∃ n, Lays digits point n := by
  have each : ∀ u ∈ zeros 1 ++ (zeros (-point).toNat ++ digits), Text.isDigit u = true := by
    simp only [List.mem_append]
    rintro u (zero | zero | digit)
    · exact zeros_decimal _ u zero
    · exact zeros_decimal _ u zero
    · exact decimal u digit
  refine ⟨⟨zeros 1, some (zeros (-point).toNat ++ digits), none, by simp [nonempty], each⟩, ?_, ?_,
    ⟨.inl rfl, by simp [nonempty]⟩⟩
  · rw [layout, if_neg near, if_pos small]
    have front : ("0." : Text) = zeros 1 ++ [0x2E] := rfl
    simp [Numeral.text, Numeral.mantissa, Numeral.tail, front]
  · intro negative
    have places : 0 - ((zeros (-point).toNat ++ digits).length : Int) = point - digits.length := by
      simp only [zeros, List.length_append, List.length_replicate]
      omega
    rw [← places]
    simp [Numeral.value, ofDigits_zeros_append]

variable (first : digits.head? ≠ some 0x30)
include first

theorem lays_exponent {point : Int} (far : point < positional.lowest ∨ positional.highest < point) :
    ∃ n, Lays digits point n := by
  obtain ⟨u, rest, rfl⟩ := List.exists_cons_of_ne_nil nonempty
  have nonzero : u ≠ 0x30 := by simpa using first
  cases rest with
  | nil =>
    refine ⟨⟨[u], none, writtenExponent (point - 1), by simp, by simpa using decimal⟩, ?_, ?_,
      ⟨.inr ⟨u, [], rfl, nonzero⟩, by simp⟩⟩
    · rw [layout, if_pos far]
      rfl
    · intro negative
      simp [Numeral.value, writtenExponent_value]
  | cons v rest =>
    refine ⟨⟨[u], some (v :: rest), writtenExponent (point - 1), by simp, by simpa using decimal⟩,
      ?_, ?_, ⟨.inr ⟨u, [], rfl, nonzero⟩, by simp⟩⟩
    · have long : ¬ (u :: v :: rest).length ≤ 1 := by simp
      rw [layout, if_pos far, if_neg long, List.append_assoc, List.append_assoc]
      rfl
    · intro negative
      have places : point - 1 - (v :: rest).length = point - (u :: v :: rest).length := by
        simp only [List.length_cons]
        omega
      rw [← places]
      simp [Numeral.value, writtenExponent_value]

theorem lays_trailingZeros {point : Int} (near : ¬ (point < positional.lowest ∨ positional.highest < point))
    (large : ¬ point ≤ 0) (long : digits.length ≤ point.toNat) : ∃ n, Lays digits point n := by
  have each : ∀ u ∈ digits ++ zeros (point.toNat - digits.length), Text.isDigit u = true := by
    simp only [List.mem_append]
    rintro u (digit | zero)
    · exact decimal u digit
    · exact zeros_decimal _ u zero
  obtain ⟨u, rest, split⟩ := List.exists_cons_of_ne_nil nonempty
  have nonzero : u ≠ 0x30 := by simpa [split] using first
  have begins : digits ++ zeros (point.toNat - digits.length) =
      u :: (rest ++ zeros (point.toNat - digits.length)) := congrArg (· ++ zeros _) split
  refine ⟨⟨digits ++ zeros (point.toNat - digits.length), none, none, by simp [nonempty], by simpa using each⟩,
    ?_, ?_, ⟨.inr ⟨u, _, begins, nonzero⟩, by simp⟩⟩
  · rw [layout, if_neg near, if_neg large, if_pos long]
    simp [Numeral.text, Numeral.mantissa, Numeral.tail]
  · intro negative
    have places : (0 : Int) + (point.toNat - digits.length : Nat) = point - digits.length := by omega
    rw [← places, ← toBinary64_pow_ten, ← ofDigits_append_zeros]
    simp [Numeral.value]

theorem lays_point {point : Int} (near : ¬ (point < positional.lowest ∨ positional.highest < point))
    (large : ¬ point ≤ 0) (short : ¬ digits.length ≤ point.toNat) : ∃ n, Lays digits point n := by
  have parts := List.take_append_drop point.toNat digits
  obtain ⟨u, rest, split⟩ := List.exists_cons_of_ne_nil nonempty
  have nonzero : u ≠ 0x30 := by simpa [split] using first
  obtain ⟨k, place⟩ : ∃ k, point.toNat = k + 1 := ⟨point.toNat - 1, by omega⟩
  have behind : digits.drop point.toNat ≠ [] := by simpa [List.drop_eq_nil_iff] using short
  have begins : digits.take point.toNat = u :: rest.take k := by rw [split, place, List.take_succ_cons]
  refine ⟨⟨digits.take point.toNat, some (digits.drop point.toNat), none, ?_, ?_⟩, ?_, ?_,
    ⟨.inr ⟨u, _, begins, nonzero⟩, by simpa using behind⟩⟩
  · rwa [Option.getD_some, parts]
  · rwa [Option.getD_some, parts]
  · rw [layout, if_neg near, if_neg large, if_neg short]
    have mark : ("." : Text) = [0x2E] := rfl
    simp [Numeral.text, Numeral.mantissa, Numeral.tail, mark]
  · intro negative
    have places : 0 - ((digits.drop point.toNat).length : Int) = point - digits.length := by
      rw [List.length_drop]
      omega
    rw [← places]
    simp [Numeral.value, parts]

theorem exists_lays (point : Int) : ∃ n, Lays digits point n := by
  by_cases far : point < positional.lowest ∨ positional.highest < point
  · exact lays_exponent nonempty decimal first far
  by_cases small : point ≤ 0
  · exact lays_leadingZeros nonempty decimal far small
  by_cases long : digits.length ≤ point.toNat
  · exact lays_trailingZeros nonempty decimal first far small long
  · exact lays_point nonempty decimal first far small long

end Layouts

end Decimal

namespace Binary64

variable {m : Nat}

/-- The shortest digits of a number other than zero do not begin with a zero. -/
theorem shortest_first (fits : Representable m) (some : m ≠ 0) :
    (Text.ofNat (Shortest.digits m).digits).head? ≠ Option.some 0x30 := by
  refine Text.ofNat_first fun none => some ?_
  have read := Shortest.digits_toBinary64 fits some
  have nothing : Shortest.digits m = ⟨0, (Shortest.digits m).exponent⟩ := by rw [← none]
  rw [nothing, Decimal.toBinary64_zero, round_unscaled false representable_zero] at read
  exact (Binary64.finite.inj read).2.symm

/-- What is written of a finite number, without its sign, is a numeral that says its magnitude. -/
theorem toText_finite (negative : Bool) (fits : Representable m) :
    ∃ n : Numeral, (finite negative m fits).toText = (if negative && m ≠ 0 then "-" else "") ++ n.text ∧
      n.value.toBinary64 false = .finite false m fits ∧ n.Strict := by
  by_cases zero : m = 0
  · subst zero
    refine ⟨⟨[0x30], none, none, by simp, List.all_eq_true.mp rfl⟩, ?_, ?_, ⟨.inl rfl, by simp⟩⟩
    · have unsigned : (negative && decide ((0 : Nat) ≠ 0)) = false := Bool.and_false negative
      rw [toText, if_pos rfl, unsigned]
      rfl
    · exact (Decimal.toBinary64_zero false 0).trans (round_unscaled false fits)
  · obtain ⟨n, lays⟩ := Decimal.exists_lays (Text.ofNat_ne_nil (Shortest.digits m).digits)
      (Text.ofNat_decimal _) (shortest_first fits zero) ((Shortest.digits m).exponent + (Text.ofNat (Shortest.digits m).digits).length)
    refine ⟨n, ?_, ?_, lays.strict⟩
    · simp [toText, zero, lays.text]
    · rw [lays.value, Decimal.ofDigits_ofNat, Int.add_sub_cancel]
      exact Shortest.digits_toBinary64 fits zero

/-- What is written of a finite number denotes it; both zeros are written alike. -/
theorem ofText_toText {x : Binary64} (finite : x.isFinite = true) :
    ofText x.toText = if x.isZero then zero else x := by
  cases x with
  | nan => cases finite
  | infinite negative => cases finite
  | finite negative m fits =>
    obtain ⟨n, text, said, _⟩ := toText_finite negative fits
    have unsigned : ("" : Text) = [] := rfl
    rw [text]
    by_cases zero : m = 0
    · subst zero
      simp [ofText_text, said, isZero, Binary64.zero, round_unscaled false fits, unsigned]
    · have negated : n.value.toBinary64 true = .finite true m fits := by
        rw [← Bool.not_false, Decimal.toBinary64_neg, said]
        rfl
      cases negative with
      | false => simp [ofText_text, said, isZero, zero, unsigned]
      | true => simp [ofText_minus, negated, isZero, zero]

end Binary64

end Calculator
