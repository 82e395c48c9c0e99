import Calculator.Number.Decimal

/-!
Decimal numerals as they are written, and that they are read for what they say.
-/
namespace Calculator

/-- The exponent part of a numeral: a mark, an optional sign and digits. -/
structure Exponent where
  mark : CodeUnit
  sign : Text
  digits : Text
  marked : mark = 0x65 ∨ mark = 0x45
  signed : sign = [] ∨ sign = [0x2B] ∨ sign = [0x2D]
  some : digits ≠ []
  decimal : ∀ u ∈ digits, Text.isDigit u = true

def Exponent.text (e : Exponent) : Text :=
  e.mark :: (e.sign ++ e.digits)

def Exponent.value (e : Exponent) : Int :=
  if e.sign = [0x2D] then -(Decimal.ofDigits e.digits : Int) else Decimal.ofDigits e.digits

/-- Digits with an optional point among them, before or after, and an optional exponent part. -/
structure Numeral where
  whole : Text
  fraction : Option Text
  exponent : Option Exponent
  some : whole ++ fraction.getD [] ≠ []
  decimal : ∀ u ∈ whole ++ fraction.getD [], Text.isDigit u = true

namespace Numeral

def mantissa (n : Numeral) : Text :=
  n.whole ++ n.fraction.elim [] (0x2E :: ·)

def tail (n : Numeral) : Text :=
  n.exponent.elim [] Exponent.text

def text (n : Numeral) : Text :=
  n.mantissa ++ n.tail

/-- The first digit is a zero only if it is the last before the point, and digits stand on both sides of a
point. -/
structure Strict (n : Numeral) : Prop where
  whole : n.whole = [0x30] ∨ ∃ u rest, n.whole = u :: rest ∧ u ≠ 0x30
  fraction : n.fraction ≠ Option.some []

/-- What the numeral says. -/
def value (n : Numeral) : Decimal :=
  ⟨Decimal.ofDigits (n.whole ++ n.fraction.getD []),
    n.exponent.elim 0 Exponent.value - (n.fraction.getD []).length⟩

end Numeral

namespace Text

/-- The text begins with no digit. -/
def EndsDigits (t : Text) : Prop :=
  ∀ u ∈ t.head?, isDigit u = false

variable {ds t : Text}

theorem takeWhile_digits (digits : ∀ u ∈ ds, isDigit u = true) (ends : t.EndsDigits) :
    (ds ++ t).takeWhile isDigit = ds := by
  rw [List.takeWhile_append_of_pos digits]
  cases t with
  | nil => simp
  | cons u rest => simp [ends u rfl]

theorem dropWhile_digits (digits : ∀ u ∈ ds, isDigit u = true) (ends : t.EndsDigits) :
    (ds ++ t).dropWhile isDigit = t := by
  rw [List.dropWhile_append_of_pos digits]
  cases t with
  | nil => rfl
  | cons u rest => simp [ends u rfl]

end Text

theorem Exponent.unmarked (e : Exponent) : Text.isDigit e.mark = false ∧ e.mark ≠ 0x2E := by
  rcases e.marked with same | same <;> rw [same] <;> decide

namespace Numeral

variable (n : Numeral)

theorem tail_endsDigits : n.tail.EndsDigits := by
  obtain ⟨whole, fraction, exponent, some, decimal⟩ := n
  intro u first
  cases exponent with
  | none => cases first
  | some e =>
    obtain rfl : e.mark = u := by simpa [tail, Exponent.text] using first
    exact e.unmarked.1

theorem tail_not_point (rest : Text) : n.tail ≠ 0x2E :: rest := by
  obtain ⟨whole, fraction, exponent, some, decimal⟩ := n
  cases exponent with
  | none => exact (List.cons_ne_nil _ _).symm
  | some e =>
    intro same
    exact e.unmarked.2 (List.cons.inj same).1

theorem whole_decimal : ∀ u ∈ n.whole, Text.isDigit u = true := fun u member =>
  n.decimal u (List.mem_append_left _ member)

theorem fraction_decimal : ∀ u ∈ n.fraction.getD [], Text.isDigit u = true := fun u member =>
  n.decimal u (List.mem_append_right _ member)

/-- Behind the whole digits stands the point, or what stands behind all digits. -/
theorem behind_whole_endsDigits : Text.EndsDigits (n.fraction.elim [] (0x2E :: ·) ++ n.tail) := by
  cases n.fraction with
  | none => exact n.tail_endsDigits
  | some ds =>
    intro u first
    obtain rfl : 0x2E = u := by simpa using first
    rfl

end Numeral

namespace Decimal

theorem readExponent_text (e : Exponent) : readExponent? e.text = some e.value := by
  obtain ⟨mark, sign, digits, marked, signed, some, decimal⟩ := e
  rcases signed with rfl | rfl | rfl
  · -- without a sign the first unit is a digit
    obtain ⟨u, rest, rfl⟩ := List.exists_cons_of_ne_nil some
    have first := decimal u (by simp)
    have unsigned : u ≠ 0x2D ∧ u ≠ 0x2B := by
      constructor <;> rintro rfl <;> exact absurd first (by decide)
    simpa [Exponent.text, Exponent.value, readExponent?, marked, unsigned] using decimal
  · simpa [Exponent.text, Exponent.value, readExponent?, marked, some] using decimal
  · simpa [Exponent.text, Exponent.value, readExponent?, marked, some] using decimal

theorem read_text (n : Numeral) : read? n.text = some n.value := by
  have whole := Text.takeWhile_digits n.whole_decimal n.behind_whole_endsDigits
  have rest := Text.dropWhile_digits n.whole_decimal n.behind_whole_endsDigits
  have ends := n.tail_endsDigits
  have noPoint := n.tail_not_point
  have exponent : readExponent? n.tail = some (n.exponent.elim 0 Exponent.value) := by
    rw [Numeral.tail]
    cases n.exponent with
    | none => rfl
    | some e => exact readExponent_text e
  rw [← List.append_assoc] at whole rest
  have some := n.some
  have digits := n.fraction_decimal
  rw [read?, Numeral.text, Numeral.mantissa, Numeral.value]
  simp only [whole, rest]
  cases fraction : n.fraction with
  | none =>
    simp only [fraction, Option.elim_none, Option.getD_none, List.append_nil, List.nil_append] at some ⊢
    rw [if_neg fun empty => some empty.1, exponent]
    rfl
  | some ds =>
    simp only [fraction, Option.elim_some, Option.getD_some, List.cons_append] at some digits ⊢
    have other : ¬ (n.whole = [] ∧ ds = []) := by simpa using some
    rw [Text.takeWhile_digits digits ends, Text.dropWhile_digits digits ends, if_neg other, exponent]
    rfl

end Decimal

namespace Numeral

variable (n : Numeral)

theorem units {u : CodeUnit} (member : u ∈ n.text) :
    Text.isDigit u = true ∨ u ∈ (".eE+-" : Text) := by
  obtain ⟨whole, fraction, exponent, some, decimal⟩ := n
  simp only [text, mantissa, tail, List.mem_append] at member
  rcases member with (inWhole | inFraction) | inExponent
  · exact .inl (decimal u (by simp [inWhole]))
  · cases fraction with
    | none => cases inFraction
    | some ds =>
      rcases List.mem_cons.mp inFraction with rfl | digit
      · exact .inr (by decide)
      · exact .inl (decimal u (by simp [digit]))
  · cases exponent with
    | none => cases inExponent
    | some e =>
      simp only [Option.elim_some, Exponent.text, List.mem_cons, List.mem_append] at inExponent
      rcases inExponent with rfl | sign | digit
      · rcases e.marked with same | same <;> exact .inr (by rw [same]; decide)
      · rcases e.signed with same | same | same <;> rw [same] at sign
        · cases sign
        · exact .inr (by rw [List.mem_singleton.mp sign]; decide)
        · exact .inr (by rw [List.mem_singleton.mp sign]; decide)
      · exact .inl (e.decimal u digit)

/-- A numeral has no sign in front. -/
theorem begins : ∃ u rest, n.text = u :: rest ∧ (Text.isDigit u = true ∨ u = 0x2E) := by
  obtain ⟨whole, fraction, exponent, some, decimal⟩ := n
  cases whole with
  | cons u rest => exact ⟨u, _, rfl, .inl (decimal u (by simp))⟩
  | nil =>
    cases fraction with
    | none => exact (some rfl).elim
    | some ds => exact ⟨0x2E, _, rfl, .inr rfl⟩

end Numeral

theorem Text.isDigit_iff {u : CodeUnit} : isDigit u = true ↔ 0x30 ≤ u.toNat ∧ u.toNat ≤ 0x39 := by
  simp [isDigit, UInt16.le_iff_toNat_le]

theorem Text.trim_eq_self {t : Text} (visible : ∀ u ∈ t, isBlank u = false) : t.trim = t := by
  have kept : ∀ {s : Text}, (∀ u ∈ s, isBlank u = false) → s.dropWhile isBlank = s := by
    intro s visible
    cases s with
    | nil => rfl
    | cons u rest => simp [visible u (by simp)]
  rw [trim, trimStart, kept visible, trimEnd, kept (by simpa using visible), List.reverse_reverse]

theorem Text.isBlank_digit {u : CodeUnit} (digit : isDigit u = true) : isBlank u = false := by
  obtain ⟨low, high⟩ := isDigit_iff.mp digit
  have other : ∀ v : CodeUnit, v.toNat < 0x30 ∨ 0x39 < v.toNat → (u == v) = false := by
    intro v outside
    refine beq_eq_false_iff_ne.mpr ?_
    rintro rfl
    omega
  have below : ¬ u ≤ 0x0D := by
    rw [UInt16.le_iff_toNat_le]
    show ¬ u.toNat ≤ 0x0D
    omega
  have above : ¬ 0x2000 ≤ u := by
    rw [UInt16.le_iff_toNat_le]
    show ¬ 0x2000 ≤ u.toNat
    omega
  simp [isBlank, below, above, other]

theorem Numeral.visible (n : Numeral) : ∀ u ∈ n.text, Text.isBlank u = false := by
  intro u member
  rcases n.units member with digit | sign
  · exact Text.isBlank_digit digit
  · have signs : (".eE+-" : Text) = [0x2E, 0x65, 0x45, 0x2B, 0x2D] := rfl
    simp only [signs, List.mem_cons, List.not_mem_nil, or_false] at sign
    rcases sign with rfl | rfl | rfl | rfl | rfl <;> rfl

namespace Binary64

theorem readTrimmed_unsigned {t : Text} (unsigned : ∀ u ∈ t.head?, u ≠ 0x2D ∧ u ≠ 0x2B)
    (unmarked : ∀ u ∈ t, u ∉ ("xXoObB" : Text)) : readTrimmed? t = readUnsigned? false t := by
  unfold readTrimmed?
  split
  · exact ((unsigned _ rfl).1 rfl).elim
  · exact ((unsigned _ rfl).2 rfl).elim
  · rename_i u rest
    have marks : ("xXoObB" : Text) = [0x78, 0x58, 0x6F, 0x4F, 0x62, 0x42] := rfl
    have plain := unmarked u (by simp)
    simp only [marks, List.mem_cons, List.not_mem_nil, or_false, not_or] at plain
    simp [plain]
  · rfl

theorem readUnsigned_text (negative : Bool) (n : Numeral) :
    readUnsigned? negative n.text = some (n.value.toBinary64 negative) := by
  obtain ⟨u, rest, text, first⟩ := n.begins
  have named : n.text ≠ "Infinity" := by
    intro same
    obtain rfl : u = 0x49 := (List.cons.inj (text.symm.trans same)).1
    exact absurd first (by decide)
  rw [readUnsigned?, if_neg named, Decimal.read_text]
  rfl

/-- Numerals are read as decimals: they have no sign and no mark of another base. -/
theorem readTrimmed_text (n : Numeral) : readTrimmed? n.text = some (n.value.toBinary64 false) := by
  have unmarked : ∀ u ∈ n.text, u ∉ ("xXoObB" : Text) := by
    intro u member mark
    have marks : ("xXoObB" : Text) = [0x78, 0x58, 0x6F, 0x4F, 0x62, 0x42] := rfl
    have neither : ¬ (Text.isDigit u = true ∨ u ∈ (".eE+-" : Text)) := by
      simp only [marks, List.mem_cons, List.not_mem_nil, or_false] at mark
      rcases mark with rfl | rfl | rfl | rfl | rfl | rfl <;> decide
    exact neither (n.units member)
  obtain ⟨u, rest, text, first⟩ := n.begins
  have unsigned : ∀ v ∈ n.text.head?, v ≠ 0x2D ∧ v ≠ 0x2B := by
    intro v member
    obtain rfl : u = v := by simpa [text] using member
    constructor <;> rintro rfl <;> exact absurd first (by decide)
  rw [readTrimmed_unsigned unsigned unmarked, readUnsigned_text]

theorem ofText_text (n : Numeral) : ofText n.text = n.value.toBinary64 false := by
  have some : n.text ≠ [] := by
    obtain ⟨u, rest, text, _⟩ := n.begins
    simp [text]
  rw [ofText, Text.trim_eq_self n.visible, if_neg some, readTrimmed_text]
  rfl

/-- A minus sign in front is read as the sign of the number. -/
theorem ofText_minus (n : Numeral) : ofText ("-" ++ n.text) = n.value.toBinary64 true := by
  have visible : ∀ u ∈ 0x2D :: n.text, Text.isBlank u = false := by
    simp only [List.mem_cons, forall_eq_or_imp]
    exact ⟨rfl, n.visible⟩
  have minus : ("-" ++ n.text : Text) = 0x2D :: n.text := rfl
  rw [minus, ofText, Text.trim_eq_self visible, if_neg (List.cons_ne_nil _ _)]
  show (readUnsigned? true n.text).getD nan = _
  rw [readUnsigned_text]
  rfl

end Binary64

end Calculator
