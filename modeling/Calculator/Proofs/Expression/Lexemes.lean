import Calculator.Proofs.Expression.Lexing

/-!
The words of a text, their places left aside. Texts can be joined where the second begins with a unit
that no word draws in: the words of the whole are then those of the two parts.
-/
namespace Calculator

/-- A text falls into the given words, white space between them aside. -/
inductive Lexes : Text → List Lexeme → Prop where
  | nil : Lexes [] []
  | space {u : CodeUnit} {t : Text} {lexemes : List Lexeme} (blank : Lexer.isSpace u = true)
    (rest : Lexes t lexemes) : Lexes (u :: t) lexemes
  | lexeme {u : CodeUnit} {t : Text} {first : Lexeme} {lexemes : List Lexeme}
    (visible : Lexer.isSpace u = false) (found : Lexer.front (u :: t) = .found first)
    (rest : Lexes ((u :: t).drop first.text.length) lexemes) : Lexes (u :: t) (first :: lexemes)

namespace Lexer

theorem scan_passing (start passing : Nat) (t : Text) :
    scan start passing t = scan (start + passing) 0 (t.drop passing) := by
  induction passing generalizing start t with
  | zero => rfl
  | succ passing ih =>
    cases t with
    | nil => simp [scan]
    | cons u rest =>
      rw [scan, ih, List.drop_succ_cons]
      congr 1
      omega

/-- Behind the first unit of a word the scan goes on where the word ends. -/
theorem scan_behind {start : Nat} {u : CodeUnit} {rest : Text} {lexeme : Lexeme}
    (found : front (u :: rest) = .found lexeme) :
    scan (start + 1) (lexeme.text.length - 1) rest =
      scan (start + lexeme.text.length) 0 ((u :: rest).drop lexeme.text.length) := by
  have extent := List.length_pos_iff.mpr (front_found (by simp) found).2
  obtain ⟨n, length⟩ : ∃ n, lexeme.text.length = n + 1 := ⟨_, (Nat.sub_add_cancel extent).symm⟩
  rw [length, Nat.add_sub_cancel, scan_passing, List.drop_succ_cons]
  congr 1
  omega

theorem lexes_of_scan {start : Nat} {t : Text} {tokens : List Token}
    (run : scan start 0 t = .ok tokens) : Lexes t (tokens.map Token.lexeme) := by
  -- on the length of what is left, since a word takes several units at once
  induction length : t.length using Nat.strongRecOn generalizing start t tokens with
  | ind n ih =>
    cases t with
    | nil =>
      cases run
      exact .nil
    | cons u rest =>
      simp only [scan] at run
      split at run
      · rename_i blank
        exact .space blank (ih rest.length (by simp [← length]) run rfl)
      rename_i visible
      split at run
      · cases run
      rename_i lexeme found
      rw [scan_behind found] at run
      split at run
      · rename_i more behind
        cases run
        have extent := List.length_pos_iff.mpr (front_found (by simp) found).2
        have shorter : ((u :: rest).drop lexeme.text.length).length < n := by
          simp only [List.length_drop, List.length_cons] at length ⊢
          omega
        exact .lexeme (by simpa using visible) found (ih _ shorter behind rfl)
      · cases run

theorem scan_of_lexes {t : Text} {lexemes : List Lexeme} (lexes : Lexes t lexemes) (start : Nat) :
    ∃ tokens, scan start 0 t = .ok tokens ∧ tokens.map Token.lexeme = lexemes := by
  induction lexes generalizing start with
  | nil => exact ⟨[], rfl, rfl⟩
  | space blank _ ih =>
    obtain ⟨tokens, run, same⟩ := ih (start + 1)
    exact ⟨tokens, by simp [scan, blank, run], same⟩
  | @lexeme u t first lexemes visible found _ ih =>
    obtain ⟨tokens, run, same⟩ := ih (start + first.text.length)
    rw [← scan_behind found] at run
    exact ⟨⟨first, start, start + first.text.length⟩ :: tokens, by simp [scan, visible, found, run],
      by simp [same]⟩

end Lexer

theorem lexes_iff {t : Text} {lexemes : List Lexeme} :
    Lexes t lexemes ↔ ∃ tokens, tokenize t = .ok tokens ∧ tokens.map Token.lexeme = lexemes := by
  constructor
  · intro lexes
    exact Lexer.scan_of_lexes lexes 0
  · rintro ⟨tokens, run, rfl⟩
    exact Lexer.lexes_of_scan run

namespace Lexer

/-- Units that no word draws in from behind: none of a number or name, no sign of an exponent, and no
second unit of an operator. -/
def isPart (u : CodeUnit) : Bool :=
  continuesNumber u || u == 0x2B || u == 0x2D || u == 0x2A || u == 0x2F

end Lexer

/-- Nothing of the text belongs to a number or name that ends in front of it. -/
def Unfused (t : Text) : Prop :=
  ∀ u ∈ t.head?, Lexer.continuesNumber u = false

namespace Unfused

variable {t : Text}

theorem not_word (unfused : Unfused t) : ∀ u ∈ t.head?, Text.isWordUnit u = false := by
  intro u member
  have continues := unfused u member
  simp only [Lexer.continuesNumber, Bool.or_eq_false_iff] at continues
  exact continues.2

theorem not_digit (unfused : Unfused t) : ∀ u ∈ t.head?, Text.isDigit u = false := by
  intro u member
  have word := unfused.not_word u member
  simp only [Text.isWordUnit, Bool.or_eq_false_iff] at word
  exact word.1.2

end Unfused

/-- Nothing of the text belongs to a word that ends in front of it. -/
def Parted (t : Text) : Prop :=
  ∀ u ∈ t.head?, Lexer.isPart u = false

theorem Parted.unfused {t : Text} (parted : Parted t) : Unfused t := by
  intro u member
  have part := parted u member
  simp only [Lexer.isPart, Bool.or_eq_false_iff] at part
  exact part.1.1.1.1

namespace Lexer

variable {s t : Text}

/-- What is taken from the front of a text stays the same when a text follows that begins otherwise. -/
theorem takeWhile_append_stop {p : CodeUnit → Bool} (s : Text) (stops : ∀ u ∈ t.head?, p u = false) :
    (s ++ t).takeWhile p = s.takeWhile p := by
  have none : t.takeWhile p = [] := by
    cases t with
    | nil => rfl
    | cons u rest => simp [stops u (by simp)]
  induction s with
  | nil => simpa using none
  | cons u rest ih => cases holds : p u <;> simp [holds, ih]

theorem digitCount_append (s : Text) (unfused : Unfused t) : digitCount (s ++ t) = digitCount s := by
  unfold digitCount
  rw [takeWhile_append_stop s unfused.not_digit]

theorem mantissaLength_append (s : Text) (unfused : Unfused t) :
    mantissaLength (s ++ t) = mantissaLength s := by
  have inside : (s ++ t).drop (digitCount s) = s.drop (digitCount s) ++ t :=
    List.drop_append_of_le_length (digitCount_le s)
  unfold mantissaLength
  rw [digitCount_append s unfused, inside]
  cases behind : s.drop (digitCount s) with
  | nil =>
    cases t with
    | nil => rfl
    | cons u rest =>
      have continues := unfused u (by simp)
      have point : u ≠ 0x2E := by
        rintro rfl
        cases continues
      simp [point]
  | cons u rest =>
    by_cases point : u = 0x2E
    · subst point
      simp [digitCount_append rest unfused]
    · simp [point]

theorem signLength_append (s : Text) (parted : Parted t) : signLength (s ++ t) = signLength s := by
  cases s with
  | cons u rest => rfl
  | nil =>
    cases t with
    | nil => rfl
    | cons u rest =>
      have part := parted u (by simp)
      have sign : ¬ (u = 0x2B ∨ u = 0x2D) := by
        rintro (rfl | rfl) <;> cases part
      simp [signLength, sign]

theorem exponentExtent_append (s : Text) (parted : Parted t) :
    exponentExtent (s ++ t) = exponentExtent s := by
  cases s with
  | nil =>
    cases t with
    | nil => rfl
    | cons u rest =>
      have word := parted.unfused.not_word u (by simp)
      have mark : ¬ (u = 0x65 ∨ u = 0x45) := by
        rintro (rfl | rfl) <;> cases word
      simp [exponentExtent, mark]
  | cons u rest =>
    have inside : (rest ++ t).drop (signLength rest) = rest.drop (signLength rest) ++ t :=
      List.drop_append_of_le_length (signLength_le rest)
    simp only [exponentExtent, List.cons_append, signLength_append rest parted, inside,
      digitCount_append _ parted.unfused]

theorem numberExtent_append (s : Text) (parted : Parted t) :
    numberExtent (s ++ t) = numberExtent s := by
  have mantissa : (s ++ t).drop (mantissaLength s) = s.drop (mantissaLength s) ++ t :=
    List.drop_append_of_le_length (mantissaLength_le s)
  simp only [numberExtent, mantissaLength_append s parted.unfused, mantissa, exponentExtent_append _ parted]
  cases extent : exponentExtent (s.drop (mantissaLength s)) with
  | malformed n => rfl
  | whole n =>
    have bound := exponentExtent_le (s.drop (mantissaLength s))
    have mantissa := mantissaLength_le s
    simp only [extent, Extent.length, List.length_drop] at bound
    have inside : (s ++ t).drop (mantissaLength s + n) = s.drop (mantissaLength s + n) ++ t :=
      List.drop_append_of_le_length (by omega)
    simp only [inside, takeWhile_append_stop _ parted.unfused]

theorem startsNumber_append (nonempty : s ≠ []) (unfused : Unfused t) :
    startsNumber (s ++ t) = startsNumber s := by
  cases s with
  | nil => contradiction
  | cons u rest =>
    cases rest with
    | cons v rest => rfl
    | nil =>
      cases t with
      | nil => rfl
      | cons v rest =>
        have digit := unfused.not_digit v (by simp)
        simp [startsNumber, digit]

theorem operator_append (nonempty : s ≠ []) (parted : Parted t) : operator? (s ++ t) = operator? s := by
  have same : ∀ op : Operator, op.symbol.isPrefixOf (s ++ t) = op.symbol.isPrefixOf s := by
    intro op
    cases s with
    | nil => contradiction
    | cons u rest =>
      cases rest with
      | cons v rest => cases op <;> simp [Operator.symbol, Text.ofString, Text.ofChar, List.isPrefixOf]
      | nil =>
        cases t with
        | nil => rfl
        | cons v rest =>
          have part := parted v (by simp)
          have star : v ≠ 0x2A := by
            rintro rfl
            cases part
          have stroke : v ≠ 0x2F := by
            rintro rfl
            cases part
          cases op <;>
            simp [Operator.symbol, Text.ofString, Text.ofChar, List.isPrefixOf, star.symm, stroke.symm]
  simp only [operator?, same]

/-- The word at the front of a text is the same whatever follows that begins with no part of a word. -/
theorem front_append (nonempty : s ≠ []) (parted : Parted t) : front (s ++ t) = front s := by
  have head : (s ++ t).head? = s.head? := by
    cases s with
    | nil => contradiction
    | cons u rest => rfl
  have unit : (s ++ t).headD 0 = s.headD 0 := by simp [List.headD_eq_head?_getD, head]
  have bound := numberExtent_le s
  unfold front
  rw [startsNumber_append nonempty parted.unfused, numberExtent_append s parted,
    operator_append nonempty parted, head, unit, takeWhile_append_stop s parted.unfused.not_word]
  cases extent : numberExtent s with
  | whole n =>
    simp only [extent, Extent.length] at bound
    simp [List.take_append_of_le_length bound]
  | malformed n =>
    simp only [extent, Extent.length] at bound
    simp [List.take_append_of_le_length bound]

end Lexer

/-- Joining texts joins their words, if nothing at the front of the second belongs to the first. -/
theorem Lexes.append {s t : Text} {first second : List Lexeme} (left : Lexes s first)
    (right : Lexes t second) (parted : Parted t) : Lexes (s ++ t) (first ++ second) := by
  induction left with
  | nil => exact right
  | space blank _ ih => exact .space blank ih
  | @lexeme u s lexeme lexemes visible found _ ih =>
    have inside := (Lexer.front_found (by simp) found).1.length_le
    have same : Lexer.front (u :: s ++ t) = .found lexeme := by
      rw [Lexer.front_append (by simp) parted, found]
    rw [← List.drop_append_of_le_length inside] at ih
    exact .lexeme visible same ih

end Calculator
