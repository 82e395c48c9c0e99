import Calculator.Proofs.Expression.Words
import Calculator.Proofs.Number.Numerals

/-!
How words are spelled. Words of these spellings, written out with white space between any two, are what
the scanner finds again, and it never finds others.
-/
namespace Calculator

/-- Numbers are numerals and names begin with a letter; operators and marks have one text each. -/
def Lexeme.WellSpelled : Lexeme → Prop
  | number raw => ∃ n : Numeral, n.text = raw
  | name text => ∃ u rest, text = u :: rest ∧ Text.isLetter u = true ∧ ∀ v ∈ rest, Text.isWordUnit v = true
  | _ => True

namespace Lexer

theorem digitCount_digits {ds t : Text} (digits : ∀ u ∈ ds, Text.isDigit u = true)
    (ends : t.EndsDigits) : digitCount (ds ++ t) = ds.length := by
  rw [digitCount, Text.takeWhile_digits digits ends]

section Numeral

variable (n : Numeral)

theorem mantissaLength_text : mantissaLength n.text = n.mantissa.length := by
  have whole := digitCount_digits n.whole_decimal n.behind_whole_endsDigits
  have noPoint := n.tail_not_point
  rw [← List.append_assoc] at whole
  rw [mantissaLength, Numeral.text, Numeral.mantissa, whole, List.append_assoc, List.drop_left]
  have digits := n.fraction_decimal
  cases fraction : n.fraction with
  | none =>
    simp only [Option.elim_none, List.nil_append, List.append_nil]
  | some ds =>
    rw [fraction, Option.getD_some] at digits
    simp only [Option.elim_some, List.cons_append, List.length_append, List.length_cons]
    rw [digitCount_digits digits n.tail_endsDigits]
    omega

theorem signLength_text (e : Exponent) : signLength (e.sign ++ e.digits) = e.sign.length := by
  rcases e.signed with unsigned | same | same
  · obtain ⟨u, rest, digits⟩ := List.exists_cons_of_ne_nil e.some
    have first := e.decimal u (by simp [digits])
    have other : ¬ (u = 0x2B ∨ u = 0x2D) := by
      rintro (rfl | rfl) <;> exact absurd first (by decide)
    simp [unsigned, digits, signLength, other]
  · simp [same, signLength]
  · simp [same, signLength]

theorem exponentExtent_tail : exponentExtent n.tail = .whole n.tail.length := by
  rw [Numeral.tail]
  cases n.exponent with
  | none => rfl
  | some e =>
    have digits : digitCount e.digits = e.digits.length := by
      have alone : digitCount (e.digits ++ []) = e.digits.length :=
        digitCount_digits e.decimal fun u first => by cases first
      rwa [List.append_nil] at alone
    have some : e.digits.length ≠ 0 := by simpa using e.some
    simp only [Option.elim_some, Exponent.text, exponentExtent, if_pos e.marked, signLength_text,
      List.drop_left, digits, if_neg some, List.length_cons, List.length_append]
    congr 1
    omega

theorem numberExtent_text : numberExtent n.text = .whole n.text.length := by
  have tail : n.text.drop (mantissaLength n.text) = n.tail := by
    rw [mantissaLength_text, Numeral.text, List.drop_left]
  refine numberExtent_whole_iff.mpr ⟨n.tail.length, ?_, ?_, ?_⟩
  · rw [tail, exponentExtent_tail]
  · rw [mantissaLength_text, Numeral.text, List.length_append]
  · rw [List.drop_length]
    intro u first
    cases first

theorem startsNumber_text : startsNumber n.text = true := by
  obtain ⟨whole, fraction, exponent, some, decimal⟩ := n
  cases whole with
  | cons u rest =>
    have first : Text.isDigit u = true := decimal u (by simp)
    simp [Numeral.text, Numeral.mantissa, startsNumber, first]
  | nil =>
    cases fraction with
    | none => exact (some rfl).elim
    | some ds =>
      obtain ⟨u, rest, rfl⟩ := List.exists_cons_of_ne_nil (l := ds) (by simpa using some)
      have first : Text.isDigit u = true := decimal u (by simp)
      simp [Numeral.text, Numeral.mantissa, startsNumber, first]

end Numeral

theorem exists_exponent {t : Text} {k : Nat} (extent : exponentExtent t = .whole k) :
    ∃ e : Option Exponent, e.elim [] Exponent.text = t.take k := by
  cases t with
  | nil => exact ⟨none, by simp⟩
  | cons u rest =>
    simp only [exponentExtent] at extent
    split at extent
    · rename_i marked
      split at extent
      · cases extent
      rename_i some
      cases extent
      have signed : rest.take (signLength rest) = [] ∨ rest.take (signLength rest) = [0x2B] ∨
          rest.take (signLength rest) = [0x2D] := by
        cases rest with
        | nil => exact .inl rfl
        | cons v rest =>
          simp only [signLength]
          split
          · rename_i sign
            rcases sign with rfl | rfl <;> simp
          · simp
      have digits := List.all_eq_true.mp (List.all_takeWhile (p := Text.isDigit)
        (l := rest.drop (signLength rest)))
      refine ⟨.some ⟨u, rest.take (signLength rest), (rest.drop (signLength rest)).takeWhile Text.isDigit,
        marked, signed, ?_, digits⟩, ?_⟩
      · intro none
        exact some (List.length_eq_zero_iff.mpr none)
      · rw [Option.elim_some, Exponent.text, Nat.add_assoc, Nat.add_comm 1, List.take_succ_cons,
          List.take_add, take_digitCount]
    · cases extent
      exact ⟨none, rfl⟩

theorem exists_mantissa {t : Text} (starts : startsNumber t = true) :
    ∃ (whole : Text) (fraction : Option Text), whole ++ fraction.getD [] ≠ [] ∧
      (∀ u ∈ whole ++ fraction.getD [], Text.isDigit u = true) ∧
      whole ++ fraction.elim [] (0x2E :: ·) = t.take (mantissaLength t) := by
  have decimal : ∀ s : Text, ∀ u ∈ s.takeWhile Text.isDigit, Text.isDigit u = true := fun s =>
    List.all_eq_true.mp List.all_takeWhile
  cases t with
  | nil => cases starts
  | cons u rest =>
    by_cases digit : Text.isDigit u = true
    · have some : (u :: rest).takeWhile Text.isDigit ≠ [] := by simp [digit]
      unfold mantissaLength
      split
      · rename_i behind point
        refine ⟨(u :: rest).takeWhile Text.isDigit, .some (behind.takeWhile Text.isDigit), by simp [some],
          List.forall_mem_append.mpr ⟨decimal _, decimal _⟩, ?_⟩
        rw [Nat.add_assoc, List.take_add, point, Nat.add_comm 1, List.take_succ_cons, take_digitCount,
          take_digitCount]
        rfl
      · refine ⟨(u :: rest).takeWhile Text.isDigit, none, by simp [some], ?_, ?_⟩
        · simpa using decimal (u :: rest)
        · rw [take_digitCount]
          exact List.append_nil _
    · simp only [startsNumber, digit, Bool.false_or, Bool.and_eq_true, beq_iff_eq] at starts
      obtain ⟨rfl, next⟩ := starts
      have some : rest.takeWhile Text.isDigit ≠ [] := by
        cases rest with
        | nil => cases next
        | cons v rest => simp_all
      refine ⟨[], .some (rest.takeWhile Text.isDigit), some, decimal rest, ?_⟩
      have length : mantissaLength (0x2E :: rest) = digitCount rest + 1 := by
        have none : digitCount (0x2E :: rest) = 0 := rfl
        simp [mantissaLength, none, Nat.add_comm]
      rw [length, List.take_succ_cons, take_digitCount]
      rfl

theorem exists_numeral {t : Text} {k : Nat} (starts : startsNumber t = true)
    (extent : numberExtent t = .whole k) : ∃ n : Numeral, n.text = t.take k := by
  obtain ⟨j, exponent, rfl, _⟩ := numberExtent_whole_iff.mp extent
  obtain ⟨e, tail⟩ := exists_exponent exponent
  obtain ⟨whole, fraction, some, decimal, mantissa⟩ := exists_mantissa starts
  refine ⟨⟨whole, fraction, e, some, decimal⟩, ?_⟩
  rw [List.take_add, ← mantissa, ← tail]
  rfl

theorem front_wellSpelled {t : Text} {lexeme : Lexeme} (found : front t = .found lexeme) :
    lexeme.WellSpelled := by
  rcases front_cases found with ⟨k, starts, extent, rfl⟩ | ⟨u, rest, rfl, letter, rfl⟩ | ⟨op, _, rfl⟩ |
    ⟨u, rest, _, mark, _⟩
  · exact exists_numeral starts extent
  · have word : Text.isWordUnit u = true := by simp [Text.isWordUnit, letter]
    refine ⟨u, rest.takeWhile Text.isWordUnit, by simp [word], letter, ?_⟩
    exact List.all_eq_true.mp List.all_takeWhile
  · trivial
  · simp only [marks, List.mem_cons, List.not_mem_nil, or_false] at mark
    rcases mark with rfl | rfl | rfl | rfl | rfl <;> trivial

end Lexer

theorem Numeral.isWord (n : Numeral) : (Lexeme.number n.text).IsWord := by
  have extent := Lexer.numberExtent_text n
  have found := Lexer.front_number (Lexer.startsNumber_text n) extent
  rw [List.take_length] at found
  obtain ⟨u, rest, text, _⟩ := n.begins
  refine ⟨found, by simp [Lexeme.text, text], fun v member => Lexer.number_units extent ?_⟩
  rwa [List.take_length]

theorem Lexeme.WellSpelled.isWord {lexeme : Lexeme} (spelled : lexeme.WellSpelled) : lexeme.IsWord := by
  cases lexeme with
  | number raw =>
    obtain ⟨n, rfl⟩ := spelled
    exact n.isWord
  | name text =>
    obtain ⟨u, rest, rfl, letter, units⟩ := spelled
    have word : Text.isWordUnit u = true := by simp [Text.isWordUnit, letter]
    have whole : rest.takeWhile Text.isWordUnit = rest := by
      have alone : (rest ++ []).takeWhile Text.isWordUnit = rest ++ [].takeWhile Text.isWordUnit :=
        List.takeWhile_append_of_pos units
      simpa using alone
    have found := Lexer.name_split letter rest
    rw [whole] at found
    exact ⟨found, by simp [Lexeme.text], List.forall_mem_cons.mpr ⟨word, units⟩⟩
  | operator op =>
    have alone : (Lexeme.operator op).EndsBefore [] := fun u first => by cases first
    have found := Lexer.front_operator alone
    rw [List.append_nil] at found
    exact ⟨found, by cases op <;> decide, trivial⟩
  | _ => exact .of_mark (by simp [Lexer.marks])

theorem Lexes.wellSpelled {t : Text} {lexemes : List Lexeme} (lexes : Lexes t lexemes) :
    ∀ lexeme ∈ lexemes, lexeme.WellSpelled := by
  induction lexes with
  | nil => simp
  | space _ _ ih => exact ih
  | lexeme _ found _ ih => exact List.forall_mem_cons.mpr ⟨Lexer.front_wellSpelled found, ih⟩

/-- A text of words, each with what stands in front of it, and what stands behind the last. -/
def writeOut (items : List (Text × Lexeme)) (behind : Text) : Text :=
  items.flatMap (fun (gap, lexeme) => gap ++ lexeme.text) ++ behind

/-- White space stands between neighbours, and perhaps in front of the first and behind the last. -/
structure Spaced (items : List (Text × Lexeme)) (behind : Text) : Prop where
  blank : ∀ item ∈ items, ∀ u ∈ item.1, u ∈ (" \t\n\r" : Text)
  between : ∀ item ∈ items.tail, item.1 ≠ []
  last : ∀ u ∈ behind, u ∈ (" \t\n\r" : Text)

theorem Spaced.tail {item : Text × Lexeme} {items : List (Text × Lexeme)} {behind : Text}
    (spaced : Spaced (item :: items) behind) : Spaced items behind :=
  ⟨fun other member => spaced.blank other (List.mem_cons_of_mem item member),
    fun other member => spaced.between other (List.mem_of_mem_tail member), spaced.last⟩

/-- Behind a word there is white space, or nothing. -/
theorem Spaced.behind_blank {item : Text × Lexeme} {items : List (Text × Lexeme)} {behind : Text}
    (spaced : Spaced (item :: items) behind) :
    ∀ u ∈ (writeOut items behind).head?, Lexer.isSpace u = true := by
  intro u first
  rw [Lexer.isSpace_iff]
  cases items with
  | nil => exact spaced.last u (List.mem_of_mem_head? first)
  | cons next rest =>
    obtain ⟨v, gap, nonempty⟩ := List.exists_cons_of_ne_nil (spaced.between next (by simp))
    obtain rfl : v = u := by simpa [writeOut, nonempty] using first
    exact spaced.blank next (by simp) v (by simp [nonempty])

theorem lexes_writeOut {items : List (Text × Lexeme)} {behind : Text} (spaced : Spaced items behind)
    (spelled : ∀ item ∈ items, item.2.WellSpelled) :
    Lexes (writeOut items behind) (items.map Prod.snd) := by
  induction items with
  | nil =>
    have blank : ∀ u ∈ behind, Lexer.isSpace u = true := fun u member =>
      Lexer.isSpace_iff.mpr (spaced.last u member)
    have lexes := Lexes.nil.blanks blank
    rwa [List.append_nil] at lexes
  | cons item rest ih =>
    simp only [List.mem_cons, forall_eq_or_imp] at spelled
    have later := ih spaced.tail spelled.2
    have ends : item.2.EndsBefore (writeOut rest behind) := fun u first =>
      item.2.extendedBy_blank (spaced.behind_blank u first)
    have blank : ∀ u ∈ item.1, Lexer.isSpace u = true := fun u member =>
      Lexer.isSpace_iff.mpr (spaced.blank item (by simp) u member)
    have whole := (later.word spelled.1.isWord ends).blanks blank
    simpa [writeOut] using whole

/-- The scanner finds the words again that a text was written out of, and behind the last of them nothing
but the end of the text. Whatever it finds is spelled as such a word. -/
theorem tokenize_written :
    (∀ (items : List (Text × Lexeme)) (behind : Text), Spaced items behind →
      (∀ item ∈ items, item.2.WellSpelled) →
        ∃ tokens, tokenize (writeOut items behind) = .ok tokens ∧
          tokens.map Token.lexeme = items.map Prod.snd) ∧
    (∀ t tokens, tokenize t = .ok tokens → ∀ token ∈ tokens, token.lexeme.WellSpelled) := by
  constructor
  · intro items behind spaced spelled
    exact lexes_iff.mp (lexes_writeOut spaced spelled)
  · intro t tokens lexed token member
    have lexes := lexes_iff.mpr ⟨tokens, lexed, rfl⟩
    exact lexes.wellSpelled token.lexeme (List.mem_map_of_mem member)

/-- Two stars that stand apart, and a point in front of digits with an exponent behind. -/
theorem stars_and_point_written :
    (Spaced [([], .operator .times), ([0x0A], .operator .times), ([0x09, 0x20], .number ".5e-3")] [0x20] ∧
      (∀ item ∈ [(([] : Text), Lexeme.operator .times), ([0x0A], .operator .times),
        ([0x09, 0x20], .number ".5e-3")], item.2.WellSpelled) ∧
      ∃ tokens, tokenize "*\n*\t .5e-3 " = .ok tokens ∧ tokens.map Token.lexeme =
        [.operator .times, .operator .times, .number ".5e-3"]) ∧
    (tokenize "2.e5(" = .ok [⟨.number "2.e5", 0, 4⟩, ⟨.leftParen, 4, 5⟩] ∧
      (Lexeme.number "2.e5").WellSpelled) := by
  have star : (Lexeme.operator .times).WellSpelled := trivial
  have number : (Lexeme.number ".5e-3").WellSpelled :=
    ⟨⟨[], some "5", some ⟨0x65, "-", "3", by decide, by decide, by decide, List.all_eq_true.mp rfl⟩,
      by decide, List.all_eq_true.mp rfl⟩, rfl⟩
  have blanks : (" \t\n\r" : Text) = [0x20, 0x09, 0x0A, 0x0D] := rfl
  have spaced : Spaced [([], .operator .times), ([0x0A], .operator .times),
      ([0x09, 0x20], .number ".5e-3")] [0x20] := ⟨by simp [blanks], by simp, by simp [blanks]⟩
  have spelled : ∀ item ∈ [(([] : Text), Lexeme.operator .times), ([0x0A], .operator .times),
      ([0x09, 0x20], .number ".5e-3")], item.2.WellSpelled := by
    simp only [List.forall_mem_cons]
    exact ⟨star, star, number, by simp⟩
  have lexed : tokenize "2.e5(" = .ok [⟨.number "2.e5", 0, 4⟩, ⟨.leftParen, 4, 5⟩] := rfl
  exact ⟨⟨spaced, spelled, tokenize_written.1 _ _ spaced spelled⟩, lexed,
    tokenize_written.2 _ _ lexed _ List.mem_cons_self⟩

end Calculator
