import Calculator.Expression.Lexer

/-!
What the scanner cuts from a text: every token is a stretch of the text with an extent of its own,
tokens follow each other without overlap, and what is no token has an extent as well.
-/
namespace Calculator

/-- Tokens one after the other, each with an extent of its own, between two offsets. -/
def Ordered (low high : Nat) : List Token → Prop
  | [] => True
  | token :: rest =>
    low ≤ token.range.start ∧ token.range.start < token.range.stop ∧ token.range.stop ≤ high ∧
      Ordered token.range.stop high rest

theorem Ordered.mono {low low' high high' : Nat} {tokens : List Token}
    (ordered : Ordered low high tokens) (lower : low' ≤ low) (higher : high ≤ high') :
    Ordered low' high' tokens := by
  induction tokens generalizing low low' with
  | nil => trivial
  | cons token rest ih =>
    obtain ⟨first, extent, last, behind⟩ := ordered
    exact ⟨by omega, extent, by omega, ih behind (Nat.le_refl _)⟩

/-- A token parts the tokens before it from those behind it. -/
theorem Ordered.split {low high : Nat} {before behind : List Token} {token : Token}
    (ordered : Ordered low high (before ++ token :: behind)) :
    low ≤ token.range.start ∧ token.range.start < token.range.stop ∧ token.range.stop ≤ high ∧
      Ordered low token.range.start before ∧ Ordered token.range.stop high behind := by
  induction before generalizing low with
  | nil =>
    obtain ⟨first, extent, last, rest⟩ := ordered
    exact ⟨first, extent, last, trivial, rest⟩
  | cons head before ih =>
    obtain ⟨first, extent, last, rest⟩ := ordered
    obtain ⟨after, extent', last', inside, rest'⟩ := ih rest
    exact ⟨by omega, extent', last', ⟨first, extent, after, inside⟩, rest'⟩

theorem Ordered.mem {low high : Nat} {tokens : List Token} {token : Token}
    (ordered : Ordered low high tokens) (member : token ∈ tokens) :
    low ≤ token.range.start ∧ token.range.start < token.range.stop ∧ token.range.stop ≤ high := by
  obtain ⟨before, behind, rfl⟩ := List.append_of_mem member
  obtain ⟨first, extent, last, _⟩ := ordered.split
  exact ⟨first, extent, last⟩

namespace Lexer

theorem digitCount_le (t : Text) : digitCount t ≤ t.length :=
  (List.takeWhile_prefix _).length_le

theorem mantissaLength_le (t : Text) : mantissaLength t ≤ t.length := by
  have whole := digitCount_le t
  unfold mantissaLength
  split
  · rename_i rest point
    have fraction := digitCount_le rest
    have length := congrArg List.length point
    simp only [List.length_drop, List.length_cons] at length
    omega
  · exact whole

theorem signLength_le (t : Text) : signLength t ≤ t.length := by
  cases t with
  | nil => exact Nat.le_refl 0
  | cons u rest =>
    simp only [signLength, List.length_cons]
    split <;> omega

def Extent.length : Extent → Nat
  | whole n => n
  | malformed n => n

theorem exponentExtent_le (t : Text) : (exponentExtent t).length ≤ t.length := by
  cases t with
  | nil => exact Nat.le_refl 0
  | cons u rest =>
    have sign := signLength_le rest
    have digits := digitCount_le (rest.drop (signLength rest))
    simp only [List.length_drop] at digits
    simp only [exponentExtent, List.length_cons]
    split
    · split <;> simp only [Extent.length] <;> omega
    · exact Nat.zero_le _

theorem numberExtent_le (t : Text) : (numberExtent t).length ≤ t.length := by
  have mantissa := mantissaLength_le t
  have exponent := exponentExtent_le (t.drop (mantissaLength t))
  simp only [numberExtent]
  split
  · rename_i n same
    simp only [same, Extent.length, List.length_drop] at exponent ⊢
    omega
  · rename_i n same
    simp only [same, Extent.length, List.length_drop] at exponent
    have tail := (List.takeWhile_prefix (l := t.drop (mantissaLength t + n)) continuesNumber).length_le
    simp only [List.length_drop] at tail
    split <;> simp only [Extent.length] <;> omega

theorem digitCount_pos {u : CodeUnit} {rest : Text} (digit : Text.isDigit u) :
    1 ≤ digitCount (u :: rest) := by
  simp [digitCount, digit]

theorem mantissaLength_pos {t : Text} (starts : startsNumber t) : 1 ≤ mantissaLength t := by
  cases t with
  | nil => simp [startsNumber] at starts
  | cons u rest =>
    by_cases digit : Text.isDigit u
    · have positive : 1 ≤ digitCount (u :: rest) := digitCount_pos digit
      unfold mantissaLength
      split <;> omega
    · simp only [startsNumber, digit, Bool.false_or, Bool.and_eq_true, beq_iff_eq] at starts
      obtain ⟨rfl, _⟩ := starts
      have none : digitCount (0x2E :: rest) = 0 := rfl
      simp [mantissaLength, none]

theorem numberExtent_pos {t : Text} (starts : startsNumber t) : 1 ≤ (numberExtent t).length := by
  have mantissa := mantissaLength_pos starts
  simp only [numberExtent]
  split
  · simp only [Extent.length]
    omega
  · split <;> simp only [Extent.length] <;> omega

theorem operator_text {t : Text} {op : Operator} (found : operator? t = some op) :
    op.symbol <+: t ∧ op.symbol ≠ [] := by
  have isPrefix := List.find?_some found
  exact ⟨List.isPrefixOf_iff_prefix.mp isPrefix, by cases op <;> decide⟩

theorem punctuation_text {u : CodeUnit} {lexeme : Lexeme} (found : punctuation? u = some lexeme) :
    lexeme.text = [u] := by
  unfold punctuation? at found
  repeat' split at found
  all_goals cases found <;> subst_vars <;> rfl

theorem front_found {t : Text} {lexeme : Lexeme} (nonempty : t ≠ []) (found : front t = .found lexeme) :
    lexeme.text <+: t ∧ lexeme.text ≠ [] := by
  unfold front at found
  split at found
  · rename_i starts
    have positive := numberExtent_pos starts
    split at found
    · rename_i n extent
      cases found
      refine ⟨List.take_prefix n t, ?_⟩
      simp only [extent, Extent.length] at positive
      simp only [Lexeme.text, ne_eq, List.take_eq_nil_iff, nonempty, or_false]
      omega
    · cases found
  split at found
  · rename_i letter
    cases found
    refine ⟨List.takeWhile_prefix _, ?_⟩
    cases t with
    | nil => contradiction
    | cons u rest =>
      simp only [List.head?_cons, Option.map_some, Option.getD_some] at letter
      simp [Lexeme.text, Text.isWordUnit, letter]
  split at found
  · rename_i op symbol
    cases found
    exact operator_text symbol
  split at found
  · rename_i mark
    cases found
    cases t with
    | nil => contradiction
    | cons u rest =>
      rw [punctuation_text mark]
      exact ⟨⟨rest, rfl⟩, by simp⟩
  · cases found

theorem front_wrong {t : Text} {cause : LexicalCause} {n : Nat} (nonempty : t ≠ [])
    (wrong : front t = .wrong cause n) : 1 ≤ n ∧ n ≤ t.length := by
  unfold front at wrong
  split at wrong
  · rename_i starts
    have positive := numberExtent_pos starts
    have bound := numberExtent_le t
    split at wrong
    · cases wrong
    · rename_i extent
      cases wrong
      simp only [extent, Extent.length] at positive bound
      exact ⟨positive, bound⟩
  split at wrong
  · cases wrong
  split at wrong
  · cases wrong
  split at wrong
  · cases wrong
  · cases wrong
    exact ⟨Nat.le_refl 1, List.length_pos_iff.mpr nonempty⟩

theorem scan_ordered {start passing : Nat} {t : Text} {tokens : List Token}
    (run : scan start passing t = .ok tokens) :
    Ordered (start + passing) (start + t.length) tokens := by
  induction t generalizing start passing tokens with
  | nil =>
    simp only [scan, Except.ok.injEq] at run
    subst run
    trivial
  | cons u rest ih =>
    cases passing with
    | succ passing =>
      simp only [scan] at run
      exact (ih run).mono (by omega) (by simp only [List.length_cons]; omega)
    | zero =>
      simp only [scan] at run
      split at run
      · exact (ih run).mono (by omega) (by simp only [List.length_cons]; omega)
      split at run
      · cases run
      rename_i lexeme found
      obtain ⟨isPrefix, nonempty⟩ := front_found (by simp) found
      have extent := List.length_pos_iff.mpr nonempty
      have bound := isPrefix.length_le
      split at run
      · rename_i more behind
        cases run
        simp only [List.length_cons] at bound ⊢
        refine ⟨Nat.le_refl _, by simp only; omega, by simp only; omega, ?_⟩
        exact (ih behind).mono (by simp only; omega) (by omega)
      · cases run

theorem scan_error {start passing : Nat} {t : Text} {e : LexicalError}
    (run : scan start passing t = .error e) :
    start + passing ≤ e.range.start ∧ e.range.start < e.range.stop ∧
      e.range.stop ≤ start + t.length := by
  induction t generalizing start passing with
  | nil => cases run
  | cons u rest ih =>
    simp only [List.length_cons]
    cases passing with
    | succ passing =>
      simp only [scan] at run
      have := ih run
      omega
    | zero =>
      simp only [scan] at run
      split at run
      · have := ih run
        omega
      split at run
      · rename_i cause n wrong
        cases run
        have extent := front_wrong (by simp) wrong
        simp only [List.length_cons] at extent ⊢
        omega
      split at run
      · cases run
      · rename_i behind
        cases run
        have := ih behind
        omega

end Lexer

theorem tokenize_ordered {t : Text} {tokens : List Token} (run : tokenize t = .ok tokens) :
    Ordered 0 t.length tokens := by
  simpa using Lexer.scan_ordered run

theorem tokenize_error {t : Text} {e : LexicalError} (run : tokenize t = .error e) :
    e.range.start < e.range.stop ∧ e.range.stop ≤ t.length := by
  simpa using (Lexer.scan_error run).2

end Calculator
