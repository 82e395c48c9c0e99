import Calculator.Proofs.Expression.Munch

/-!
A text as words with white space between them. A word stands for itself wherever it is put in front of a
text that does not belong to it.
-/
namespace Calculator

theorem Lexer.isSpace_iff {u : CodeUnit} : isSpace u = true ↔ u ∈ (" \t\n\r" : Text) := by
  have blanks : (" \t\n\r" : Text) = [0x20, 0x09, 0x0A, 0x0D] := rfl
  simp [blanks, isSpace, or_assoc]

theorem Lexer.space_cases {u : CodeUnit} (blank : isSpace u = true) :
    u = 0x20 ∨ u = 0x09 ∨ u = 0x0A ∨ u = 0x0D := by
  simpa [isSpace, or_assoc] using blank

namespace Lexeme

theorem extendedBy_blank (lexeme : Lexeme) {u : CodeUnit} (blank : Lexer.isSpace u = true) :
    lexeme.extendedBy u = false := by
  cases lexeme with
  | operator op => rcases Lexer.space_cases blank with rfl | rfl | rfl | rfl <;> cases op <;> rfl
  | _ => rcases Lexer.space_cases blank with rfl | rfl | rfl | rfl <;> rfl

/-- The word is what the scanner finds in its text. -/
structure IsWord (lexeme : Lexeme) : Prop where
  found : Lexer.front lexeme.text = .found lexeme
  nonempty : lexeme.text ≠ []
  spelled : lexeme.Spelled

/-- A unit of neither numbers nor names stands in operators and marks only. -/
theorem Spelled.of_sign {lexeme : Lexeme} (spelled : lexeme.Spelled) {u : CodeUnit}
    (number : Lexer.isNumberUnit u = false) (name : Text.isWordUnit u = false)
    (member : u ∈ lexeme.text) {P : Lexeme → Prop}
    (operators : ∀ op : Operator, u ∈ op.symbol → P (.operator op))
    (marks : ∀ mark ∈ Lexer.marks, u ∈ mark.text → P mark) : P lexeme := by
  cases lexeme with
  | number raw =>
    have unit := spelled u member
    rw [number] at unit
    cases unit
  | name text =>
    have unit := spelled u member
    rw [name] at unit
    cases unit
  | operator op => exact operators op member
  | _ => exact marks _ (by simp [Lexer.marks]) member

theorem Spelled.visible {lexeme : Lexeme} (spelled : lexeme.Spelled) {u : CodeUnit}
    (member : u ∈ lexeme.text) : Lexer.isSpace u = false := by
  cases blank : Lexer.isSpace u with
  | false => rfl
  | true =>
    rcases Lexer.space_cases blank with rfl | rfl | rfl | rfl
    all_goals
      refine (spelled.of_sign rfl rfl member (P := fun _ => False) (fun op => ?_) ?_).elim
      · cases op <;> decide
      · decide

theorem IsWord.text_eq_cons {lexeme : Lexeme} (word : lexeme.IsWord) :
    ∃ u tail, lexeme.text = u :: tail ∧ Lexer.isSpace u = false := by
  obtain ⟨u, tail, text⟩ := List.exists_cons_of_ne_nil word.nonempty
  exact ⟨u, tail, text, word.spelled.visible (by simp [text])⟩

theorem IsWord.of_mark {mark : Lexeme} (isMark : mark ∈ Lexer.marks) : mark.IsWord := by
  have found := Lexer.front_mark isMark []
  have texts : ∀ mark ∈ Lexer.marks, mark.text ≠ [] := by decide
  rw [List.append_nil] at found
  exact ⟨found, texts mark isMark, (Lexer.mark_plain isMark []).1⟩

end Lexeme

open Lexeme

theorem Lexer.front_word {t : Text} {lexeme : Lexeme} (found : front t = .found lexeme) :
    ∃ rest, t = lexeme.text ++ rest ∧ lexeme.IsWord ∧ lexeme.EndsBefore rest := by
  obtain ⟨rest, split, some, word, spelled, ends⟩ := front_split found
  exact ⟨rest, split, ⟨word, some, spelled⟩, ends⟩

namespace Lexes

theorem word {lexeme : Lexeme} {rest : Text} {lexemes : List Lexeme} (behind : Lexes rest lexemes)
    (word : lexeme.IsWord) (ends : lexeme.EndsBefore rest) :
    Lexes (lexeme.text ++ rest) (lexeme :: lexemes) := by
  have found := Lexer.front_join word.found ends
  obtain ⟨u, tail, text, visible⟩ := word.text_eq_cons
  have tailed : (u :: (tail ++ rest)).drop lexeme.text.length = rest := by
    rw [text, ← List.cons_append, List.drop_left]
  rw [text, List.cons_append] at found ⊢
  refine .lexeme visible found ?_
  rwa [tailed]

theorem single {lexeme : Lexeme} (isWord : lexeme.IsWord) : Lexes lexeme.text [lexeme] := by
  have ends : lexeme.EndsBefore [] := fun u first => by cases first
  have lexes := Lexes.nil.word isWord ends
  rwa [List.append_nil] at lexes

/-- What holds of the words of a text, put in front one after the other. -/
theorem words {motive : (t : Text) → (lexemes : List Lexeme) → Lexes t lexemes → Prop}
    (nil : motive [] [] .nil)
    (space : ∀ {u t lexemes} (blank : Lexer.isSpace u = true) (rest : Lexes t lexemes),
      motive t lexemes rest → motive (u :: t) lexemes (.space blank rest))
    (word : ∀ {lexeme rest lexemes} (isWord : lexeme.IsWord) (ends : lexeme.EndsBefore rest)
      (behind : Lexes rest lexemes), motive rest lexemes behind →
      motive (lexeme.text ++ rest) (lexeme :: lexemes) (behind.word isWord ends))
    {t : Text} {lexemes : List Lexeme} (lexes : Lexes t lexemes) : motive t lexemes lexes := by
  induction lexes with
  | nil => exact nil
  | space blank rest ih => exact space blank rest ih
  | @lexeme u t first lexemes visible found rest ih =>
    obtain ⟨tail, split, isWord, ends⟩ := Lexer.front_word found
    have spelled : ∀ (whole : Text) (lexes : Lexes whole (first :: lexemes)),
        whole = first.text ++ tail → motive whole (first :: lexemes) lexes := by
      rintro _ lexes rfl
      have behind : Lexes tail lexemes := by rwa [split, List.drop_left] at rest
      have tailed : ∀ t (rest : Lexes t lexemes), motive t lexemes rest → t = tail →
          motive tail lexemes behind := by
        rintro _ _ holds rfl
        exact holds
      exact word isWord ends behind (tailed _ rest ih (by rw [split, List.drop_left]))
    exact spelled _ _ split

theorem blanks {s t : Text} {lexemes : List Lexeme} (blank : ∀ u ∈ s, Lexer.isSpace u = true)
    (lexes : Lexes t lexemes) : Lexes (s ++ t) lexemes := by
  induction s with
  | nil => exact lexes
  | cons u s ih =>
    simp only [List.mem_cons, forall_eq_or_imp] at blank
    exact .space blank.1 (ih blank.2)

theorem first {u : CodeUnit} {t : Text} {lexemes : List Lexeme} (visible : Lexer.isSpace u = false)
    (lexes : Lexes (u :: t) lexemes) :
    ∃ (lexeme : Lexeme) (rest : Text) (behind : List Lexeme), u :: t = lexeme.text ++ rest ∧
      lexemes = lexeme :: behind ∧ lexeme.IsWord ∧ lexeme.EndsBefore rest ∧ Lexes rest behind := by
  cases lexes with
  | space blank => cases visible.symm.trans blank
  | @lexeme _ _ lexeme behind _ found rest =>
    obtain ⟨tail, split, isWord, ends⟩ := Lexer.front_word found
    rw [split, List.drop_left] at rest
    exact ⟨lexeme, tail, behind, split, rfl, isWord, ends, rest⟩

theorem mark_iff {mark : Lexeme} (isMark : mark ∈ Lexer.marks) {t : Text} {lexemes : List Lexeme} :
    Lexes (mark.text ++ t) lexemes ↔ ∃ behind, lexemes = mark :: behind ∧ Lexes t behind := by
  have word := IsWord.of_mark isMark
  have ends : mark.EndsBefore t := (Lexer.mark_plain isMark t).2
  constructor
  · intro lexes
    obtain ⟨u, tail, text, visible⟩ := word.text_eq_cons
    rw [text] at lexes
    obtain ⟨lexeme, rest, behind, split, rfl, isWord, ends', later⟩ := first visible lexes
    have whole : mark.text ++ t = lexeme.text ++ rest := by
      rw [text]
      exact split
    have here := Lexer.front_join word.found ends
    have there := Lexer.front_join isWord.found ends'
    rw [← whole, here] at there
    obtain rfl : mark = lexeme := Lexer.Front.found.inj there
    exact ⟨behind, rfl, List.append_cancel_left whole ▸ later⟩
  · rintro ⟨behind, rfl, later⟩
    exact later.word word ends

theorem blank_iff {u : CodeUnit} {t : Text} {lexemes : List Lexeme} (blank : Lexer.isSpace u = true) :
    Lexes (u :: t) lexemes ↔ Lexes t lexemes := by
  constructor
  · intro lexes
    cases lexes with
    | space _ rest => exact rest
    | lexeme visible => cases blank.symm.trans visible
  · exact .space blank

end Lexes

end Calculator
