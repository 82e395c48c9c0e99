import Mathlib.Data.List.Chain
import Calculator.Proofs.Expression.Continuation
import Calculator.Proofs.Expression.Normalizing
import Calculator.Proofs.Expression.Words

/-!
The caret as a word of its own. Writing power signs for the carets of a text, and reading each caret as a
power sign, come to the same words unless such a sign runs into a star beside it. Then one of them stands
next to the other among the words, and no expression has that.
-/
namespace Calculator

namespace Lexer

/-- Tokens of a text in which a caret is one more operator, the power sign. -/
def scanCarets : (start passing : Nat) → Text → Except LexicalError (List Token)
  | _, _, [] => .ok []
  | start, passing + 1, _ :: rest => scanCarets (start + 1) passing rest
  | start, 0, u :: rest =>
    if isSpace u then scanCarets (start + 1) 0 rest
    else if u = 0x5E then
      match scanCarets (start + 1) 0 rest with
      | .ok tokens => .ok (⟨.operator .power, start, start + 1⟩ :: tokens)
      | .error e => .error e
    else
      match front (u :: rest) with
      | .wrong cause length => .error ⟨cause, start, start + length⟩
      | .found lexeme =>
        match scanCarets (start + 1) (lexeme.text.length - 1) rest with
        | .ok tokens => .ok (⟨lexeme, start, start + lexeme.text.length⟩ :: tokens)
        | .error e => .error e

end Lexer

def tokenizeCarets (t : Text) : Except LexicalError (List Token) :=
  Lexer.scanCarets 0 0 t

/-- A text falls into the given words, where a caret is a word as well. -/
inductive CaretLexes : Text → List Lexeme → Prop where
  | nil : CaretLexes [] []
  | space {u : CodeUnit} {t : Text} {lexemes : List Lexeme} (blank : Lexer.isSpace u = true)
    (rest : CaretLexes t lexemes) : CaretLexes (u :: t) lexemes
  | caret {t : Text} {lexemes : List Lexeme} (rest : CaretLexes t lexemes) :
    CaretLexes (0x5E :: t) (.operator .power :: lexemes)
  | word {lexeme : Lexeme} {rest : Text} {lexemes : List Lexeme} (isWord : lexeme.IsWord)
    (ends : lexeme.EndsBefore rest) (behind : CaretLexes rest lexemes) :
    CaretLexes (lexeme.text ++ rest) (lexeme :: lexemes)

namespace Lexeme

/-- The words with a star in them. -/
def Starred (lexeme : Lexeme) : Prop :=
  lexeme = .operator .times ∨ lexeme = .operator .power

instance (lexeme : Lexeme) : Decidable lexeme.Starred :=
  inferInstanceAs (Decidable (lexeme = .operator .times ∨ lexeme = .operator .power))

variable {lexeme : Lexeme}

theorem Spelled.no_caret (spelled : lexeme.Spelled) : 0x5E ∉ lexeme.text := by
  intro member
  refine spelled.of_sign rfl rfl member (P := fun _ => False) (fun op => ?_) ?_
  · cases op <;> decide
  · decide

theorem Spelled.starred (spelled : lexeme.Spelled) (member : 0x2A ∈ lexeme.text) : lexeme.Starred := by
  refine spelled.of_sign rfl rfl member (P := Starred) (fun op => ?_) ?_
  · cases op <;> decide
  · decide

theorem extendedBy_caret (lexeme : Lexeme) : lexeme.extendedBy 0x5E = false := by
  cases lexeme with
  | operator op => cases op <;> rfl
  | _ => rfl

theorem EndsBefore.of_caret {t : Text} (ends : lexeme.EndsBefore (Normalize.caret t)) :
    lexeme.EndsBefore t := by
  intro u first
  cases t with
  | nil => cases first
  | cons v rest =>
    obtain rfl : v = u := by simpa using first
    by_cases power : v = 0x5E
    · subst power
      exact lexeme.extendedBy_caret
    · exact ends v (by simp [Normalize.caret_other power])

theorem extendedBy_star (other : lexeme ≠ .operator .times) : lexeme.extendedBy 0x2A = false := by
  cases lexeme with
  | operator op => cases op <;> first | rfl | contradiction
  | _ => rfl

theorem EndsBefore.caret {t : Text} (ends : lexeme.EndsBefore t)
    (apart : lexeme = .operator .times → t.head? ≠ some 0x5E) :
    lexeme.EndsBefore (Normalize.caret t) := by
  intro u first
  cases t with
  | nil => cases first
  | cons v rest =>
    by_cases power : v = 0x5E
    · subst power
      obtain rfl : 0x2A = u := by simpa [Normalize.caret] using first
      exact extendedBy_star fun times => apart times rfl
    · obtain rfl : v = u := by simpa [Normalize.caret_other power] using first
      exact ends v rfl

end Lexeme

namespace Lexer

theorem scanCarets_passing (start passing : Nat) (t : Text) :
    scanCarets start passing t = scanCarets (start + passing) 0 (t.drop passing) := by
  induction passing generalizing start t with
  | zero => rfl
  | succ passing ih =>
    cases t with
    | nil => simp [scanCarets]
    | cons u rest =>
      rw [scanCarets, ih, List.drop_succ_cons]
      congr 1
      omega

theorem scanCarets_word {lexeme : Lexeme} {rest : Text} (word : lexeme.IsWord)
    (ends : lexeme.EndsBefore rest) (start : Nat) :
    scanCarets start 0 (lexeme.text ++ rest) =
      match scanCarets (start + lexeme.text.length) 0 rest with
      | .ok tokens => .ok (⟨lexeme, start, start + lexeme.text.length⟩ :: tokens)
      | .error e => .error e := by
  have found := front_join word.found ends
  obtain ⟨u, tail, text, visible⟩ := word.text_eq_cons
  have other : u ≠ 0x5E := by
    rintro rfl
    exact word.spelled.no_caret (by simp [text])
  have behind : scanCarets (start + 1) ((u :: tail).length - 1) (tail ++ rest) =
      scanCarets (start + (u :: tail).length) 0 rest := by
    rw [scanCarets_passing, List.length_cons, Nat.add_sub_cancel, List.drop_left]
    congr 1
    omega
  rw [text, List.cons_append] at found
  rw [text, List.cons_append, scanCarets, visible, found]
  simp only [other, behind, if_false, Bool.false_eq_true, text]

theorem caretLexes_of_scan {start : Nat} {t : Text} {tokens : List Token}
    (run : scanCarets start 0 t = .ok tokens) : CaretLexes t (tokens.map Token.lexeme) := by
  -- on the length of what is left, since a word takes several units at once
  induction length : t.length using Nat.strongRecOn generalizing start t tokens with
  | ind n ih =>
    cases t with
    | nil =>
      cases run
      exact .nil
    | cons u rest =>
      have shorter : rest.length < n := by simp [← length]
      by_cases blank : isSpace u = true
      · rw [scanCarets, if_pos blank] at run
        exact .space blank (ih _ shorter run rfl)
      by_cases power : u = 0x5E
      · rw [scanCarets, if_neg blank, if_pos power] at run
        split at run
        · rename_i more behind
          cases run
          subst power
          exact .caret (ih _ shorter behind rfl)
        · cases run
      · cases found : front (u :: rest) with
        | wrong cause n =>
          rw [scanCarets, if_neg blank, if_neg power, found] at run
          cases run
        | found lexeme =>
          obtain ⟨tail, split, word, ends⟩ := front_word found
          rw [split, scanCarets_word word ends] at run
          rw [split] at length ⊢
          split at run
          · rename_i more behind
            cases run
            have extent := List.length_pos_iff.mpr word.nonempty
            rw [List.length_append] at length
            exact .word word ends (ih _ (by omega) behind rfl)
          · cases run

theorem scan_of_caretLexes {t : Text} {lexemes : List Lexeme} (lexes : CaretLexes t lexemes)
    (start : Nat) : ∃ tokens, scanCarets start 0 t = .ok tokens ∧ tokens.map Token.lexeme = lexemes := by
  induction lexes generalizing start with
  | nil => exact ⟨[], rfl, rfl⟩
  | space blank _ ih =>
    obtain ⟨tokens, run, same⟩ := ih (start + 1)
    exact ⟨tokens, by simp [scanCarets, blank, run], same⟩
  | caret _ ih =>
    obtain ⟨tokens, run, same⟩ := ih (start + 1)
    have visible : isSpace 0x5E = false := rfl
    exact ⟨⟨.operator .power, start, start + 1⟩ :: tokens, by simp [scanCarets, visible, run],
      by simp [same]⟩
  | @word lexeme rest _ isWord ends _ ih =>
    obtain ⟨tokens, run, same⟩ := ih (start + lexeme.text.length)
    exact ⟨⟨lexeme, start, start + lexeme.text.length⟩ :: tokens,
      by rw [scanCarets_word isWord ends, run], by simp [same]⟩

end Lexer

theorem caretLexes_iff {t : Text} {lexemes : List Lexeme} :
    CaretLexes t lexemes ↔
      ∃ tokens, tokenizeCarets t = .ok tokens ∧ tokens.map Token.lexeme = lexemes := by
  constructor
  · intro lexes
    exact Lexer.scan_of_caretLexes lexes 0
  · rintro ⟨tokens, run, rfl⟩
    exact Lexer.caretLexes_of_scan run

/-- No word with a star stands next to another. -/
def StarsApart (lexemes : List Lexeme) : Prop :=
  lexemes.IsChain fun first second => first.Starred → ¬ second.Starred

namespace Outlook

theorem next_operator {start o : Outlook} {op : Operator} (step : start.next (.operator op) = some o) :
    o.awaited = .operand := by
  obtain ⟨awaited, brackets⟩ := start
  have signed : ∀ {o}, begins brackets (.operator op) = some o → o.awaited = .operand := by
    intro o began
    cases op <;> cases began <;> rfl
  cases awaited with
  | operand => exact signed step
  | item =>
    rcases Option.or_eq_some_iff.mp step with closed | ⟨_, began⟩
    · cases brackets with
      | nil => cases closed
      | cons bracket outer => cases bracket <;> cases closed
    · exact signed began
  | _ =>
    cases step
    rfl

theorem starsApart_of_after {lexemes : List Lexeme} {start o : Outlook}
    (run : start.after lexemes = some o) : StarsApart lexemes := by
  induction lexemes generalizing start with
  | nil => exact .nil
  | cons lexeme rest ih =>
    obtain ⟨⟨awaited, brackets⟩, step, later⟩ := after_cons_eq_some run
    refine List.isChain_cons.mpr ⟨fun second next starred starred' => ?_, ih later⟩
    obtain ⟨op, rfl⟩ : ∃ op, lexeme = .operator op := by
      rcases starred with rfl | rfl <;> exact ⟨_, rfl⟩
    obtain rfl : awaited = .operand := next_operator step
    obtain ⟨more, rfl⟩ := List.head?_eq_some_iff.mp next
    obtain ⟨_, refused, _⟩ := after_cons_eq_some later
    rcases starred' with rfl | rfl <;> cases refused

end Outlook

theorem Sentence.starsApart {lexemes : List Lexeme} (sentence : Sentence lexemes) :
    StarsApart lexemes := by
  obtain ⟨o, run, _⟩ := sentence_iff.mp sentence
  exact Outlook.starsApart_of_after run

theorem StarsApart.tail {lexeme : Lexeme} {rest : List Lexeme} (apart : StarsApart (lexeme :: rest)) :
    StarsApart rest :=
  (List.isChain_cons.mp apart).2

theorem StarsApart.next {first second : Lexeme} {rest : List Lexeme}
    (apart : StarsApart (first :: second :: rest)) (starred : first.Starred) : ¬ second.Starred :=
  (List.isChain_cons.mp apart).1 second rfl starred

namespace CaretLexes

theorem first_caret {t : Text} {lexemes : List Lexeme} (lexes : CaretLexes (0x5E :: t) lexemes) :
    ∃ behind, lexemes = .operator .power :: behind := by
  generalize whole : 0x5E :: t = text at lexes
  cases lexes with
  | nil => cases whole
  | space blank rest =>
    obtain ⟨rfl, _⟩ := List.cons.inj whole
    cases blank
  | caret rest => exact ⟨_, rfl⟩
  | @word lexeme rest lexemes isWord ends behind =>
    obtain ⟨u, tail, spelling, _⟩ := isWord.text_eq_cons
    rw [spelling] at whole
    obtain ⟨rfl, _⟩ := List.cons.inj whole
    exact (isWord.spelled.no_caret (by simp [spelling])).elim

theorem written {t : Text} {lexemes : List Lexeme} (lexes : CaretLexes t lexemes)
    (apart : StarsApart lexemes) : Lexes (Normalize.caret t) lexemes := by
  induction lexes with
  | nil => exact .nil
  | @space u t lexemes blank _ ih =>
    have other : u ≠ 0x5E := by
      rintro rfl
      cases blank
    rw [Normalize.caret_other other]
    exact .space blank (ih apart)
  | caret _ ih => exact .lexeme rfl rfl (ih apart.tail)
  | @word lexeme rest lexemes isWord ends behind ih =>
    rw [Normalize.caret_append, Normalize.caret_eq_self isWord.spelled.no_caret]
    refine (ih apart.tail).word isWord (ends.caret fun times power => ?_)
    obtain ⟨more, rfl⟩ := List.head?_eq_some_iff.mp power
    obtain ⟨behind', rfl⟩ := behind.first_caret
    exact apart.next (.inl times) (.inr rfl)

end CaretLexes

theorem Lexes.first_star {t : Text} {lexemes : List Lexeme} (lexes : Lexes (0x2A :: t) lexemes) :
    ∃ first behind, lexemes = first :: behind ∧ first.Starred := by
  obtain ⟨first, rest, behind, split, rfl, isWord, _, _⟩ := lexes.first rfl
  refine ⟨first, behind, rfl, isWord.spelled.starred ?_⟩
  obtain ⟨u, tail, spelling, _⟩ := isWord.text_eq_cons
  rw [spelling] at split ⊢
  obtain ⟨rfl, _⟩ := List.cons.inj split
  exact List.mem_cons_self

/-- A star of the rewritten text is a star of the text, or the first of the two that a caret becomes. -/
theorem Normalize.caret_eq_star {t rest : Text} (same : caret t = 0x2A :: rest) :
    (∃ tail, t = 0x5E :: tail ∧ rest = 0x2A :: caret tail) ∨
      ∃ tail, t = 0x2A :: tail ∧ rest = caret tail := by
  cases t with
  | nil => cases same
  | cons u tail =>
    by_cases power : u = 0x5E
    · subst power
      exact .inl ⟨tail, rfl, (List.cons.inj same).2.symm⟩
    · rw [caret_other power] at same
      obtain ⟨rfl, behind⟩ := List.cons.inj same
      exact .inr ⟨tail, rfl, behind.symm⟩

theorem Lexes.unwritten {t : Text} {lexemes : List Lexeme} (lexes : Lexes (Normalize.caret t) lexemes)
    (apart : StarsApart lexemes) : CaretLexes t lexemes := by
  generalize rewritten : Normalize.caret t = text at lexes
  induction lexes using Lexes.words generalizing t with
  | nil =>
    cases t with
    | nil => exact .nil
    | cons u rest =>
      by_cases power : u = 0x5E <;> simp [Normalize.caret, power] at rewritten
  | @space u rest lexemes blank _ ih =>
    have starless : 0x2A ∉ [u] := by
      rw [List.mem_singleton]
      rintro rfl
      cases blank
    obtain ⟨tail, rfl, rfl⟩ := Normalize.caret_eq_append (s := [u]) starless rewritten
    exact .space blank (ih apart rfl)
  | @word lexeme rest lexemes isWord ends behind ih =>
    by_cases star : 0x2A ∈ lexeme.text
    · obtain rfl | rfl := isWord.spelled.starred star
      · rcases Normalize.caret_eq_star rewritten with ⟨tail, rfl, doubled⟩ | ⟨tail, rfl, rfl⟩
        · -- the star would have been drawn in by the second one
          obtain rfl : rest = 0x2A :: Normalize.caret tail := doubled
          cases ends 0x2A rfl
        · exact .word isWord ends.of_caret (ih apart.tail rfl)
      · rcases Normalize.caret_eq_star rewritten with ⟨tail, rfl, same⟩ | ⟨tail, rfl, same⟩
        · obtain rfl : rest = Normalize.caret tail := (List.cons.inj same).2
          exact .caret (ih apart.tail rfl)
        rcases Normalize.caret_eq_star same.symm with ⟨tail', rfl, rfl⟩ | ⟨tail', rfl, rfl⟩
        · -- a star and half of a power sign leave a star behind
          obtain ⟨first, more, rfl, starred⟩ := behind.first_star
          exact (apart.next (.inr rfl) starred).elim
        · exact .word isWord (fun _ _ => rfl) (ih apart.tail rfl)
    · obtain ⟨tail, rfl, rfl⟩ := Normalize.caret_eq_append star rewritten
      exact .word isWord ends.of_caret (ih apart.tail rfl)

/-- Power signs written for the carets are the words that the carets are, where no stars meet. -/
theorem lexes_caret_iff {t : Text} {lexemes : List Lexeme} (apart : StarsApart lexemes) :
    Lexes (Normalize.caret t) lexemes ↔ CaretLexes t lexemes :=
  ⟨fun lexes => lexes.unwritten apart, fun lexes => lexes.written apart⟩

end Calculator
