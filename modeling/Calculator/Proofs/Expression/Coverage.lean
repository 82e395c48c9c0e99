import Mathlib.Data.List.Infix
import Calculator.Proofs.Expression.Slices
import Calculator.Proofs.Expression.Words

/-!
What the scanner leaves of a text. Between its tokens there is white space and nothing else; and where it
stops, it stops at the first place that holds no word, since all that stands before is words by itself.
-/
namespace Calculator

/-- The place lies in the stretch. -/
def Span.Holds (range : Span) (i : Nat) : Prop :=
  range.start ≤ i ∧ i < range.stop

namespace Lexer

/-- By induction on the text: a unit that is passed belongs to the token found before it. -/
theorem scan_leaves_blanks {start passing : Nat} {t : Text} {tokens : List Token}
    (run : scan start passing t = .ok tokens) {i : Nat} {u : CodeUnit} (unit : t[i]? = some u)
    (later : passing ≤ i) (left : ∀ token ∈ tokens, ¬ token.range.Holds (start + i)) :
    isSpace u = true := by
  induction t generalizing start passing tokens i with
  | nil => cases unit
  | cons v rest ih =>
    have place : ∀ j, start + (j + 1) = start + 1 + j := by omega
    cases passing with
    | succ passing =>
      simp only [scan] at run
      obtain ⟨j, rfl⟩ : ∃ j, i = j + 1 := ⟨i - 1, by omega⟩
      rw [place] at left
      exact ih run unit (by omega) left
    | zero =>
      simp only [scan] at run
      split at run
      · rename_i blank
        cases i with
        | zero =>
          obtain rfl : v = u := by simpa using unit
          exact blank
        | succ j =>
          rw [place] at left
          exact ih run unit (by omega) left
      split at run
      · cases run
      rename_i lexeme found
      have extent := List.length_pos_iff.mpr (front_found (by simp) found).2
      split at run
      · rename_i more behind
        cases run
        simp only [List.mem_cons, forall_eq_or_imp, Span.Holds] at left
        obtain ⟨j, rfl⟩ : ∃ j, i = j + 1 := ⟨i - 1, by omega⟩
        have outside := left.2
        rw [place] at outside
        exact ih behind unit (by omega) outside
      · cases run

/-- What stands before an error is words; the first of them is read with the error behind it. -/
theorem lexes_before {start : Nat} {t : Text} {e : LexicalError} (run : scan start 0 t = .error e) :
    ∃ before u behind lexemes, t = before ++ u :: behind ∧ e.range.start = start + before.length ∧
      isSpace u = false ∧ Lexes before lexemes := by
  -- on the length of what is left, since a word takes several units at once
  induction length : t.length using Nat.strongRecOn generalizing start t with
  | ind n ih =>
    cases t with
    | nil => cases run
    | cons u rest =>
      simp only [scan] at run
      split at run
      · rename_i blank
        obtain ⟨before, v, behind, lexemes, rfl, place, visible, lexes⟩ :=
          ih rest.length (by simp [← length]) run rfl
        refine ⟨u :: before, v, behind, lexemes, rfl, ?_, visible, .space blank lexes⟩
        rw [place, List.length_cons]
        omega
      rename_i visible
      split at run
      · cases run
        exact ⟨[], u, rest, [], rfl, rfl, by simpa using visible, .nil⟩
      rename_i lexeme found
      rw [scan_behind found] at run
      obtain ⟨tail, split, word, ends⟩ := front_word found
      rw [split, List.drop_left] at run
      rw [split] at length ⊢
      split at run
      · cases run
      · rename_i e' failed
        cases run
        have extent := List.length_pos_iff.mpr word.nonempty
        rw [List.length_append] at length
        obtain ⟨before, v, behind, lexemes, rfl, place, visible', lexes⟩ :=
          ih tail.length (by omega) failed rfl
        refine ⟨lexeme.text ++ before, v, behind, lexeme :: lexemes, by simp, ?_, visible',
          lexes.word word ?_⟩
        · rw [place, List.length_append]
          omega
        · intro w first
          exact ends w (by cases before <;> simp_all)

end Lexer

/-- The tokens of a text leave nothing of it but white space. The places that a reader of the tokens comes
to are theirs, and behind them, once, the end of the text. -/
structure Covers (tokens : List Token) (t : Text) : Prop where
  apart : tokens.Pairwise fun first second => first.range.stop ≤ second.range.start
  extents : ∀ token ∈ tokens, token.range.start < token.range.stop ∧ token.range.stop ≤ t.length
  cut : Cut t tokens
  blank : ∀ i u, t[i]? = some u → (∀ token ∈ tokens, ¬ token.range.Holds i) → u ∈ (" \t\n\r" : Text)
  places : tokens.tails.map (Parser.place t.length) = tokens.map Token.range ++ [⟨t.length, t.length⟩]

/-- An error takes a stretch of the text that begins with no white space, and what stands before it has
tokens by itself. -/
structure LexicalError.StopsAt (e : LexicalError) (t : Text) : Prop where
  extent : e.range.start < e.range.stop ∧ e.range.stop ≤ t.length
  visible : ∃ u, t[e.range.start]? = some u ∧ u ∉ (" \t\n\r" : Text)
  before : ∃ tokens, tokenize (t.take e.range.start) = .ok tokens

theorem Ordered.apart {low high : Nat} {tokens : List Token} (ordered : Ordered low high tokens) :
    tokens.Pairwise fun first second => first.range.stop ≤ second.range.start := by
  induction tokens generalizing low with
  | nil => exact .nil
  | cons token rest ih =>
    obtain ⟨_, _, _, behind⟩ := ordered
    exact .cons (fun second member => (behind.mem member).1) (ih behind)

theorem Parser.map_place_tails (stop : Nat) (tokens : List Token) :
    tokens.tails.map (place stop) = tokens.map Token.range ++ [⟨stop, stop⟩] := by
  induction tokens with
  | nil => rfl
  | cons token rest ih => simp [List.tails, place, ih]

theorem tokenize_ok_covers {t : Text} {tokens : List Token} (run : tokenize t = .ok tokens) :
    Covers tokens t := by
  have ordered := tokenize_ordered run
  refine ⟨ordered.apart, fun token member => (ordered.mem member).2, tokenize_cut run, ?_,
    Parser.map_place_tails _ _⟩
  intro i u unit left
  exact Lexer.isSpace_iff.mp (Lexer.scan_leaves_blanks run unit (Nat.zero_le i) (by simpa using left))

theorem tokenize_error_stopsAt {t : Text} {e : LexicalError} (run : tokenize t = .error e) :
    e.StopsAt t := by
  obtain ⟨before, u, behind, lexemes, rfl, place, visible, lexes⟩ := Lexer.lexes_before run
  rw [Nat.zero_add] at place
  obtain ⟨tokens, lexed, _⟩ := lexes_iff.mp lexes
  refine ⟨tokenize_error run, ⟨u, by simp [place], ?_⟩, tokens, ?_⟩
  · rw [← Lexer.isSpace_iff, visible]
    exact Bool.false_ne_true
  · rwa [place, List.take_left]

/-- Every text has tokens that leave nothing of it but white space, or an error at the first place where
it stops being words. -/
theorem tokenize_covers_or_stops (t : Text) :
    (∃ tokens, tokenize t = .ok tokens ∧ Covers tokens t) ∨
      ∃ e, tokenize t = .error e ∧ e.StopsAt t := by
  cases run : tokenize t with
  | ok tokens => exact .inl ⟨tokens, rfl, tokenize_ok_covers run⟩
  | error e => exact .inr ⟨e, rfl, tokenize_error_stopsAt run⟩

end Calculator
