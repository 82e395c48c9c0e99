import Calculator.Proofs.Evaluation.Meaning
import Calculator.Proofs.Expression.BareMemory
import Calculator.Proofs.Expression.Continuation
import Calculator.Proofs.Expression.Trees
import Calculator.Session.Session

/-!
White space between words. Any may stand for any other, with one exception: the bare name `mem` is
completed in the text, before there are words, and there a line end hides the parenthesis of a call.
-/
namespace Calculator

open Normalize

/-- Runs of white space are replaced by others, none of them empty. -/
inductive Respaced : Text → Text → Prop where
  | nil : Respaced [] []
  | visible {u : CodeUnit} {t t' : Text} (visible : Lexer.isSpace u = false) (rest : Respaced t t') :
      Respaced (u :: t) (u :: t')
  | blanks {s s' t t' : Text} (some : s ≠ []) (some' : s' ≠ []) (blank : ∀ u ∈ s, Lexer.isSpace u = true)
      (blank' : ∀ u ∈ s', Lexer.isSpace u = true) (rest : Respaced t t') : Respaced (s ++ t) (s' ++ t')

namespace Respaced

theorem symm {t t' : Text} (respaced : Respaced t t') : Respaced t' t := by
  induction respaced with
  | nil => exact .nil
  | visible visible _ ih => exact .visible visible ih
  | blanks some some' blank blank' _ ih => exact .blanks some' some blank' blank ih

theorem of_visible {u : CodeUnit} {t x : Text} (visible : Lexer.isSpace u = false)
    (respaced : Respaced (u :: t) x) : ∃ t', x = u :: t' ∧ Respaced t t' := by
  generalize whole : u :: t = text at respaced
  cases respaced with
  | nil => cases whole
  | visible _ rest =>
    obtain ⟨rfl, rfl⟩ := List.cons.inj whole
    exact ⟨_, rfl, rest⟩
  | @blanks s _ t _ some _ blank =>
    cases s with
    | nil => contradiction
    | cons v s =>
      obtain ⟨rfl, _⟩ := List.cons.inj whole
      cases visible.symm.trans (blank u (by simp))

theorem of_word {s t x : Text} (visible : ∀ u ∈ s, Lexer.isSpace u = false)
    (respaced : Respaced (s ++ t) x) : ∃ t', x = s ++ t' ∧ Respaced t t' := by
  induction s generalizing x with
  | nil => exact ⟨x, rfl, respaced⟩
  | cons u s ih =>
    simp only [List.mem_cons, forall_eq_or_imp] at visible
    obtain ⟨x', rfl, rest⟩ := respaced.of_visible visible.1
    obtain ⟨t', rfl, rest'⟩ := ih visible.2 rest
    exact ⟨t', rfl, rest'⟩

theorem caret {t t' : Text} (respaced : Respaced t t') :
    Respaced (Normalize.caret t) (Normalize.caret t') := by
  have plain : ∀ {s : Text}, (∀ u ∈ s, Lexer.isSpace u = true) → 0x5E ∉ s := by
    intro s blank member
    cases blank _ member
  induction respaced with
  | nil => exact .nil
  | @visible u t t' visible _ ih =>
    by_cases power : u = 0x5E
    · simp only [Normalize.caret, if_pos power]
      exact .visible rfl (.visible rfl ih)
    · rw [caret_other power, caret_other power]
      exact .visible visible ih
  | blanks some some' blank blank' _ ih =>
    rw [caret_append, caret_append, caret_eq_self (plain blank), caret_eq_self (plain blank')]
    exact .blanks some some' blank blank' ih

end Respaced

theorem Lexeme.EndsBefore.respaced {lexeme : Lexeme} {t t' : Text} (ends : lexeme.EndsBefore t)
    (respaced : Respaced t t') : lexeme.EndsBefore t' := by
  cases respaced with
  | nil => exact ends
  | visible _ _ => exact ends
  | @blanks _ s' _ _ _ some' _ blank' =>
    intro u first
    cases s' with
    | nil => contradiction
    | cons v s' =>
      obtain rfl : v = u := by simpa using first
      exact lexeme.extendedBy_blank (blank' v (by simp))

namespace Lexes

theorem respaced {t t' : Text} {lexemes : List Lexeme} (lexes : Lexes t lexemes)
    (respaced : Respaced t t') : Lexes t' lexemes := by
  induction lexes using Lexes.words generalizing t' with
  | nil =>
    generalize whole : ([] : Text) = text at respaced
    cases respaced with
    | nil => exact .nil
    | visible _ _ => cases whole
    | blanks some => simp [some] at whole
  | @space u t lexemes blank rest ih =>
    generalize whole : u :: t = text at respaced
    cases respaced with
    | nil => cases whole
    | visible visible _ =>
      obtain ⟨rfl, _⟩ := List.cons.inj whole
      cases blank.symm.trans visible
    | @blanks s s' t₂ t₂' some some' blank blank' later =>
      cases s with
      | nil => contradiction
      | cons v s =>
        obtain ⟨rfl, rfl⟩ := List.cons.inj whole
        simp only [List.mem_cons, forall_eq_or_imp] at blank
        by_cases last : s = []
        · subst last
          exact (ih later).blanks blank'
        · exact ih (.blanks last some' blank.2 blank' later)
  | @word lexeme rest lexemes isWord ends behind ih =>
    obtain ⟨rest', rfl, later⟩ := respaced.of_word fun u => isWord.spelled.visible
    exact (ih later).word isWord (ends.respaced later)

end Lexes

/-- A line ends between a bare `mem` and the parenthesis behind it. -/
def BreaksCall (t : Text) : Prop :=
  ∃ before blanks behind : Text, t = before ++ "mem" ++ blanks ++ "(" ++ behind ∧
    endsInWord false before = false ∧ (∀ u ∈ blanks, Lexer.isSpace u = true) ∧
    (0x0A ∈ blanks ∨ 0x0D ∈ blanks)

namespace Normalize

theorem endsInWord_caret (inWord : Bool) (t : Text) : endsInWord inWord (caret t) = endsInWord inWord t := by
  induction t generalizing inWord with
  | nil => rfl
  | cons u t ih =>
    by_cases power : u = 0x5E
    · subst power
      exact ih false
    · rw [caret_other power]
      exact ih _

theorem opensCall_blanks {blanks : Text} (blank : ∀ u ∈ blanks, Lexer.isSpace u = true) (t : Text) :
    opensCall (blanks ++ 0x28 :: t) = true ↔ ¬ (0x0A ∈ blanks ∨ 0x0D ∈ blanks) := by
  induction blanks with
  | nil => simp [opensCall]
  | cons u blanks ih =>
    simp only [List.mem_cons, forall_eq_or_imp] at blank
    have rest := ih blank.2
    rcases Lexer.space_cases blank.1 with rfl | rfl | rfl | rfl <;> simp [opensCall, rest]

theorem callFollows_iff {t : Text} :
    callFollows t = true ↔ ∃ blanks behind : Text, t = blanks ++ 0x28 :: behind ∧
      ∀ u ∈ blanks, Lexer.isSpace u = true := by
  constructor
  · intro follows
    have first : (t.dropWhile Lexer.isSpace).head? = some 0x28 := by simpa [callFollows] using follows
    obtain ⟨behind, rest⟩ := List.head?_eq_some_iff.mp first
    refine ⟨t.takeWhile Lexer.isSpace, behind, ?_, List.all_eq_true.mp List.all_takeWhile⟩
    rw [← rest, List.takeWhile_append_dropWhile]
  · rintro ⟨blanks, behind, rfl, blank⟩
    have visible : Lexer.isSpace 0x28 = false := rfl
    simp [callFollows, List.dropWhile_append_of_pos blank, visible]

/-- Once carets are power signs, all calls are in sight but those that a line end breaks. -/
theorem keepsCalls_caret_iff {t : Text} : KeepsCalls false (caret t) ↔ ¬ BreaksCall t := by
  constructor
  · rintro keeps ⟨before, blanks, behind, rfl, bare, blank, lineEnd⟩
    have plain : caret blanks = blanks := caret_eq_self fun member => by cases blank _ member
    have whole : caret (before ++ "mem" ++ blanks ++ "(" ++ behind) =
        caret before ++ 0x6D :: 0x65 :: 0x6D :: (blanks ++ 0x28 :: caret behind) := by
      have name : caret "mem" = [0x6D, 0x65, 0x6D] := rfl
      have opening : caret "(" = [0x28] := rfl
      simp [caret_append, plain, name, opening]
    have boundary : startsWithWordUnit (blanks ++ 0x28 :: caret behind) = false := by
      cases blanks with
      | nil => simp at lineEnd
      | cons u blanks =>
        have space := blank u (by simp)
        rcases Lexer.space_cases space with rfl | rfl | rfl | rfl <;> rfl
    have sight := keeps _ _ whole (by rwa [endsInWord_caret]) boundary
    have follows := callFollows_iff.mpr ⟨blanks, caret behind, rfl, blank⟩
    exact (opensCall_blanks blank _).mp (sight.trans follows) lineEnd
  · intro unbroken before rest split bare _
    cases follows : callFollows rest with
    | false =>
      cases opens : opensCall rest with
      | false => rfl
      | true => exact (callFollows_of_opensCall opens).symm.trans follows
    | true =>
      obtain ⟨blanks, behind, rfl, blank⟩ := callFollows_iff.mp follows
      refine (opensCall_blanks blank behind).mpr fun lineEnd => unbroken ?_
      obtain ⟨first, second, rfl, rfl, later⟩ := caret_eq_split (by decide) split
      have starless : 0x2A ∉ (0x65 :: 0x6D :: (blanks ++ [0x28]) : Text) := by
        simp only [List.mem_cons, List.mem_append, List.not_mem_nil, or_false, not_or]
        exact ⟨by decide, by decide, fun member => (by cases blank _ member), by decide⟩
      have stretch : caret second = (0x65 :: 0x6D :: (blanks ++ [0x28])) ++ behind := by
        simpa using later.symm
      obtain ⟨tail, rfl, _⟩ := caret_eq_append starless stretch
      rw [endsInWord_caret] at bare
      exact ⟨first, blanks, tail, by simp [Text.ofString, Text.ofChar], bare, blank, lineEnd⟩

end Normalize

/-- The tree of a text, its places aside, is a matter of its words. -/
theorem parse_of_same_words {t t' : Text} (same : ∀ lexemes, Lexes t lexemes ↔ Lexes t' lexemes) :
    (parse t).toOption.map Expr.unplaced = (parse t').toOption.map Expr.unplaced := by
  have other : ∀ {t t' : Text}, (∀ lexemes, Lexes t lexemes → Lexes t' lexemes) → ∀ tree,
      parse t = .ok tree → (parse t').toOption.map Expr.unplaced = some tree.unplaced := by
    intro t t' words tree read
    obtain ⟨tokens, lexed, whole⟩ := parse_ok_iff.mp read
    obtain ⟨tokens', lexed', same⟩ := lexes_iff.mp (words _ (lexes_iff.mpr ⟨tokens, lexed, rfl⟩))
    rw [parse, lexed']
    exact Parser.whole_relocates same whole
  exact reading_congr (other fun lexemes => (same lexemes).mp) (other fun lexemes => (same lexemes).mpr)

theorem Expr.amount_unplaced (r : Registry) (e : Expr) : e.unplaced.amount r = e.amount r := by
  rw [amount_eq, amount_eq, meaning_unplaced]

namespace Session

variable {s : Session} {t t' : Text}

/-- Value or kind of error of a text, as its tree has them. -/
theorem outcome_kind (s : Session) (t : Text) :
    (s.evaluate t).outcome.mapError Failure.kind =
      match (s.parse t).toOption.map Expr.unplaced with
      | none => .error .parseError
      | some tree => (tree.amount s.registry).mapError Fault.kind := by
  rw [evaluate, outcome]
  cases s.parse t with
  | error e => rfl
  | ok tree =>
    show _ = (tree.unplaced.amount s.registry).mapError Fault.kind
    rw [Expr.amount_unplaced, Expr.amount]
    dsimp only
    cases evaluateNumber s.registry tree <;> rfl

theorem parse_of_unbroken (respaced : Respaced t t') (here : ¬ BreaksCall t) (there : ¬ BreaksCall t') :
    (s.parse t).toOption.map Expr.unplaced = (s.parse t').toOption.map Expr.unplaced := by
  refine parse_of_same_words fun lexemes => ?_
  have words : ∀ lexemes, Lexes (caret t) lexemes ↔ Lexes (caret t') lexemes := fun lexemes =>
    ⟨fun lexes => lexes.respaced respaced.caret, fun lexes => lexes.respaced respaced.symm.caret⟩
  have first : Lexes (normalize t) lexemes ↔ _ := lexes_memory_iff (keepsCalls_caret_iff.mpr here)
  have second : Lexes (normalize t') lexemes ↔ _ := lexes_memory_iff (keepsCalls_caret_iff.mpr there)
  simp only [first, second, words]

theorem parse_of_broken (broken : BreaksCall t) : (s.parse t).toOption = none := by
  cases read : s.parse t with
  | error e => rfl
  | ok tree =>
    obtain ⟨tokens, p, lexed, derives, rfl, _, _⟩ := parse_derives read
    have words : Lexes (Normalize.memory (caret t)) p.lexemes := lexes_iff.mpr ⟨_, lexed, rfl⟩
    have hidden : ¬ KeepsCalls false (caret t) := fun keeps => keepsCalls_caret_iff.mp keeps broken
    obtain ⟨before, behind, torn⟩ := words.torn hidden
    have sentence : Sentence (before ++ .rightParen :: .leftParen :: behind) := ⟨p, derives, torn⟩
    exact sentence.not_called.elim

/-- White space of one kind means what any other does, unless in one text and not in the other a line
ends between a bare `mem` and the parenthesis behind it. Such a text is never read. -/
theorem evaluate_respaced (s : Session) (respaced : Respaced t t') :
    ((BreaksCall t ↔ BreaksCall t') → (s.evaluate t).outcome.mapError Failure.kind =
      (s.evaluate t').outcome.mapError Failure.kind) ∧
    (BreaksCall t → (s.evaluate t).outcome.mapError Failure.kind = .error .parseError) := by
  have broken : ∀ {t}, BreaksCall t →
      (s.evaluate t).outcome.mapError Failure.kind = .error .parseError := by
    intro t breaks
    rw [outcome_kind, parse_of_broken breaks]
    rfl
  refine ⟨fun alike => ?_, broken⟩
  by_cases here : BreaksCall t
  · rw [broken here, broken (alike.mp here)]
  · rw [outcome_kind, outcome_kind, parse_of_unbroken respaced here (mt alike.mpr here)]

/-- Line ends around an operator are white space; one between the name and its parenthesis is not. -/
theorem line_ends_respaced :
    Respaced "pi - 1" "pi\n-\r\n1" ∧
    (evaluate ⟨.degrees, .zero⟩ "pi - 1").outcome.mapError Failure.kind =
      (evaluate ⟨.degrees, .zero⟩ "pi\n-\r\n1").outcome.mapError Failure.kind ∧
    Respaced "mem\n()" "mem ()" ∧
    (evaluate ⟨.degrees, .zero⟩ "mem\n()").outcome.mapError Failure.kind = .error .parseError := by
  have behind : Respaced ([0x20] ++ [0x31]) ([0x0D, 0x0A] ++ [0x31]) :=
    .blanks (by simp) (by simp) (by simp [Lexer.isSpace]) (by simp [Lexer.isSpace]) (.visible rfl .nil)
  have before : Respaced ([0x20] ++ 0x2D :: 0x20 :: [0x31]) ([0x0A] ++ 0x2D :: 0x0D :: 0x0A :: [0x31]) :=
    .blanks (by simp) (by simp) (by simp [Lexer.isSpace]) (by simp [Lexer.isSpace]) (.visible rfl behind)
  have difference : Respaced "pi - 1" "pi\n-\r\n1" := .visible rfl (.visible rfl before)
  have gap : Respaced ([0x0A] ++ [0x28, 0x29]) ([0x20] ++ [0x28, 0x29]) :=
    .blanks (by simp) (by simp) (by simp [Lexer.isSpace]) (by simp [Lexer.isSpace]) (.visible rfl (.visible rfl .nil))
  have call : Respaced "mem\n()" "mem ()" := .visible rfl (.visible rfl (.visible rfl gap))
  have broken : BreaksCall "mem\n()" := 
    ⟨[], [0x0A], [0x29], rfl, rfl, by simp [Lexer.isSpace], by decide⟩
  have named : ∀ {t : Text}, BreaksCall t → 0x6D ∈ t := by
    rintro t ⟨before, blanks, behind, rfl, _⟩
    simp [Text.ofString, Text.ofChar]
  have here : ¬ BreaksCall "pi - 1" := fun breaks => absurd (named breaks) (by decide)
  have there : ¬ BreaksCall "pi\n-\r\n1" := fun breaks => absurd (named breaks) (by decide)
  exact ⟨difference, (evaluate_respaced _ difference).1 (iff_of_false here there), call,
    (evaluate_respaced _ call).2 broken⟩

/-- A call that white space may not part, though it parts the same call in another way. -/
theorem line_end_breaks_call :
    Respaced "mem ()" "mem\n()" ∧ (evaluate ⟨.degrees, .zero⟩ "mem ()").outcome = .ok .zero ∧
    (evaluate ⟨.degrees, .zero⟩ "mem\n()").outcome =
      .error (.unreadable ⟨.trailing .leftParen, ⟨6, 7⟩⟩) := by
  have gap : Respaced ([0x20] ++ [0x28, 0x29]) ([0x0A] ++ [0x28, 0x29]) :=
    .blanks (by simp) (by simp) (by simp [Lexer.isSpace]) (by simp [Lexer.isSpace]) (.visible rfl (.visible rfl .nil))
  exact ⟨.visible rfl (.visible rfl (.visible rfl gap)), by decide +kernel, by decide +kernel⟩

end Session

end Calculator
