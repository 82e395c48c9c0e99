import Calculator.Proofs.Expression.BareMemory
import Calculator.Proofs.Expression.Carets
import Calculator.Proofs.Session.WhiteSpace

/-!
Reading without preparing the text. The caret is one more operator and a bare `mem` is completed among the
tokens; the text as it was written then has the tree that the prepared text has, or none as well.
-/
namespace Calculator

open Normalize

/-- Puts parentheses of no extent behind each name `mem` that no opening parenthesis follows. -/
def completeCalls : List Token → List Token
  | [] => []
  | token :: rest =>
    if token.lexeme = .name "mem" ∧ rest.head?.map Token.lexeme ≠ some .leftParen then
      let behind : Span := ⟨token.range.stop, token.range.stop⟩
      token :: ⟨.leftParen, behind⟩ :: ⟨.rightParen, behind⟩ :: completeCalls rest
    else token :: completeCalls rest

def readTokens (t : Text) : Except SyntaxError Expr :=
  match tokenizeCarets t with
  | .error e => .error ⟨.lexical e.cause, e.range⟩
  | .ok tokens => Parser.whole t.length (completeCalls tokens)

theorem readTokens_ok_iff {t : Text} {tree : Expr} :
    readTokens t = .ok tree ↔
      ∃ tokens, tokenizeCarets t = .ok tokens ∧
        Parser.whole t.length (completeCalls tokens) = .ok tree := by
  unfold readTokens
  cases tokenizeCarets t <;> simp

theorem lexemes_completeCalls (tokens : List Token) :
    (completeCalls tokens).map Token.lexeme = completed (tokens.map Token.lexeme) := by
  induction tokens with
  | nil => rfl
  | cons token rest ih =>
    rw [List.map_cons, completeCalls, completed, List.head?_map]
    by_cases bare : token.lexeme = .name "mem" ∧ rest.head?.map Token.lexeme ≠ some .leftParen
    · rw [if_pos bare, if_pos bare, ← ih]
      rfl
    · rw [if_neg bare, if_neg bare, ← ih]
      rfl

theorem head_completed (lexemes : List Lexeme) : (completed lexemes).head? = lexemes.head? := by
  cases lexemes with
  | nil => rfl
  | cons lexeme rest =>
    rw [completed]
    split <;> rfl

theorem StarsApart.of_completed {lexemes : List Lexeme} (apart : StarsApart (completed lexemes)) :
    StarsApart lexemes := by
  induction lexemes with
  | nil => exact .nil
  | cons lexeme rest ih =>
    rw [completed] at apart
    split at apart
    · rename_i bare
      refine List.isChain_cons.mpr ⟨fun second _ starred => ?_, ih apart.tail.tail.tail⟩
      rw [bare.1] at starred
      rcases starred with impossible | impossible <;> cases impossible
    · obtain ⟨next, later⟩ := List.isChain_cons.mp apart
      rw [head_completed] at next
      exact List.isChain_cons.mpr ⟨next, ih later⟩

/-- The words of the prepared text, if an expression has them, are those of the completed tokens. -/
theorem lexes_normalize_iff {t : Text} (unbroken : ¬ BreaksCall t) {lexemes : List Lexeme}
    (sentence : Sentence lexemes) :
    Lexes (normalize t) lexemes ↔
      ∃ tokens, tokenizeCarets t = .ok tokens ∧ (completeCalls tokens).map Token.lexeme = lexemes := by
  have bare : Lexes (normalize t) lexemes ↔ ∃ before, Lexes (caret t) before ∧ completed before = lexemes :=
    lexes_memory_iff (keepsCalls_caret_iff.mpr unbroken)
  have apart : ∀ {before}, completed before = lexemes → StarsApart before := by
    rintro before rfl
    exact sentence.starsApart.of_completed
  rw [bare]
  constructor
  · rintro ⟨before, lexes, whole⟩
    obtain ⟨tokens, lexed, rfl⟩ := caretLexes_iff.mp ((lexes_caret_iff (apart whole)).mp lexes)
    exact ⟨tokens, lexed, by rw [lexemes_completeCalls, whole]⟩
  · rintro ⟨tokens, lexed, same⟩
    rw [lexemes_completeCalls] at same
    have lexes : CaretLexes t _ := caretLexes_iff.mpr ⟨tokens, lexed, rfl⟩
    exact ⟨_, (lexes_caret_iff (apart same)).mpr lexes, same⟩

theorem Parser.sentence_of_whole {stop : Nat} {tokens : List Token} {tree : Expr}
    (read : whole stop tokens = .ok tree) : Sentence (tokens.map Token.lexeme) := by
  obtain ⟨p, derives, rfl, _, _⟩ := whole_ok_iff.mp read
  exact ⟨p, derives, rfl⟩

theorem readTokens_of_unbroken {t : Text} (unbroken : ¬ BreaksCall t) :
    (parse (normalize t)).toOption.map Expr.unplaced = (readTokens t).toOption.map Expr.unplaced := by
  apply reading_congr
  · intro tree read
    obtain ⟨tokens, lexed, whole⟩ := parse_ok_iff.mp read
    have lexes : Lexes (normalize t) (tokens.map Token.lexeme) := lexes_iff.mpr ⟨tokens, lexed, rfl⟩
    obtain ⟨written, lexed', same⟩ :=
      (lexes_normalize_iff unbroken (Parser.sentence_of_whole whole)).mp lexes
    rw [readTokens, lexed']
    exact Parser.whole_relocates same whole
  · intro tree read
    obtain ⟨written, lexed, whole⟩ := readTokens_ok_iff.mp read
    have lexes : Lexes (normalize t) ((completeCalls written).map Token.lexeme) :=
      (lexes_normalize_iff unbroken (Parser.sentence_of_whole whole)).mpr ⟨written, lexed, rfl⟩
    obtain ⟨tokens, lexed', same⟩ := lexes_iff.mp lexes
    rw [parse, lexed']
    exact Parser.whole_relocates same whole

theorem not_breaksCall {t : Text}
    (plain : ∀ u ∈ t, Lexer.isSpace u = true → u = 0x20 ∨ u = 0x09) : ¬ BreaksCall t := by
  rintro ⟨before, blanks, behind, rfl, _, _, lineEnd⟩
  rcases lineEnd with member | member
  · have listed := plain 0x0A (by simp [member]) rfl
    revert listed
    decide
  · have listed := plain 0x0D (by simp [member]) rfl
    revert listed
    decide

/-- In a text with spaces and tabs for white space, preparing the text is preparing the tokens. -/
theorem Session.parse_reads_tokens (s : Session) {t : Text}
    (plain : ∀ u ∈ t, Lexer.isSpace u = true → u = 0x20 ∨ u = 0x09) :
    (s.parse t).toOption.map Expr.unplaced = (readTokens t).toOption.map Expr.unplaced :=
  readTokens_of_unbroken (not_breaksCall plain)

/-- A caret and a bare name side by side, which the prepared text has as a power sign and a call. -/
theorem Session.power_of_memory_reads_tokens :
    (∀ u ∈ ("2\t^mem" : Text), Lexer.isSpace u = true → u = 0x20 ∨ u = 0x09) ∧
    ((⟨.degrees, .zero⟩ : Session).parse "2\t^mem").toOption.map Expr.unplaced =
      (readTokens "2\t^mem").toOption.map Expr.unplaced ∧
    (readTokens "2\t^mem").toOption.isSome = true ∧
    (tokenizeCarets "2\t^mem").toOption.map (fun tokens => (completeCalls tokens).map Token.lexeme) =
      some [.number "2", .operator .power, .name "mem", .leftParen, .rightParen] := by
  have plain : ∀ u ∈ ("2\t^mem" : Text), Lexer.isSpace u = true → u = 0x20 ∨ u = 0x09 := by
    have units : ("2\t^mem" : Text) = [0x32, 0x09, 0x5E, 0x6D, 0x65, 0x6D] := rfl
    simp [units, Lexer.isSpace]
  exact ⟨plain, parse_reads_tokens _ plain, by decide +kernel, by decide +kernel⟩

end Calculator
