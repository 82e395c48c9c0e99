import Mathlib.Data.List.Forall2
import Calculator.Proofs.Expression.Relocation

/-!
Texts put together as phrases are: what encloses a text, or stands between two, does not run into it, so
the whole falls into the words of the larger phrase.
-/
namespace Calculator

theorem parted_cons {u : CodeUnit} (alone : Lexer.isPart u = false) (t : Text) : Parted (u :: t) := by
  intro v member
  obtain rfl : u = v := by simpa using member
  exact alone

/-- The text of the word is read as this one word. -/
def Lexeme.ReadsBack (lexeme : Lexeme) : Prop :=
  tokenize lexeme.text = .ok [⟨lexeme, ⟨0, lexeme.text.length⟩⟩]

instance (lexeme : Lexeme) : Decidable lexeme.ReadsBack :=
  inferInstanceAs (Decidable (_ = _))

theorem Lexeme.ReadsBack.lexes {lexeme : Lexeme} (back : lexeme.ReadsBack) :
    Lexes lexeme.text [lexeme] :=
  lexes_iff.mpr ⟨_, back, rfl⟩

theorem Operator.readsBack (op : Operator) : (Lexeme.operator op).ReadsBack := by
  cases op <;> rfl

section Marks

variable {t : Text} {lexemes : List Lexeme} (rest : Lexes t lexemes)
include rest

theorem lexes_leftParen : Lexes ("(" ++ t) (.leftParen :: lexemes) :=
  .lexeme rfl rfl rest

theorem lexes_rightParen : Lexes (")" ++ t) (.rightParen :: lexemes) :=
  .lexeme rfl rfl rest

theorem lexes_leftBracket : Lexes ("[" ++ t) (.leftBracket :: lexemes) :=
  .lexeme rfl rfl rest

theorem lexes_rightBracket : Lexes ("]" ++ t) (.rightBracket :: lexemes) :=
  .lexeme rfl rfl rest

theorem lexes_comma : Lexes (", " ++ t) (.comma :: lexemes) :=
  .lexeme rfl rfl (.space rfl rest)

theorem lexes_sign (negative : Bool) :
    Lexes ((if negative then UnaryOp.minus else UnaryOp.plus).symbol ++ t)
      (.operator (if negative then .minus else .plus) :: lexemes) := by
  cases negative
  · exact .lexeme rfl rfl rest
  · exact .lexeme rfl rfl rest

theorem lexes_operator (op : Operator) :
    Lexes (" " ++ op.symbol ++ " " ++ t) (.operator op :: lexemes) := by
  have spaced : Lexes (0x20 :: t) lexemes := .space rfl rest
  have word := op.readsBack.lexes.append spaced (parted_cons rfl t)
  have whole : Lexes (0x20 :: (op.symbol ++ 0x20 :: t)) (.operator op :: lexemes) := .space rfl word
  rw [List.append_assoc, List.append_assoc]
  exact whole

end Marks

/-- Phrases with commas between them, and none behind the last. -/
def Items.ofPhrases : List Phrase → Items
  | [] => .none
  | [p] => .last p
  | p :: rest => .more p default (ofPhrases rest)

theorem Items.phrases_ofPhrases (ps : List Phrase) : (ofPhrases ps).phrases = ps := by
  induction ps with
  | nil => rfl
  | cons p rest ih =>
    cases rest with
    | nil => rfl
    | cons q rest => exact congrArg (p :: ·) ih

theorem Items.nesting_ofPhrases_cons (p : Phrase) (rest : List Phrase) :
    (ofPhrases (p :: rest)).nesting = max p.nesting (ofPhrases rest).nesting := by
  cases rest with
  | nil => exact (Nat.max_zero _).symm
  | cons q rest => rfl

section Phrases

variable {s t text : Text} {p q : Phrase} {ts : List Text} {ps : List Phrase}

theorem lexes_group (opening closing : Span) (inner : Lexes t p.lexemes) :
    Lexes ("(" ++ t ++ ")") (Phrase.group opening closing p).lexemes := by
  have closed := inner.append (lexes_rightParen .nil) (parted_cons rfl [])
  simpa [Phrase.lexemes, Phrase.group] using lexes_leftParen closed

theorem lexes_signed (negative : Bool) (range : Span) (operand : Lexes t p.lexemes) :
    Lexes ((if negative then UnaryOp.minus else UnaryOp.plus).symbol ++ t)
      (Phrase.signed negative range p).lexemes :=
  lexes_sign operand negative

theorem lexes_operation (op : Operator) (range : Span) (left : Lexes s p.lexemes)
    (right : Lexes t q.lexemes) :
    Lexes (s ++ " " ++ op.symbol ++ " " ++ t) (p.operation op range q).lexemes := by
  have whole := left.append (lexes_operator right op) (parted_cons rfl _)
  simpa [Phrase.lexemes, Phrase.operation] using whole

theorem lexes_join (each : List.Forall₂ (fun t p => Lexes t p.lexemes) ts ps) :
    Lexes (Text.join ", " ts) ((Items.ofPhrases ps).tokens.map Token.lexeme) := by
  induction each with
  | nil => exact .nil
  | @cons t p ts ps first rest ih =>
    cases rest with
    | nil => exact first
    | cons second rest =>
      have whole := first.append (lexes_comma ih) (parted_cons rfl _)
      simpa [Text.join, Items.ofPhrases, Items.tokens, Phrase.lexemes] using whole

theorem lexes_call (range opening closing : Span) (name : (Lexeme.name text).ReadsBack)
    (args : List.Forall₂ (fun t p => Lexes t p.lexemes) ts ps) :
    Lexes (text ++ "(" ++ Text.join ", " ts ++ ")")
      (Phrase.call text range opening closing (.ofPhrases ps)).lexemes := by
  have closed := (lexes_join args).append (lexes_rightParen .nil) (parted_cons rfl [])
  have whole := name.lexes.append (lexes_leftParen closed) (parted_cons rfl _)
  simpa [Phrase.lexemes, Phrase.call, Lexeme.text] using whole

theorem lexes_list (opening closing : Span)
    (elements : List.Forall₂ (fun t p => Lexes t p.lexemes) ts ps) :
    Lexes ("[" ++ Text.join ", " ts ++ "]") (Phrase.list opening closing (.ofPhrases ps)).lexemes := by
  have closed := (lexes_join elements).append (lexes_rightBracket .nil) (parted_cons rfl [])
  simpa [Phrase.lexemes, Phrase.list] using lexes_leftBracket closed

end Phrases

end Calculator
