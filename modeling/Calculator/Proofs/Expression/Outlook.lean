import Calculator.Proofs.Expression.Relocation

/-!
What may come next in an expression. Read from left to right, an expression alternates between operands
and operators within its brackets, and any operator may stand between two operands: precedence decides
how they group and never whether they may follow each other. So the open brackets and the last word tell
which words can come next.
-/
namespace Calculator

inductive Bracket where
  | group
  | arguments
  | elements
  deriving DecidableEq

namespace Bracket

def closing : Bracket → Lexeme
  | group => .rightParen
  | arguments => .rightParen
  | elements => .rightBracket

/-- Whether it encloses items, which commas part and of which there may be none. -/
def holdsItems : Bracket → Bool
  | group => false
  | arguments => true
  | elements => true

end Bracket

/-- What is awaited: an operand, one that may be missing before a closing bracket, what may stand behind
an operand, or the same behind a name, which can be called. -/
inductive Awaited where
  | operand
  | item
  | operator
  | call
  deriving DecidableEq

/-- What is awaited behind an operand that ends in the word. -/
def Awaited.behind : Lexeme → Awaited
  | .name _ => call
  | _ => operator

structure Outlook where
  awaited : Awaited
  brackets : List Bracket
  deriving DecidableEq

namespace Outlook

def closes : List Bracket → Lexeme → Option Outlook
  | [], _ => none
  | bracket :: outer, lexeme => if lexeme = bracket.closing then some ⟨.operator, outer⟩ else none

def begins (brackets : List Bracket) : Lexeme → Option Outlook
  | .number _ => some ⟨.operator, brackets⟩
  | .name _ => some ⟨.call, brackets⟩
  | .leftParen => some ⟨.operand, .group :: brackets⟩
  | .leftBracket => some ⟨.item, .elements :: brackets⟩
  | .operator .plus => some ⟨.operand, brackets⟩
  | .operator .minus => some ⟨.operand, brackets⟩
  | _ => none

def goesOn (brackets : List Bracket) : Lexeme → Option Outlook
  | .operator _ => some ⟨.operand, brackets⟩
  | .comma => if brackets.head?.any Bracket.holdsItems then some ⟨.item, brackets⟩ else none
  | lexeme => closes brackets lexeme

/-- The outlook behind one more word, if that word may come next. -/
def next : Outlook → Lexeme → Option Outlook
  | ⟨.operand, brackets⟩, lexeme => begins brackets lexeme
  | ⟨.item, brackets⟩, lexeme => (closes brackets lexeme).or (begins brackets lexeme)
  | ⟨.operator, brackets⟩, lexeme => goesOn brackets lexeme
  | ⟨.call, brackets⟩, .leftParen => some ⟨.item, .arguments :: brackets⟩
  | ⟨.call, brackets⟩, lexeme => goesOn brackets lexeme

/-- The outlook behind more words, as long as each may come next. -/
def after (start : Outlook) (lexemes : List Lexeme) : Option Outlook :=
  lexemes.foldlM next start

def initial : Outlook :=
  ⟨.operand, []⟩

theorem after_nil (start : Outlook) : start.after [] = some start := rfl

theorem after_cons {start mid : Outlook} {lexeme : Lexeme} (step : start.next lexeme = some mid)
    (rest : List Lexeme) : start.after (lexeme :: rest) = mid.after rest := by
  simp [after, step]

theorem after_append {start mid : Outlook} {first : List Lexeme} (run : start.after first = some mid)
    (second : List Lexeme) : start.after (first ++ second) = mid.after second := by
  have run' : first.foldlM next start = some mid := run
  simp [after, List.foldlM_append, run']

theorem after_stuck {start : Outlook} {first : List Lexeme} (run : start.after first = none)
    (second : List Lexeme) : start.after (first ++ second) = none := by
  have run' : first.foldlM next start = none := run
  simp [after, List.foldlM_append, run']

theorem after_refused {start mid : Outlook} {first : List Lexeme} {lexeme : Lexeme}
    (run : start.after first = some mid) (refused : mid.next lexeme = none) (rest : List Lexeme) :
    start.after (first ++ lexeme :: rest) = none := by
  rw [after_append run]
  simp [after, refused]

theorem after_cons_eq_some {start o : Outlook} {lexeme : Lexeme} {rest : List Lexeme}
    (run : start.after (lexeme :: rest) = some o) :
    ∃ mid, start.next lexeme = some mid ∧ mid.after rest = some o := by
  cases step : start.next lexeme with
  | none => simp [after, step] at run
  | some mid =>
    rw [after_cons step] at run
    exact ⟨mid, rfl, run⟩

/-- A run passes through the outlook before each word and the one behind it. -/
theorem after_eq_some {start o : Outlook} {first rest : List Lexeme} {lexeme : Lexeme}
    (run : start.after (first ++ lexeme :: rest) = some o) :
    ∃ before behind, start.after first = some before ∧ before.next lexeme = some behind ∧
      behind.after rest = some o := by
  cases here : start.after first with
  | none => cases (after_stuck here _).symm.trans run
  | some before =>
    rw [after_append here] at run
    obtain ⟨behind, step, later⟩ := after_cons_eq_some run
    exact ⟨before, behind, rfl, step, later⟩

/-- Behind an operand the word that it ends in makes a difference for a parenthesis only. -/
theorem next_behind {last lexeme : Lexeme} (brackets : List Bracket) (other : lexeme ≠ .leftParen) :
    next ⟨.behind last, brackets⟩ lexeme = goesOn brackets lexeme := by
  cases last with
  | name text => cases lexeme <;> first | rfl | contradiction
  | _ => rfl

theorem closes_closing (bracket : Bracket) (outer : List Bracket) :
    closes (bracket :: outer) bracket.closing = some ⟨.operator, outer⟩ := by
  simp [closes]

theorem goesOn_closing (bracket : Bracket) (outer : List Bracket) :
    goesOn (bracket :: outer) bracket.closing = some ⟨.operator, outer⟩ := by
  cases bracket <;> rfl

theorem closes_awaited {brackets : List Bracket} {lexeme : Lexeme} {o : Outlook}
    (step : closes brackets lexeme = some o) : o.awaited = .operator := by
  unfold closes at step
  split at step
  · cases step
  · split at step <;> cases step
    rfl

theorem closes_leftParen (brackets : List Bracket) : closes brackets .leftParen = none := by
  cases brackets with
  | nil => rfl
  | cons bracket outer => cases bracket <;> rfl

theorem next_rightParen {start o : Outlook} (step : start.next .rightParen = some o) :
    o.awaited = .operator := by
  obtain ⟨awaited, brackets⟩ := start
  cases awaited with
  | operand => cases step
  | item =>
    rcases Option.or_eq_some_iff.mp step with closed | ⟨_, began⟩
    · exact closes_awaited closed
    · cases began
  | _ => exact closes_awaited step

theorem closes_begins (brackets : List Bracket) {lexeme : Lexeme} (begin : lexeme.Begins) :
    closes brackets lexeme = none := by
  cases brackets with
  | nil => rfl
  | cons bracket outer =>
    have other : lexeme ≠ bracket.closing := by
      rintro rfl
      cases bracket <;> simp [Bracket.closing, Lexeme.Begins, Lexeme.BeginsPrimary] at begin
    simp [closes, other]

theorem after_item (brackets : List Bracket) {lexeme : Lexeme} (begin : lexeme.Begins)
    (rest : List Lexeme) :
    after ⟨.item, brackets⟩ (lexeme :: rest) = after ⟨.operand, brackets⟩ (lexeme :: rest) := by
  simp [after, next, closes_begins brackets begin]

end Outlook

open Outlook

def Items.lexemes (items : Items) : List Lexeme :=
  items.tokens.map Token.lexeme

namespace Phrase

theorem lexemes_group (opening closing : Span) (p : Phrase) :
    (group opening closing p).lexemes = .leftParen :: (p.lexemes ++ [.rightParen]) := by
  simp [lexemes, group]

theorem lexemes_call (text : Text) (range opening closing : Span) (args : Items) :
    (call text range opening closing args).lexemes =
      .name text :: .leftParen :: (args.lexemes ++ [.rightParen]) := by
  simp [lexemes, Items.lexemes, call]

theorem lexemes_list (opening closing : Span) (elements : Items) :
    (list opening closing elements).lexemes = .leftBracket :: (elements.lexemes ++ [.rightBracket]) := by
  simp [lexemes, Items.lexemes, list]

theorem lexemes_signed (negative : Bool) (range : Span) (p : Phrase) :
    (signed negative range p).lexemes =
      .operator (if negative then .minus else .plus) :: p.lexemes := rfl

theorem lexemes_operation (left : Phrase) (op : Operator) (range : Span) (right : Phrase) :
    (left.operation op range right).lexemes = left.lexemes ++ .operator op :: right.lexemes := by
  simp [lexemes, operation]

/-- Behind a phrase the brackets around it are open as before. -/
structure Passes (p : Phrase) : Prop where
  begins : p.BeginsWith Lexeme.Begins
  behind : ∃ last, p.tokens.getLast? = some last ∧
    ∀ brackets, after ⟨.operand, brackets⟩ p.lexemes = some ⟨.behind last.lexeme, brackets⟩

namespace Passes

variable {p q : Phrase}

theorem followed (passes : p.Passes) (brackets : List Bracket) {lexeme : Lexeme}
    (other : lexeme ≠ .leftParen) (rest : List Lexeme) :
    after ⟨.operand, brackets⟩ (p.lexemes ++ lexeme :: rest) =
      (goesOn brackets lexeme).bind fun mid => mid.after rest := by
  obtain ⟨last, _, run⟩ := passes.behind
  rw [after_append (run brackets)]
  simp only [after, List.foldlM_cons, next_behind brackets other]
  rfl

theorem item (passes : p.Passes) (brackets : List Bracket) (rest : List Lexeme) :
    after ⟨.item, brackets⟩ (p.lexemes ++ rest) = after ⟨.operand, brackets⟩ (p.lexemes ++ rest) := by
  obtain ⟨token, behind, span, begin⟩ := passes.begins
  rw [Phrase.lexemes, span]
  exact after_item brackets begin _

theorem items {items : Items} (each : ∀ p ∈ items.phrases, p.Passes) {bracket : Bracket}
    (holds : bracket.holdsItems = true) (outer : List Bracket) :
    after ⟨.item, bracket :: outer⟩ (items.lexemes ++ [bracket.closing]) =
      some ⟨.operator, outer⟩ := by
  have plain : bracket.closing ≠ .leftParen := by cases bracket <;> simp [Bracket.closing]
  induction items with
  | none => simp [Items.lexemes, Items.tokens, after, next, closes_closing]
  | last item =>
    have run := each item (by simp [Items.phrases])
    rw [Items.lexemes, Items.tokens, ← Phrase.lexemes, run.item, run.followed _ plain, goesOn_closing]
    rfl
  | more item comma rest ih =>
    simp only [Items.phrases, List.mem_cons, forall_eq_or_imp] at each
    have shape : (Items.more item comma rest).lexemes ++ [bracket.closing] =
        item.lexemes ++ .comma :: (rest.lexemes ++ [bracket.closing]) := by
      simp [Items.lexemes, Items.tokens, Phrase.lexemes]
    rw [shape, each.1.item, each.1.followed _ (by simp)]
    simpa [goesOn, holds] using ih each.2

theorem number (raw : Text) (range : Span) : (Phrase.number raw range).Passes :=
  ⟨⟨_, _, rfl, .inl trivial⟩, _, rfl, fun _ => rfl⟩

theorem name (text : Text) (range : Span) : (Phrase.name text range).Passes :=
  ⟨⟨_, _, rfl, .inl trivial⟩, _, rfl, fun _ => rfl⟩

theorem group (passes : p.Passes) (opening closing : Span) :
    (Phrase.group opening closing p).Passes := by
  refine ⟨⟨_, _, rfl, .inl trivial⟩, ⟨.rightParen, closing⟩,
    by simp [Phrase.group, List.getLast?_cons], fun brackets => ?_⟩
  have opened : next ⟨.operand, brackets⟩ .leftParen = some ⟨.operand, .group :: brackets⟩ := rfl
  rw [Phrase.lexemes_group, after_cons opened]
  exact passes.followed (.group :: brackets) (by simp) []

theorem call {args : Items} (each : ∀ p ∈ args.phrases, p.Passes) (text : Text)
    (range opening closing : Span) : (Phrase.call text range opening closing args).Passes := by
  refine ⟨⟨_, _, rfl, .inl trivial⟩, ⟨.rightParen, closing⟩,
    by simp [Phrase.call, List.getLast?_cons], fun brackets => ?_⟩
  have called : next ⟨.operand, brackets⟩ (.name text) = some ⟨.call, brackets⟩ := rfl
  have opened : next ⟨.call, brackets⟩ .leftParen = some ⟨.item, .arguments :: brackets⟩ := rfl
  rw [Phrase.lexemes_call, after_cons called, after_cons opened]
  exact items each (rfl : Bracket.arguments.holdsItems = true) brackets

theorem list {elements : Items} (each : ∀ p ∈ elements.phrases, p.Passes)
    (opening closing : Span) : (Phrase.list opening closing elements).Passes := by
  refine ⟨⟨_, _, rfl, .inl trivial⟩, ⟨.rightBracket, closing⟩,
    by simp [Phrase.list, List.getLast?_cons], fun brackets => ?_⟩
  have opened : next ⟨.operand, brackets⟩ .leftBracket = some ⟨.item, .elements :: brackets⟩ := rfl
  rw [Phrase.lexemes_list, after_cons opened]
  exact items each (rfl : Bracket.elements.holdsItems = true) brackets

theorem signed (passes : p.Passes) (negative : Bool) (range : Span) :
    (Phrase.signed negative range p).Passes := by
  obtain ⟨last, ends, run⟩ := passes.behind
  refine ⟨⟨_, _, rfl, .inr (by cases negative <;> simp)⟩, last, ?_, fun brackets => ?_⟩
  · simp [Phrase.signed, List.getLast?_cons, ends]
  · have sign : next ⟨.operand, brackets⟩ (.operator (if negative then .minus else .plus)) =
        some ⟨.operand, brackets⟩ := by cases negative <;> rfl
    rw [Phrase.lexemes_signed, after_cons sign]
    exact run brackets

theorem operation (left : p.Passes) (right : q.Passes) (op : Operator) (range : Span) :
    (p.operation op range q).Passes := by
  obtain ⟨last, ends, run⟩ := right.behind
  obtain ⟨token, rest, span, begin⟩ := left.begins
  refine ⟨⟨token, _, by simp [Phrase.operation, span]; rfl, begin⟩, last, ?_, fun brackets => ?_⟩
  · simp [Phrase.operation, List.getLast?_cons, ends]
  · rw [Phrase.lexemes_operation, left.followed brackets (by simp)]
    exact run brackets

end Passes

end Phrase

theorem Derives.passes {c : Category} {p : Phrase} (derives : Derives c p) : p.Passes :=
  phrase_induction Phrase.Passes.number Phrase.Passes.name
    (fun opening closing _ inner => inner.group opening closing)
    (fun text range opening closing _ each => Phrase.Passes.call each text range opening closing)
    (fun opening closing _ each => Phrase.Passes.list each opening closing)
    (fun negative range _ inner => inner.signed negative range)
    (fun _ op range _ left right => left.operation right op range) derives

end Calculator
