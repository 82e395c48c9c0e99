import Calculator.Proofs.Expression.Continuation

/-!
Where the reader complains. What it has taken by then is read as the outlook reads it, and the next word
is one that the outlook refuses; at the end of the text, the outlook does not allow an end. Neither the
limits on nesting and depth nor those on literals are complaints of this kind.
-/
namespace Calculator

/-- The text exceeds a limit of the reader, whatever the grammar makes of it. -/
def SyntaxCause.ExceedsLimit : SyntaxCause → Prop
  | tooDeep => True
  | numberOutOfRange _ => True
  | _ => False

namespace Outlook

def Refuses (o : Outlook) : List Token → Prop
  | [] => ¬ o.Final
  | token :: _ => o.next token.lexeme = none

theorem refuses_of_bracket (awaited : Awaited) (bracket : Bracket) (outer : List Bracket)
    {tokens : List Token}
    (none : ∀ token ∈ tokens.head?, next ⟨awaited, bracket :: outer⟩ token.lexeme = none) :
    Refuses ⟨awaited, bracket :: outer⟩ tokens := by
  cases tokens with
  | nil => exact fun final => List.cons_ne_nil _ _ final.1
  | cons token rest => exact none token rfl

end Outlook

open Outlook

/-- The place is that of the first token that cannot come next, or of the end if more has to come. -/
def StuckAt (start : Outlook) (stop : Nat) (tokens : List Token) (place : Span) : Prop :=
  ∃ consumed rest o, tokens = consumed ++ rest ∧ place = Parser.place stop rest ∧
    start.after (consumed.map Token.lexeme) = some o ∧ o.Refuses rest

namespace StuckAt

variable {start mid : Outlook} {stop : Nat} {tokens : List Token} {place : Span}

theorem here (refuses : start.Refuses tokens) : StuckAt start stop tokens (Parser.place stop tokens) :=
  ⟨[], tokens, start, rfl, rfl, rfl, refuses⟩

theorem behind (stuck : StuckAt mid stop tokens place) {taken : List Token}
    (run : start.after (taken.map Token.lexeme) = some mid) :
    StuckAt start stop (taken ++ tokens) place := by
  obtain ⟨consumed, rest, o, rfl, same, later, refuses⟩ := stuck
  refine ⟨taken ++ consumed, rest, o, by simp, same, ?_, refuses⟩
  rw [List.map_append, after_append run]
  exact later

theorem behind_token (stuck : StuckAt mid stop tokens place) {token : Token}
    (step : start.next token.lexeme = some mid) : StuckAt start stop (token :: tokens) place := by
  have run : start.after ([token].map Token.lexeme) = some mid := after_cons step []
  exact stuck.behind run

theorem behind_phrase (stuck : StuckAt mid stop tokens place) {p : Phrase} {token : Token}
    (run : start.after (p.lexemes ++ [token.lexeme]) = some mid) :
    StuckAt start stop (p.tokens ++ token :: tokens) place := by
  have lexemes : (p.tokens ++ [token]).map Token.lexeme = p.lexemes ++ [token.lexeme] := by
    simp [Phrase.lexemes]
  have whole := stuck.behind (lexemes ▸ run)
  simpa using whole

theorem item {bracket : Bracket} {outer : List Bracket}
    (stuck : StuckAt ⟨.operand, bracket :: outer⟩ stop tokens place)
    (inside : Parser.closing? bracket.closing tokens = none) :
    StuckAt ⟨.item, bracket :: outer⟩ stop tokens place := by
  have alike : ∀ token ∈ tokens.head?, next ⟨.item, bracket :: outer⟩ token.lexeme =
      next ⟨.operand, bracket :: outer⟩ token.lexeme := by
    intro token first
    cases tokens with
    | nil => cases first
    | cons head rest =>
      obtain rfl : head = token := by simpa using first
      have other : head.lexeme ≠ bracket.closing := by simpa [Parser.closing?] using inside
      simp [next, closes, other]
  obtain ⟨consumed, rest, o, rfl, rfl, run, refuses⟩ := stuck
  cases consumed with
  | nil =>
    cases run
    refine here (refuses_of_bracket _ _ _ fun token first => ?_)
    rw [alike token first]
    cases rest with
    | nil => cases first
    | cons head behind =>
      obtain rfl : head = token := by simpa using first
      exact refuses
  | cons token consumed =>
    refine ⟨token :: consumed, rest, o, rfl, rfl, ?_, refuses⟩
    simp only [List.map_cons, after, List.foldlM_cons] at run ⊢
    rwa [alike token rfl]

end StuckAt

/-- Behind an expression nothing comes that the reader would have drawn in, so what is refused is what
neither parts items nor closes the bracket. -/
theorem refuses_behind {c : Category} {p : Phrase} {rest : List Token} (derives : Derives c p)
    (leaves : Leaves 1 p rest) {brackets : List Bracket}
    (comma : ∀ bracket ∈ brackets.head?, bracket.holdsItems = true → Parser.closing? .comma rest = none)
    (closing : ∀ bracket ∈ brackets.head?, Parser.closing? bracket.closing rest = none)
    (more : brackets ≠ [] ∨ rest ≠ []) :
    ∃ o, after ⟨.operand, brackets⟩ p.lexemes = some o ∧ o.Refuses rest := by
  obtain ⟨last, ends, run⟩ := derives.passes.behind
  refine ⟨_, run brackets, ?_⟩
  cases rest with
  | nil =>
    rintro ⟨none, _⟩
    exact more.elim (fun some => some none) fun some => some rfl
  | cons token behind =>
    obtain ⟨lexeme, range⟩ := token
    have unclosed : closes brackets lexeme = none := by
      cases brackets with
      | nil => rfl
      | cons bracket outer =>
        have other : lexeme ≠ bracket.closing := by
          simpa [Parser.closing?] using closing bracket (by simp)
        simp [closes, other]
    by_cases opening : lexeme = .leftParen
    · subst opening
      -- behind a name it would have been taken as a call
      obtain ⟨final, place⟩ := last
      cases final with
      | name text =>
        have called := leaves.uncalled ⟨text, place, ends⟩
        simp [Parser.closing?] at called
      | _ => exact unclosed
    · have step : next ⟨.behind last.lexeme, brackets⟩ lexeme = goesOn brackets lexeme :=
        next_behind brackets opening
      refine step.trans ?_
      cases lexeme with
      | operator op =>
        have weak : op.level < 1 := leaves.stops
        have tight : 1 ≤ op.level := by cases op <;> decide
        omega
      | comma =>
        cases brackets with
        | nil => rfl
        | cons bracket outer =>
          cases items : bracket.holdsItems with
          | false => simp [goesOn, items]
          | true =>
            have parts := comma bracket (by simp) items
            simp [Parser.closing?] at parts
      | _ => exact unclosed

namespace Parser

/-- A reader that complains within the grammar does so where the outlook refuses. -/
def GetsStuck (stop : Nat) (operand : Nat → List Token → Reading Expr) : Prop :=
  ∀ level tokens e, level ≤ 3 → operand level tokens = .error e → ¬ e.cause.ExceedsLimit →
    ∀ brackets, StuckAt ⟨.operand, brackets⟩ stop tokens e.range

/-- Items that end in front of something else than the closing token count as a complaint. -/
def ItemsStuck (start : Outlook) (stop : Nat) (closing : Lexeme) (tokens : List Token) :
    Reading (List Expr) → Prop
  | .error e => ¬ e.cause.ExceedsLimit → StuckAt start stop tokens e.range
  | .ok (_, rest) => closing? closing rest = none → StuckAt start stop tokens (place stop rest)

theorem accept_error {stop : Nat} {node : Expr} {rest : List Token} {e : SyntaxError}
    (refused : accept stop node rest = .error e) : e.cause.ExceedsLimit := by
  unfold accept at refused
  split at refused
  · cases refused
    trivial
  · cases refused

section Readers

variable {room stop : Nat} {operand : Nat → List Token → Reading Expr}
  (reads : ReadsPhrases room operand) (stuck : GetsStuck stop operand)
include reads stuck

theorem items_stuck {bracket : Bracket} (holds : bracket.holdsItems = true) (outer : List Bracket)
    {fuel : Nat} {tokens : List Token} (enough : tokens.length < fuel) :
    ItemsStuck ⟨.item, bracket :: outer⟩ stop bracket.closing tokens
      (items (operand 1) bracket.closing fuel tokens) := by
  induction fuel generalizing tokens with
  | zero => omega
  | succ fuel ih =>
    cases closed : closing? bracket.closing tokens with
    | some found => simp [items, closed, ItemsStuck]
    | none =>
      cases first : operand 1 tokens with
      | error e =>
        simp only [items, closed, first, Option.isSome_none, Bool.false_eq_true, if_false]
        intro inGrammar
        exact (stuck 1 tokens e (by decide) first inGrammar (bracket :: outer)).item closed
      | ok result =>
        obtain ⟨item, behind⟩ := result
        obtain ⟨c, p, derives, _, _, rfl, _, leaves⟩ := reads 1 _ _ _ (by decide) first
        have passes := derives.passes
        cases comma : closing? .comma behind with
        | none =>
          simp only [items, closed, first, comma, Option.isSome_none, Bool.false_eq_true, if_false]
          intro missing
          have nothing : ∀ inner ∈ (bracket :: outer).head?, closing? inner.closing behind = none := by
            simpa using missing
          obtain ⟨o, run, refuses⟩ :=
            refuses_behind derives leaves (fun _ _ _ => comma) nothing (.inl (by simp))
          have item := passes.item (bracket :: outer) []
          rw [List.append_nil, run] at item
          exact (StuckAt.here refuses).behind item
        | some found =>
          obtain ⟨last, tail⟩ := found
          obtain ⟨range, rfl, _⟩ := closing_some comma
          simp only [items, closed, first, comma, Option.isSome_none, Bool.false_eq_true, if_false]
          have fewer : tail.length < fuel := by
            simp only [List.length_append, List.length_cons] at enough
            omega
          have run : after ⟨.item, bracket :: outer⟩ (p.lexemes ++ [.comma]) =
              some ⟨.item, bracket :: outer⟩ := by
            rw [passes.item, passes.followed _ (by simp)]
            simp [goesOn, holds, after_nil]
          have rest := ih fewer
          cases second : items (operand 1) bracket.closing fuel tail with
          | error e =>
            rw [second] at rest
            exact fun inGrammar => (rest inGrammar).behind_phrase run
          | ok more =>
            rw [second] at rest
            exact fun missing => (rest missing).behind_phrase run

theorem closedItems_stuck {bracket : Bracket} (holds : bracket.holdsItems = true)
    (outer : List Bracket) {missing : SyntaxCause} {tokens : List Token} {e : SyntaxError}
    (refused : closedItems (operand 1) stop bracket.closing missing tokens = .error e)
    (inGrammar : ¬ e.cause.ExceedsLimit) :
    StuckAt ⟨.item, bracket :: outer⟩ stop tokens e.range := by
  have whole := items_stuck reads stuck holds outer (Nat.lt_succ_self tokens.length)
  unfold closedItems at refused
  split at refused
  · rename_i first
    cases refused
    rw [first] at whole
    exact whole inGrammar
  · rename_i first
    rw [first] at whole
    split at refused
    · rename_i absent
      cases refused
      exact whole absent
    · cases refused

omit reads in
theorem signed_stuck (negative : Bool) {range : Span} {tokens : List Token} {e : SyntaxError}
    (refused : (match operand Operator.signLevel tokens with
      | .error e => .error e
      | .ok (inner, rest) => accept stop (.unary (if negative then .minus else .plus) inner
          ⟨range.start, inner.range.stop⟩) rest : Reading Expr) = .error e)
    (inGrammar : ¬ e.cause.ExceedsLimit) (brackets : List Bracket) :
    StuckAt ⟨.operand, brackets⟩ stop
      (⟨.operator (if negative then .minus else .plus), range⟩ :: tokens) e.range := by
  have step : next ⟨.operand, brackets⟩ (.operator (if negative then .minus else .plus)) =
      some ⟨.operand, brackets⟩ := by cases negative <;> rfl
  split at refused
  · rename_i first
    cases refused
    have inner := stuck Operator.signLevel tokens _ (by decide) first inGrammar brackets
    exact inner.behind_token step
  · exact (inGrammar (accept_error refused)).elim

theorem primary_stuck {tokens : List Token} {e : SyntaxError}
    (refused : primary operand stop tokens = .error e) (inGrammar : ¬ e.cause.ExceedsLimit)
    (brackets : List Bracket) : StuckAt ⟨.operand, brackets⟩ stop tokens e.range := by
  cases tokens with
  | nil =>
    cases refused
    refine StuckAt.here ?_
    rintro ⟨_, awaited⟩
    simp at awaited
  | cons token rest =>
    obtain ⟨lexeme, range⟩ := token
    cases lexeme with
    | number raw =>
      simp only [primary] at refused
      split at refused
      · cases refused
      · cases refused
        exact (inGrammar trivial).elim
    | name text =>
      simp only [primary] at refused
      split at refused
      · cases refused
      · rename_i last inner found
        obtain ⟨opening, rfl, _⟩ := closing_some found
        have name : next ⟨.operand, brackets⟩ (.name text) = some ⟨.call, brackets⟩ := rfl
        have open_ : next ⟨.call, brackets⟩ .leftParen = some ⟨.item, .arguments :: brackets⟩ := rfl
        split at refused
        · rename_i closed
          cases refused
          have args := closedItems_stuck reads stuck (rfl : Bracket.arguments.holdsItems = true) brackets
            closed inGrammar
          exact (args.behind_token open_).behind_token name
        · exact (inGrammar (accept_error refused)).elim
    | leftParen =>
      have step : next ⟨.operand, brackets⟩ .leftParen = some ⟨.operand, .group :: brackets⟩ := rfl
      simp only [primary] at refused
      split at refused
      · rename_i first
        cases refused
        have inner := stuck 1 rest _ (by decide) first inGrammar (.group :: brackets)
        exact inner.behind_token step
      · rename_i inner behind first
        split at refused
        · rename_i missing
          cases refused
          obtain ⟨c, p, derives, _, _, rfl, _, leaves⟩ := reads 1 _ _ _ (by decide) first
          have nothing : ∀ bracket ∈ (Bracket.group :: brackets).head?,
              closing? bracket.closing behind = none := by simpa [Bracket.closing] using missing
          obtain ⟨o, run, refuses⟩ :=
            refuses_behind derives leaves (by simp [Bracket.holdsItems]) nothing (.inl (by simp))
          exact ((StuckAt.here refuses).behind run).behind_token step
        · cases refused
    | leftBracket =>
      have step : next ⟨.operand, brackets⟩ .leftBracket = some ⟨.item, .elements :: brackets⟩ := rfl
      simp only [primary] at refused
      split at refused
      · rename_i closed
        cases refused
        have elements := closedItems_stuck reads stuck (rfl : Bracket.elements.holdsItems = true)
          brackets closed inGrammar
        exact elements.behind_token step
      · exact (inGrammar (accept_error refused)).elim
    | operator op =>
      cases op with
      | minus => exact signed_stuck stuck true refused inGrammar brackets
      | plus => exact signed_stuck stuck false refused inGrammar brackets
      | _ =>
        cases refused
        exact StuckAt.here rfl
    | _ =>
      cases refused
      exact StuckAt.here rfl

theorem climb_stuck {level fuel : Nat} {left : Phrase} {c : Category} {tokens : List Token}
    {e : SyntaxError} (derives : Derives c left) (leaves : Leaves (c.level + 1) left tokens)
    (enough : tokens.length ≤ fuel)
    (refused : climb operand stop level fuel left.tree tokens = .error e)
    (inGrammar : ¬ e.cause.ExceedsLimit) (brackets : List Bracket) :
    StuckAt ⟨.operand, brackets⟩ stop (left.tokens ++ tokens) e.range := by
  induction fuel generalizing left c tokens with
  | zero => cases refused
  | succ fuel ih =>
    cases tokens with
    | nil => cases refused
    | cons token rest =>
      obtain ⟨lexeme, range⟩ := token
      simp only [climb] at refused
      split at refused
      · rename_i op
        split at refused
        · cases refused
        have step : after ⟨.operand, brackets⟩ (left.lexemes ++ [.operator op]) =
            some ⟨.operand, brackets⟩ := by
          rw [derives.passes.followed _ (by simp)]
          rfl
        split at refused
        · rename_i second
          cases refused
          have inner := stuck op.rightLevel rest _ (by cases op <;> decide) second inGrammar brackets
          exact inner.behind_phrase step
        · rename_i right behind second
          obtain ⟨d, p, derives', high, _, rfl, rfl, leaves'⟩ :=
            reads op.rightLevel _ _ _ (by cases op <;> decide) second
          split at refused
          · rename_i passed
            cases refused
            exact (inGrammar (accept_error passed)).elim
          · rename_i node _ passed
            obtain ⟨_, rfl, rfl⟩ := accept_ok_iff.mp passed
            obtain ⟨c', whole, _, bound⟩ := derives_operation range derives
              (Nat.le_of_lt_succ leaves.stops) derives' high
            have apart := leaves'.of_last (operation_last left derives' op range)
              (leaves'.stops.mono bound)
            have fewer : behind.length ≤ fuel := by
              simp only [List.length_cons, List.length_append] at enough
              omega
            have later := ih whole apart fewer refused
            simpa [Phrase.operation] using later
      · cases refused

end Readers

theorem expression_stuck (stop room : Nat) : GetsStuck stop (expression stop room) := by
  induction room with
  | zero =>
    intro level tokens e _ refused inGrammar
    cases refused
    exact (inGrammar trivial).elim
  | succ room ih =>
    intro level tokens e _ refused inGrammar brackets
    have reads := expression_sound stop room
    simp only [expression] at refused
    split at refused
    · rename_i first
      cases refused
      exact primary_stuck reads ih first inGrammar brackets
    · rename_i left rest first
      obtain ⟨c, p, derives, _, _, rfl, rfl, leaves⟩ := primary_sound reads first
      exact climb_stuck reads ih derives leaves (Nat.le_refl _) refused inGrammar brackets

theorem whole_stuck {stop : Nat} {tokens : List Token} {e : SyntaxError}
    (refused : whole stop tokens = .error e) (inGrammar : ¬ e.cause.ExceedsLimit) :
    StuckAt initial stop tokens e.range := by
  unfold whole at refused
  split at refused
  · cases refused
    refine StuckAt.here ?_
    rintro ⟨_, awaited⟩
    simp [initial] at awaited
  split at refused
  · rename_i first
    cases refused
    exact expression_stuck stop maxNesting 1 tokens _ (by decide) first inGrammar []
  · cases refused
  · rename_i tree token rest first
    cases refused
    obtain ⟨c, p, derives, _, _, rfl, _, leaves⟩ :=
      expression_sound stop maxNesting 1 _ _ _ (by decide) first
    have outermost : ∃ o, initial.after p.lexemes = some o ∧ o.Refuses (token :: rest) :=
      refuses_behind derives leaves (by simp) (by simp) (.inr (by simp))
    obtain ⟨o, run, refuses⟩ := outermost
    exact (StuckAt.here refuses).behind run

end Parser

/-- If a text falls into tokens and the reader complains of its grammar, it complains of the first token
with which no expression begins as the text does, or else of the end of a text that is only the
beginning of an expression. -/
theorem parse_error_at_first_impossible {t : Text} {tokens : List Token} {e : SyntaxError}
    (lexed : tokenize t = .ok tokens) (refused : parse t = .error e)
    (inGrammar : ¬ e.cause.ExceedsLimit) :
    (∃ before token behind, tokens = before ++ token :: behind ∧ e.range = token.range ∧
      Viable (before.map Token.lexeme) ∧ ¬ Viable ((before ++ [token]).map Token.lexeme)) ∨
    (e.range = ⟨t.length, t.length⟩ ∧ Viable (tokens.map Token.lexeme) ∧
      ¬ Sentence (tokens.map Token.lexeme)) := by
  simp only [parse, lexed] at refused
  obtain ⟨before, rest, o, rfl, place, run, refuses⟩ := Parser.whole_stuck refused inGrammar
  have viable : Viable (before.map Token.lexeme) := viable_iff.mpr (by rw [run]; rfl)
  cases rest with
  | nil =>
    refine .inr ⟨place, by simpa using viable, fun sentence => ?_⟩
    obtain ⟨o', run', final⟩ := sentence_iff.mp sentence
    rw [List.append_nil, run] at run'
    cases run'
    exact refuses final
  | cons token behind =>
    refine .inl ⟨before, token, behind, rfl, place, viable, fun impossible => ?_⟩
    have stuck : initial.after (before.map Token.lexeme ++ [token.lexeme]) = none :=
      after_refused run refuses []
    rw [viable_iff, List.map_append, List.map_singleton, stuck] at impossible
    cases impossible

/-- A bracket cannot close where the sign awaits an operand. -/
theorem parse_error_at_bracket :
    tokenize "(x + ]" = .ok [⟨.leftParen, ⟨0, 1⟩⟩, ⟨.name "x", ⟨1, 2⟩⟩, ⟨.operator .plus, ⟨3, 4⟩⟩,
      ⟨.rightBracket, ⟨5, 6⟩⟩] ∧
    parse "(x + ]" = .error ⟨.unexpected .rightBracket, ⟨5, 6⟩⟩ ∧
    Viable [.leftParen, .name "x", .operator .plus] ∧
    ¬ Viable [.leftParen, .name "x", .operator .plus, .rightBracket] := by
  have lexed : tokenize "(x + ]" = .ok [⟨.leftParen, ⟨0, 1⟩⟩, ⟨.name "x", ⟨1, 2⟩⟩,
      ⟨.operator .plus, ⟨3, 4⟩⟩, ⟨.rightBracket, ⟨5, 6⟩⟩] := rfl
  have refused : parse "(x + ]" = .error ⟨.unexpected .rightBracket, ⟨5, 6⟩⟩ := rfl
  refine ⟨lexed, refused, ?_⟩
  rcases parse_error_at_first_impossible lexed refused id with
    ⟨before, token, behind, span, place, viable, impossible⟩ | ⟨_, viable, _⟩
  · -- the place is that of the fourth token and of no other
    rcases before with _ | ⟨first, _ | ⟨second, _ | ⟨third, _ | ⟨fourth, more⟩⟩⟩⟩ <;>
      simp only [List.nil_append, List.cons_append, List.cons.injEq] at span
    · obtain ⟨rfl, _⟩ := span
      cases place
    · obtain ⟨_, rfl, _⟩ := span
      cases place
    · obtain ⟨_, _, rfl, _⟩ := span
      cases place
    · obtain ⟨rfl, rfl, rfl, rfl, _⟩ := span
      exact ⟨viable, impossible⟩
    · simp at span
  · cases viable_iff.mp viable

end Calculator
