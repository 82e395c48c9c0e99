import Calculator.Proofs.Expression.Outlook

/-!
Whatever may come next can be continued. A list of words that follow each other as they may is the
beginning of an expression: behind it an operand is put where one is awaited, and then the brackets are
closed from the innermost on. So the outlook tells the beginnings of expressions from other words.
-/
namespace Calculator

/-- The words of an expression of the grammar. -/
def Sentence (lexemes : List Lexeme) : Prop :=
  ∃ p, Derives .expression p ∧ p.lexemes = lexemes

/-- The words can be continued to those of an expression. -/
def Viable (lexemes : List Lexeme) : Prop :=
  ∃ more, Sentence (lexemes ++ more)

theorem Viable.of_append {lexemes more : List Lexeme} (viable : Viable (lexemes ++ more)) :
    Viable lexemes := by
  obtain ⟨rest, sentence⟩ := viable
  exact ⟨more ++ rest, by rwa [← List.append_assoc]⟩

/-- More words behind a phrase make it a longer phrase of the category. -/
def Phrase.Grows (c : Category) (p : Phrase) (more : List Lexeme) : Prop :=
  ∃ q, Derives c q ∧ q.lexemes = p.lexemes ++ more

theorem chain_grows {c d : Category} {operators : List Operator}
    (build : ∀ first tails, Derives d first → (∀ t ∈ tails, t.op ∈ operators) →
      (∀ t ∈ tails, Derives d t.operand) → Derives c (first.chain tails))
    {first : Phrase} {tails : List Tail} {more : List Lexeme} (head : Derives d first)
    (ops : ∀ t ∈ tails, t.op ∈ operators) (operands : ∀ t ∈ tails, Derives d t.operand)
    (grows : first.Grows d more) (each : ∀ t ∈ tails, t.operand.Grows d more) :
    (first.chain tails).Grows c more := by
  rcases List.eq_nil_or_concat tails with rfl | ⟨init, t, rfl⟩
  · obtain ⟨q, derives, same⟩ := grows
    exact ⟨q.chain [], build q [] derives (by simp) (by simp), same⟩
  · simp only [List.concat_eq_append, List.mem_append, List.mem_singleton] at ops operands each ⊢
    obtain ⟨q, derives, same⟩ := each t (.inr rfl)
    refine ⟨first.chain (init ++ [⟨t.op, t.range, q⟩]), build _ _ head ?_ ?_, ?_⟩
    · simpa [or_imp, forall_and] using ops
    · simpa [or_imp, forall_and, derives] using fun u member => operands u (.inl member)
    · simp [Derives.chain_append, Phrase.lexemes_operation, same]

/-- An operator that binds at least as tightly as the category, and an operand, go on with a phrase:
they belong to the last operand that is loose enough. -/
theorem Derives.grows {c : Category} {p q : Phrase} (derives : Derives c p) (operand : Derives .unary q)
    {op : Operator} (compound : c ≠ .primary) (tight : c.level ≤ op.level) :
    p.Grows c (.operator op :: q.lexemes) := by
  have power : 3 ≤ op.level → op = .power := by cases op <;> decide
  induction derives with
  | expression first tails head operators operands ih each =>
    by_cases sum : op ∈ Operator.sums
    · have whole := Derives.expression first tails head operators operands
      exact ⟨_, whole.sum default sum (operand.term_of (by decide)), Phrase.lexemes_operation _ _ _ _⟩
    · have tight' : 2 ≤ op.level := by
        revert sum
        cases op <;> decide
      exact chain_grows Derives.expression head operators operands (ih (by decide) tight')
        fun t member => each t member (by decide) tight'
  | term first tails head operators operands ih each =>
    by_cases product : op ∈ Operator.products
    · have whole := Derives.term first tails head operators operands
      exact ⟨_, whole.product default product operand, Phrase.lexemes_operation _ _ _ _⟩
    · have tight' : 3 ≤ op.level := by
        revert product tight
        cases op <;> decide
      exact chain_grows Derives.term head operators operands (ih (by decide) tight')
        fun t member => each t member (by decide) tight'
  | signed negative range inner _ ih =>
    obtain ⟨r, derives, same⟩ := ih (by decide) tight
    exact ⟨_, .signed negative range r derives, by simp [Phrase.lexemes_signed, same]⟩
  | unsigned p _ ih =>
    obtain ⟨r, derives, same⟩ := ih (by decide) tight
    exact ⟨r, .unsigned r derives, same⟩
  | power base range exponent left _ _ ih =>
    obtain ⟨r, derives, same⟩ := ih (by decide) tight
    exact ⟨_, .power base range r left derives, by simp [Phrase.lexemes_operation, same]⟩
  | base p inner _ =>
    obtain rfl := power tight
    exact ⟨_, .power p default q inner operand, Phrase.lexemes_operation _ _ _ _⟩
  | _ => contradiction

/-- Any operand behind the words makes an expression of them. -/
def Draws (lexemes : List Lexeme) : Prop :=
  ∀ q, Derives .unary q → Sentence (lexemes ++ q.lexemes)

namespace Draws

theorem nil : Draws [] := fun q operand => ⟨q, operand.expression_of, rfl⟩

theorem sign {lexemes : List Lexeme} (draws : Draws lexemes) (negative : Bool) :
    Draws (lexemes ++ [.operator (if negative then .minus else .plus)]) := by
  intro q operand
  have signed := draws _ (.signed negative default q operand)
  simpa [Phrase.lexemes_signed] using signed

theorem operator {lexemes : List Lexeme} (sentence : Sentence lexemes) (op : Operator) :
    Draws (lexemes ++ [.operator op]) := by
  intro q operand
  obtain ⟨p, derives, rfl⟩ := sentence
  obtain ⟨r, whole, same⟩ := derives.grows operand (by decide) (by cases op <;> decide : 1 ≤ op.level)
  exact ⟨r, whole, by simpa using same⟩

end Draws

namespace Bracket

/-- The words that open a bracket; arguments have a name in front. -/
def Opening : Bracket → List Lexeme → Prop
  | group, lexemes => lexemes = [.leftParen]
  | arguments, lexemes => ∃ text, lexemes = [.name text, .leftParen]
  | elements, lexemes => lexemes = [.leftBracket]

def Holds : Bracket → List Lexeme → Prop
  | group, lexemes => Sentence lexemes
  | _, lexemes => ∃ items : Items, (∀ p ∈ items.phrases, Derives .expression p) ∧
      items.lexemes = lexemes

theorem holds_sentence (bracket : Bracket) {lexemes : List Lexeme} (sentence : Sentence lexemes) :
    bracket.Holds lexemes := by
  obtain ⟨p, derives, rfl⟩ := sentence
  cases bracket with
  | group => exact ⟨p, derives, rfl⟩
  | _ => exact ⟨.last p, by simpa [Items.phrases] using derives, rfl⟩

theorem holds_nil {bracket : Bracket} (items : bracket.holdsItems = true) : bracket.Holds [] := by
  cases bracket with
  | group => cases items
  | _ => exact ⟨.none, by simp [Items.phrases], rfl⟩

theorem holds_comma {bracket : Bracket} (items : bracket.holdsItems = true) {first rest : List Lexeme}
    (sentence : Sentence first) (behind : bracket.Holds rest) :
    bracket.Holds (first ++ .comma :: rest) := by
  obtain ⟨p, derives, rfl⟩ := sentence
  cases bracket with
  | group => cases items
  | _ =>
    obtain ⟨more, each, rfl⟩ := behind
    exact ⟨.more p default more, by simpa [Items.phrases] using ⟨derives, each⟩,
      by simp [Items.lexemes, Items.tokens, Phrase.lexemes]⟩

theorem enclosed {bracket : Bracket} {opening inside : List Lexeme} (opens : bracket.Opening opening)
    (holds : bracket.Holds inside) :
    ∃ q, Derives .unary q ∧ q.lexemes = opening ++ inside ++ [bracket.closing] := by
  cases bracket with
  | group =>
    obtain rfl := opens
    obtain ⟨p, derives, rfl⟩ := holds
    exact ⟨_, (Derives.group default default p derives).unary_of (by decide),
      Phrase.lexemes_group _ _ _⟩
  | arguments =>
    obtain ⟨text, rfl⟩ := opens
    obtain ⟨args, each, rfl⟩ := holds
    exact ⟨_, (Derives.call text default default default args each).unary_of (by decide),
      Phrase.lexemes_call _ _ _ _ _⟩
  | elements =>
    obtain rfl := opens
    obtain ⟨elements, each, rfl⟩ := holds
    exact ⟨_, (Derives.list default default elements each).unary_of (by decide),
      Phrase.lexemes_list _ _ _⟩

end Bracket

/-- The words lead up to where the innermost of the open brackets begins to hold something, or to behind
a comma in it. -/
inductive Opens : List Bracket → List Lexeme → Prop where
  | outermost : Opens [] []
  | bracket {outer : List Bracket} {bracket : Bracket} {before drawing opening held : List Lexeme}
      (outside : Opens outer before) (draws : Draws drawing) (opens : bracket.Opening opening)
      (holds : ∀ more, bracket.Holds more → bracket.Holds (held ++ more)) :
      Opens (bracket :: outer) (before ++ drawing ++ opening ++ held)

/-- The words lead up to an operand. -/
def Awaits (brackets : List Bracket) (lexemes : List Lexeme) : Prop :=
  ∃ before drawing, Opens brackets before ∧ Draws drawing ∧ lexemes = before ++ drawing

/-- The words end in an expression that all the brackets enclose. -/
def Complete (brackets : List Bracket) (lexemes : List Lexeme) : Prop :=
  ∃ before inside, Opens brackets before ∧ Sentence inside ∧ lexemes = before ++ inside

section Reaching

variable {brackets outer : List Bracket} {bracket : Bracket} {lexemes inside : List Lexeme}

theorem Opens.awaits (opens : Opens brackets lexemes) : Awaits brackets lexemes :=
  ⟨lexemes, [], opens, .nil, by simp⟩

theorem Awaits.operand (awaits : Awaits brackets lexemes) {q : Phrase} (operand : Derives .unary q) :
    Complete brackets (lexemes ++ q.lexemes) := by
  obtain ⟨before, drawing, opens, draws, rfl⟩ := awaits
  exact ⟨before, _, opens, draws q operand, by simp⟩

theorem Awaits.sign (awaits : Awaits brackets lexemes) (negative : Bool) :
    Awaits brackets (lexemes ++ [.operator (if negative then .minus else .plus)]) := by
  obtain ⟨before, drawing, opens, draws, rfl⟩ := awaits
  exact ⟨before, _, opens, draws.sign negative, by simp⟩

theorem Awaits.opening (awaits : Awaits outer lexemes) {opening : List Lexeme}
    (opens : bracket.Opening opening) : Opens (bracket :: outer) (lexemes ++ opening) := by
  obtain ⟨before, drawing, outside, draws, rfl⟩ := awaits
  have whole : Opens (bracket :: outer) (before ++ drawing ++ opening ++ []) :=
    .bracket outside draws opens fun _ holds => holds
  simpa using whole

theorem Complete.operator (complete : Complete brackets lexemes) (op : Operator) :
    Awaits brackets (lexemes ++ [.operator op]) := by
  obtain ⟨before, inside, opens, sentence, rfl⟩ := complete
  exact ⟨before, _, opens, Draws.operator sentence op, by simp⟩

theorem Opens.comma (opens : Opens (bracket :: outer) lexemes) (items : bracket.holdsItems = true)
    (sentence : Sentence inside) :
    Opens (bracket :: outer) (lexemes ++ (inside ++ [.comma])) := by
  cases opens with
  | @bracket _ _ before drawing opening held outside draws opens holds =>
    have whole : Opens (bracket :: outer) (before ++ drawing ++ opening ++ (held ++ (inside ++ [.comma]))) := by
      refine .bracket outside draws opens fun more behind => ?_
      have item := holds _ (Bracket.holds_comma items sentence behind)
      simpa using item
    simpa using whole

theorem Opens.closing (opens : Opens (bracket :: outer) lexemes) (holds : bracket.Holds inside) :
    Complete outer (lexemes ++ inside ++ [bracket.closing]) := by
  cases opens with
  | @bracket _ _ before drawing opening held outside draws opens holds' =>
    obtain ⟨q, operand, same⟩ := Bracket.enclosed opens (holds' _ holds)
    exact ⟨before, drawing ++ q.lexemes, outside, draws q operand, by simp [same]⟩

theorem Complete.closing (complete : Complete (bracket :: outer) lexemes) :
    Complete outer (lexemes ++ [bracket.closing]) := by
  obtain ⟨before, inside, opens, sentence, rfl⟩ := complete
  exact opens.closing (bracket.holds_sentence sentence)

theorem Complete.sentence (complete : Complete [] lexemes) : Sentence lexemes := by
  obtain ⟨before, inside, ⟨⟩, sentence, rfl⟩ := complete
  exact sentence

theorem Complete.viable (complete : Complete brackets lexemes) : Viable lexemes := by
  induction brackets generalizing lexemes with
  | nil => exact ⟨[], by simpa using complete.sentence⟩
  | cons bracket outer ih => exact (ih complete.closing).of_append

theorem Awaits.viable (awaits : Awaits brackets lexemes) : Viable lexemes :=
  (awaits.operand ((Derives.number "0" default).unary_of (by decide))).viable.of_append

end Reaching

namespace Outlook

/-- What the words before an outlook amount to. -/
def Reached : Outlook → List Lexeme → Prop
  | ⟨.operand, brackets⟩, lexemes => Awaits brackets lexemes
  | ⟨.item, brackets⟩, lexemes =>
    Opens brackets lexemes ∧ ∀ bracket ∈ brackets.head?, bracket.holdsItems = true
  | ⟨.operator, brackets⟩, lexemes => Complete brackets lexemes
  | ⟨.call, brackets⟩, lexemes =>
    ∃ before text, Awaits brackets before ∧ lexemes = before ++ [.name text]

section Steps

variable {o : Outlook} {brackets : List Bracket} {lexemes : List Lexeme} {lexeme : Lexeme}

theorem reached_begins (awaits : Awaits brackets lexemes) (step : begins brackets lexeme = some o) :
    o.Reached (lexemes ++ [lexeme]) := by
  unfold begins at step
  split at step
  · rename_i raw
    cases step
    exact awaits.operand ((Derives.number raw default).unary_of (by decide))
  · rename_i text
    cases step
    exact ⟨lexemes, text, awaits, rfl⟩
  · cases step
    have opens : Bracket.group.Opening [.leftParen] := rfl
    exact (awaits.opening opens).awaits
  · cases step
    have opens : Bracket.elements.Opening [.leftBracket] := rfl
    exact ⟨awaits.opening opens, by simp [Bracket.holdsItems]⟩
  · cases step
    exact awaits.sign false
  · cases step
    exact awaits.sign true
  · cases step

theorem reached_closes {inside : List Lexeme} (opens : Opens brackets lexemes)
    (holds : ∀ bracket ∈ brackets.head?, bracket.Holds inside)
    (step : closes brackets lexeme = some o) : o.Reached (lexemes ++ inside ++ [lexeme]) := by
  unfold closes at step
  split at step
  · cases step
  · split at step
    · rename_i bracket outer same
      cases step
      rw [same]
      exact opens.closing (holds bracket (by simp))
    · cases step

theorem reached_goesOn (complete : Complete brackets lexemes)
    (step : goesOn brackets lexeme = some o) : o.Reached (lexemes ++ [lexeme]) := by
  unfold goesOn at step
  split at step
  · rename_i op
    cases step
    exact complete.operator op
  · obtain ⟨before, inside, opens, sentence, rfl⟩ := complete
    split at step
    · rename_i items
      cases step
      cases brackets with
      | nil => cases items
      | cons bracket outer =>
        have holds : bracket.holdsItems = true := by simpa using items
        refine ⟨?_, by simpa using holds⟩
        rw [List.append_assoc]
        exact opens.comma holds sentence
    · cases step
  · obtain ⟨before, inside, opens, sentence, rfl⟩ := complete
    exact reached_closes opens (fun bracket _ => bracket.holds_sentence sentence) step

theorem reached_next {start : Outlook} (reached : start.Reached lexemes)
    (step : start.next lexeme = some o) : o.Reached (lexemes ++ [lexeme]) := by
  obtain ⟨awaited, brackets⟩ := start
  cases awaited with
  | operand => exact reached_begins reached step
  | item =>
    obtain ⟨opens, items⟩ := reached
    rcases Option.or_eq_some_iff.mp step with closed | ⟨_, began⟩
    · have none : ∀ bracket ∈ brackets.head?, bracket.Holds [] := fun bracket member =>
        Bracket.holds_nil (items bracket member)
      simpa using reached_closes opens none closed
    · exact reached_begins opens.awaits began
  | operator => exact reached_goesOn reached step
  | call =>
    obtain ⟨before, text, awaits, rfl⟩ := reached
    by_cases called : lexeme = .leftParen
    · subst called
      cases step
      refine ⟨?_, by simp [Bracket.holdsItems]⟩
      have opens : Bracket.arguments.Opening [.name text, .leftParen] := ⟨text, rfl⟩
      simpa using awaits.opening opens
    · have complete := awaits.operand ((Derives.name text default).unary_of (by decide))
      have other : next ⟨.behind (.name text), brackets⟩ lexeme = goesOn brackets lexeme :=
        next_behind brackets called
      exact reached_goesOn complete (other.symm.trans step)

end Steps

theorem reached_after {start o : Outlook} {lexemes more : List Lexeme} (reached : start.Reached lexemes)
    (run : start.after more = some o) : o.Reached (lexemes ++ more) := by
  induction more generalizing start lexemes with
  | nil =>
    cases run
    simpa using reached
  | cons lexeme rest ih =>
    obtain ⟨mid, step, later⟩ := after_cons_eq_some run
    have whole := ih (reached_next reached step) later
    simpa using whole

theorem reached_initial {o : Outlook} {lexemes : List Lexeme} (run : initial.after lexemes = some o) :
    o.Reached lexemes := by
  have start : initial.Reached [] := Opens.outermost.awaits
  exact reached_after start run

theorem Reached.viable {o : Outlook} {lexemes : List Lexeme} (reached : o.Reached lexemes) :
    Viable lexemes := by
  obtain ⟨awaited, brackets⟩ := o
  cases awaited with
  | operand => exact Awaits.viable reached
  | item => exact reached.1.awaits.viable
  | operator => exact Complete.viable reached
  | call =>
    obtain ⟨before, text, awaits, rfl⟩ := reached
    exact (awaits.operand ((Derives.name text default).unary_of (by decide))).viable

/-- No bracket is open and no operand awaited. -/
def Final (o : Outlook) : Prop :=
  o.brackets = [] ∧ (o.awaited = .operator ∨ o.awaited = .call)

end Outlook

open Outlook

theorem sentence_iff {lexemes : List Lexeme} :
    Sentence lexemes ↔ ∃ o, initial.after lexemes = some o ∧ o.Final := by
  constructor
  · rintro ⟨p, derives, rfl⟩
    obtain ⟨last, _, run⟩ := derives.passes.behind
    refine ⟨_, run [], rfl, ?_⟩
    cases last.lexeme <;> simp [Awaited.behind]
  · rintro ⟨⟨awaited, brackets⟩, run, closed, complete⟩
    obtain rfl : brackets = [] := closed
    have reached := reached_initial run
    obtain rfl | rfl : awaited = .operator ∨ awaited = .call := complete
    · exact Complete.sentence reached
    · obtain ⟨before, text, awaits, rfl⟩ := reached
      exact (awaits.operand ((Derives.name text default).unary_of (by decide))).sentence

/-- What stands in parentheses is not called. -/
theorem Sentence.not_called {before behind : List Lexeme}
    (sentence : Sentence (before ++ .rightParen :: .leftParen :: behind)) : False := by
  obtain ⟨o, run, _⟩ := sentence_iff.mp sentence
  obtain ⟨_, ⟨awaited, brackets⟩, _, closing, later⟩ := after_eq_some run
  obtain rfl : awaited = .operator := next_rightParen closing
  have refused : next ⟨.operator, brackets⟩ .leftParen = none := closes_leftParen brackets
  simp [after, refused] at later

/-- Words begin an expression just when each of them may come next. -/
theorem viable_iff {lexemes : List Lexeme} :
    Viable lexemes ↔ (initial.after lexemes).isSome := by
  constructor
  · rintro ⟨more, sentence⟩
    obtain ⟨o, run, _⟩ := sentence_iff.mp sentence
    cases stuck : initial.after lexemes with
    | none => simp [after_stuck stuck] at run
    | some mid => rfl
  · intro run
    obtain ⟨o, run⟩ := Option.isSome_iff_exists.mp run
    exact (reached_initial run).viable

end Calculator
