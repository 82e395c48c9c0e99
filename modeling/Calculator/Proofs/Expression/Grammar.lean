import Mathlib.Data.List.Induction
import Calculator.Expression.Parser

/-!
The grammar of expressions, stated apart from any way of reading it:

    expression := term (('+' | '-') term)*
    term       := unary (('*' | '/' | '%' | '//') unary)*
    unary      := ('+' | '-') unary | power
    power      := primary ('**' unary)?
    primary    := NUMBER | '(' expression ')' | NAME '(' items ')' | NAME | '[' items ']'
    items      := (expression (',' expression)* ','?)?

A phrase is what a derivation builds: the tokens it spans, how deeply it nests and its tree.
-/
namespace Calculator

structure Phrase where
  tokens : List Token
  nesting : Nat
  tree : Expr

/-- Phrases with commas between them; one comma may follow the last. -/
inductive Items where
  | none
  | last (item : Phrase)
  | more (item : Phrase) (comma : Span) (rest : Items)

namespace Items

def phrases : Items → List Phrase
  | none => []
  | last item => [item]
  | more item _ rest => item :: rest.phrases

def tokens : Items → List Token
  | none => []
  | last item => item.tokens
  | more item comma rest => item.tokens ++ ⟨.comma, comma⟩ :: rest.tokens

def nesting : Items → Nat
  | none => 0
  | last item => item.nesting
  | more item _ rest => max item.nesting rest.nesting

def trees (items : Items) : List Expr :=
  items.phrases.map Phrase.tree

end Items

namespace Phrase

def number (raw : Text) (range : Span) : Phrase :=
  ⟨[⟨.number raw, range⟩], 1, .number (.ofText raw) raw range⟩

def name (text : Text) (range : Span) : Phrase :=
  ⟨[⟨.name text, range⟩], 1, .name text range⟩

/-- Parentheses nest what they hold and leave no node. -/
def group (opening closing : Span) (inner : Phrase) : Phrase :=
  ⟨⟨.leftParen, opening⟩ :: inner.tokens ++ [⟨.rightParen, closing⟩], inner.nesting + 1, inner.tree⟩

def call (text : Text) (range opening closing : Span) (args : Items) : Phrase :=
  ⟨⟨.name text, range⟩ :: ⟨.leftParen, opening⟩ :: args.tokens ++ [⟨.rightParen, closing⟩],
    args.nesting + 1, .call text args.trees ⟨range.start, closing.stop⟩⟩

def list (opening closing : Span) (elements : Items) : Phrase :=
  ⟨⟨.leftBracket, opening⟩ :: elements.tokens ++ [⟨.rightBracket, closing⟩],
    elements.nesting + 1, .list elements.trees ⟨opening.start, closing.stop⟩⟩

def signed (negative : Bool) (range : Span) (operand : Phrase) : Phrase :=
  ⟨⟨.operator (if negative then .minus else .plus), range⟩ :: operand.tokens, operand.nesting + 1,
    .unary (if negative then .minus else .plus) operand.tree ⟨range.start, operand.tree.range.stop⟩⟩

/-- The right operand is nested, the left one is not. -/
def operation (left : Phrase) (op : Operator) (range : Span) (right : Phrase) : Phrase :=
  ⟨left.tokens ++ ⟨.operator op, range⟩ :: right.tokens, max left.nesting (right.nesting + 1),
    .binary (.known op) left.tree right.tree ⟨left.tree.range.start, right.tree.range.stop⟩⟩

end Phrase

/-- An operator and its right operand. -/
structure Tail where
  op : Operator
  range : Span
  operand : Phrase

/-- Groups to the left: each operator takes all that stands before it. -/
def Phrase.chain (first : Phrase) : List Tail → Phrase
  | [] => first
  | t :: rest => (first.operation t.op t.range t.operand).chain rest

def Operator.sums : List Operator := [plus, minus]

def Operator.products : List Operator := [times, divide, modulo, floorDivide]

inductive Category where
  | expression
  | term
  | unary
  | power
  | primary
  deriving DecidableEq

/-- The lowest level of the operators that a phrase of the category draws in from behind. -/
def Category.level : Category → Nat
  | expression => 1
  | term => 2
  | unary => 3
  | power => 3
  | primary => 5

inductive Derives : Category → Phrase → Prop where
  | expression (first : Phrase) (more : List Tail) (head : Derives .term first)
      (operators : ∀ t ∈ more, t.op ∈ Operator.sums)
      (operands : ∀ t ∈ more, Derives .term t.operand) : Derives .expression (first.chain more)
  | term (first : Phrase) (more : List Tail) (head : Derives .unary first)
      (operators : ∀ t ∈ more, t.op ∈ Operator.products)
      (operands : ∀ t ∈ more, Derives .unary t.operand) : Derives .term (first.chain more)
  | signed (negative : Bool) (range : Span) (operand : Phrase) (inner : Derives .unary operand) :
      Derives .unary (.signed negative range operand)
  | unsigned (p : Phrase) (inner : Derives .power p) : Derives .unary p
  | power (base : Phrase) (range : Span) (exponent : Phrase) (left : Derives .primary base)
      (right : Derives .unary exponent) : Derives .power (base.operation .power range exponent)
  | base (p : Phrase) (inner : Derives .primary p) : Derives .power p
  | number (raw : Text) (range : Span) : Derives .primary (.number raw range)
  | name (text : Text) (range : Span) : Derives .primary (.name text range)
  | group (opening closing : Span) (p : Phrase) (inner : Derives .expression p) :
      Derives .primary (.group opening closing p)
  | call (text : Text) (range opening closing : Span) (args : Items)
      (inner : ∀ p ∈ args.phrases, Derives .expression p) :
      Derives .primary (.call text range opening closing args)
  | list (opening closing : Span) (elements : Items)
      (inner : ∀ p ∈ elements.phrases, Derives .expression p) :
      Derives .primary (.list opening closing elements)

namespace Derives

theorem chain_append (first : Phrase) (more : List Tail) (t : Tail) :
    first.chain (more ++ [t]) = (first.chain more).operation t.op t.range t.operand := by
  induction more generalizing first with
  | nil => rfl
  | cons u rest ih => exact ih _

theorem chain_induction {motive : Phrase → Prop} {c d : Category} {operators : List Operator}
    (derived : ∀ first more, Derives d first → (∀ t ∈ more, t.op ∈ operators) →
      (∀ t ∈ more, Derives d t.operand) → Derives c (first.chain more))
    (operation : ∀ left op range right, Derives c left → Derives d right → motive left → motive right →
      motive (Phrase.operation left op range right))
    {first : Phrase} {more : List Tail} (head : Derives d first) (holds : motive first)
    (allowed : ∀ t ∈ more, t.op ∈ operators)
    (operands : ∀ t ∈ more, Derives d t.operand ∧ motive t.operand) : motive (first.chain more) := by
  -- from the last operator, which has all that stands before it for its left operand
  induction more using List.reverseRecOn with
  | nil => exact holds
  | append_singleton more t ih =>
    simp only [List.mem_append, List.mem_singleton, or_imp, forall_and, forall_eq] at allowed operands
    obtain ⟨⟨before, right⟩, holdsBefore, holdsRight⟩ := operands
    have left := derived first more head allowed.1 before
    rw [chain_append]
    exact operation _ _ _ _ left right
      (ih allowed.1 fun u member => ⟨before u member, holdsBefore u member⟩) holdsRight

/-- What holds of every way to build a phrase of phrases that are derived holds of all that the grammar
derives. -/
theorem derived_induction {motive : Phrase → Prop}
    (number : ∀ raw range, motive (.number raw range))
    (name : ∀ text range, motive (.name text range))
    (group : ∀ opening closing p, Derives .expression p → motive p → motive (.group opening closing p))
    (call : ∀ text range opening closing args, (∀ p ∈ args.phrases, Derives .expression p ∧ motive p) →
      motive (.call text range opening closing args))
    (list : ∀ opening closing elements, (∀ p ∈ elements.phrases, Derives .expression p ∧ motive p) →
      motive (.list opening closing elements))
    (signed : ∀ negative range p, Derives .unary p → motive p → motive (.signed negative range p))
    (operation : ∀ c d left op range right, Derives c left → Derives d right → motive left →
      motive right → motive (Phrase.operation left op range right))
    {c : Category} {p : Phrase} (derives : Derives c p) : motive p := by
  induction derives with
  | expression first more head operators operands head' operands' =>
    exact chain_induction expression (operation _ _) head head' operators
      fun t member => ⟨operands t member, operands' t member⟩
  | term first more head operators operands head' operands' =>
    exact chain_induction term (operation _ _) head head' operators
      fun t member => ⟨operands t member, operands' t member⟩
  | signed negative range operand inner ih => exact signed negative range operand inner ih
  | unsigned p _ ih => exact ih
  | power base range exponent left right left' right' =>
    exact operation _ _ base .power range exponent left right left' right'
  | base p _ ih => exact ih
  | number raw range => exact number raw range
  | name text range => exact name text range
  | group opening closing p inner ih => exact group opening closing p inner ih
  | call text range opening closing args inner ih =>
    exact call text range opening closing args fun p member => ⟨inner p member, ih p member⟩
  | list opening closing elements inner ih =>
    exact list opening closing elements fun p member => ⟨inner p member, ih p member⟩

/-- What holds of every way to build a phrase holds of all that the grammar derives. -/
theorem phrase_induction {motive : Phrase → Prop}
    (number : ∀ raw range, motive (.number raw range))
    (name : ∀ text range, motive (.name text range))
    (group : ∀ opening closing p, motive p → motive (.group opening closing p))
    (call : ∀ text range opening closing args, (∀ p ∈ args.phrases, motive p) →
      motive (.call text range opening closing args))
    (list : ∀ opening closing elements, (∀ p ∈ elements.phrases, motive p) →
      motive (.list opening closing elements))
    (signed : ∀ negative range p, motive p → motive (.signed negative range p))
    (operation : ∀ left op range right, motive left → motive right →
      motive (Phrase.operation left op range right))
    {c : Category} {p : Phrase} (derives : Derives c p) : motive p := by
  refine derived_induction number name ?_ ?_ ?_ ?_ ?_ derives
  · exact fun opening closing p _ => group opening closing p
  · exact fun text range opening closing args each =>
      call text range opening closing args fun p member => (each p member).2
  · exact fun opening closing elements each =>
      list opening closing elements fun p member => (each p member).2
  · exact fun negative range p _ => signed negative range p
  · exact fun _ _ left op range right _ _ => operation left op range right

theorem unary_of {c : Category} {p : Phrase} (derives : Derives c p) (high : 3 ≤ c.level) :
    Derives .unary p := by
  cases c with
  | expression => simp [Category.level] at high
  | term => simp [Category.level] at high
  | unary => exact derives
  | power => exact unsigned p derives
  | primary => exact unsigned p (base p derives)

theorem term_of {c : Category} {p : Phrase} (derives : Derives c p) (high : 2 ≤ c.level) :
    Derives .term p := by
  cases c with
  | expression => simp [Category.level] at high
  | term => exact derives
  | unary => exact term p [] derives (by simp) (by simp)
  | power => exact term p [] (derives.unary_of (by decide)) (by simp) (by simp)
  | primary => exact term p [] (derives.unary_of (by decide)) (by simp) (by simp)

theorem expression_of {c : Category} {p : Phrase} (derives : Derives c p) : Derives .expression p := by
  by_cases whole : c = .expression
  · exact whole ▸ derives
  · have high : 2 ≤ c.level := by cases c <;> simp_all [Category.level]
    exact expression p [] (derives.term_of high) (by simp) (by simp)

theorem primary_of {c : Category} {p : Phrase} (derives : Derives c p) (high : 4 ≤ c.level) :
    Derives .primary p := by
  cases c with
  | primary => exact derives
  | _ => simp [Category.level] at high

theorem sum {left right : Phrase} {op : Operator} (range : Span) (first : Derives .expression left)
    (operator : op ∈ Operator.sums) (second : Derives .term right) :
    Derives .expression (left.operation op range right) := by
  cases first with
  | expression first more head operators operands =>
    rw [← chain_append first more ⟨op, range, right⟩]
    refine expression first _ head ?_ ?_
    · simpa [or_imp, forall_and] using ⟨operators, operator⟩
    · simpa [or_imp, forall_and] using ⟨operands, second⟩

theorem product {left right : Phrase} {op : Operator} (range : Span) (first : Derives .term left)
    (operator : op ∈ Operator.products) (second : Derives .unary right) :
    Derives .term (left.operation op range right) := by
  cases first with
  | term first more head operators operands =>
    rw [← chain_append first more ⟨op, range, right⟩]
    refine term first _ head ?_ ?_
    · simpa [or_imp, forall_and] using ⟨operators, operator⟩
    · simpa [or_imp, forall_and] using ⟨operands, second⟩

end Derives

/-- Nothing comes next that a phrase would draw in: no parenthesis that makes a call and no operator of
at least the given level. -/
def Ends (level : Nat) : List Token → Prop
  | ⟨.operator op, _⟩ :: _ => op.level < level
  | ⟨.leftParen, _⟩ :: _ => False
  | _ => True

theorem Ends.mono {low high : Nat} {tokens : List Token} (ends : Ends low tokens)
    (le : low ≤ high) : Ends high tokens := by
  unfold Ends at ends ⊢
  split
  · exact Nat.lt_of_lt_of_le ends le
  · exact ends
  · trivial

theorem Ends.not_open {level : Nat} {range : Span} {tokens : List Token}
    (ends : Ends level (⟨.leftParen, range⟩ :: tokens)) : False := ends

/-- The words a primary can begin with. -/
def Lexeme.BeginsPrimary : Lexeme → Prop
  | number _ => True
  | name _ => True
  | leftParen => True
  | leftBracket => True
  | _ => False

/-- The words an expression can begin with. -/
def Lexeme.Begins (lexeme : Lexeme) : Prop :=
  lexeme.BeginsPrimary ∨ lexeme = .operator .plus ∨ lexeme = .operator .minus

def Phrase.BeginsWith (P : Lexeme → Prop) (p : Phrase) : Prop :=
  ∃ token rest, p.tokens = token :: rest ∧ P token.lexeme

namespace Derives

theorem primary_begins {p : Phrase} (derives : Derives .primary p) :
    p.BeginsWith Lexeme.BeginsPrimary := by
  cases derives <;> exact ⟨_, _, rfl, trivial⟩

theorem power_begins {p : Phrase} (derives : Derives .power p) :
    p.BeginsWith Lexeme.BeginsPrimary := by
  cases derives with
  | power base range exponent left right =>
    obtain ⟨token, rest, span, begins⟩ := left.primary_begins
    exact ⟨token, _, by simp [Phrase.operation, span]; rfl, begins⟩
  | base p inner => exact inner.primary_begins

theorem begins {c : Category} {p : Phrase} (derives : Derives c p) : p.BeginsWith Lexeme.Begins := by
  refine phrase_induction (motive := Phrase.BeginsWith Lexeme.Begins) ?_ ?_ ?_ ?_ ?_ ?_ ?_ derives
  · exact fun raw range => ⟨_, _, rfl, .inl trivial⟩
  · exact fun text range => ⟨_, _, rfl, .inl trivial⟩
  · exact fun opening closing p _ => ⟨_, _, rfl, .inl trivial⟩
  · exact fun text range opening closing args _ => ⟨_, _, rfl, .inl trivial⟩
  · exact fun opening closing elements _ => ⟨_, _, rfl, .inl trivial⟩
  · intro negative range p _
    refine ⟨_, _, rfl, .inr ?_⟩
    cases negative <;> simp
  · rintro left op range right ⟨token, rest, span, begins⟩ _
    exact ⟨token, _, by simp [Phrase.operation, span]; rfl, begins⟩

theorem nesting_pos {c : Category} {p : Phrase} (derives : Derives c p) : 1 ≤ p.nesting := by
  refine phrase_induction (motive := fun p => 1 ≤ p.nesting) ?_ ?_ ?_ ?_ ?_ ?_ ?_ derives
  · intros; exact Nat.le_refl 1
  · intros; exact Nat.le_refl 1
  · intros; exact Nat.le_add_left 1 _
  · intros; exact Nat.le_add_left 1 _
  · intros; exact Nat.le_add_left 1 _
  · intros; exact Nat.le_add_left 1 _
  · intro left op range right first _
    exact Nat.le_trans first (Nat.le_max_left _ _)

end Derives

/-- The tokens of a chain behind its first phrase. -/
def Tail.tokens (more : List Tail) : List Token :=
  more.flatMap fun t => ⟨.operator t.op, t.range⟩ :: t.operand.tokens

theorem Phrase.chain_tokens (first : Phrase) (more : List Tail) :
    (first.chain more).tokens = first.tokens ++ Tail.tokens more := by
  induction more generalizing first with
  | nil => simp [chain, Tail.tokens]
  | cons t rest ih =>
    rw [chain, ih]
    simp [operation, Tail.tokens]

theorem ends_paren (level : Nat) (range : Span) (rest : List Token) :
    Ends level (⟨.rightParen, range⟩ :: rest) := trivial

theorem ends_bracket (level : Nat) (range : Span) (rest : List Token) :
    Ends level (⟨.rightBracket, range⟩ :: rest) := trivial

theorem ends_comma (level : Nat) (range : Span) (rest : List Token) :
    Ends level (⟨.comma, range⟩ :: rest) := trivial

/-- A power sign takes no more than a primary from before it. -/
theorem ends_power (range : Span) (rest : List Token) :
    Ends Category.primary.level (⟨.operator .power, range⟩ :: rest) :=
  (by decide : Operator.power.level < Category.primary.level)

theorem Operator.sum_level {op : Operator} (sum : op ∈ sums) : op.level = 1 ∧ op.rightLevel = 2 := by
  revert op
  decide

theorem Operator.product_level {op : Operator} (product : op ∈ products) :
    op.level = 2 ∧ op.rightLevel = 3 := by
  revert op
  decide

/-- Behind a chain, or one of its operands, comes an operator of the chain or what ends the chain. -/
theorem ends_tail {c d : Category} (lower : c.level < d.level) {more : List Tail} {rest : List Token}
    (operators : ∀ t ∈ more, t.op.level = c.level) (ends : Ends c.level rest) :
    Ends d.level (Tail.tokens more ++ rest) := by
  cases more with
  | nil => exact ends.mono (Nat.le_of_lt lower)
  | cons t more =>
    have level : t.op.level < d.level := operators t (by simp) ▸ lower
    exact level

end Calculator
