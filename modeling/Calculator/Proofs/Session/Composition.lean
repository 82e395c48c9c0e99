import Calculator.Proofs.Evaluation.Meaning
import Calculator.Proofs.Expression.Normalizing
import Calculator.Proofs.Expression.Spelling
import Calculator.Proofs.Session.Finiteness

/-!
Texts that have values can be put together into larger ones, and the value of the whole is what the
operator or the function makes of theirs, as if the texts were the values.
-/
namespace Calculator

/-- The names of the allow-list are words that nothing splits. -/
theorem Entry.name_word {name : Text} {entry : Entry} (found : lookup? name = some entry) :
    (∀ u ∈ name, Text.isWordUnit u = true) ∧ (Lexeme.name name).ReadsBack := by
  obtain ⟨before, behind, split, _⟩ := List.lookup_eq_some_iff.mp found
  have listed : (name, entry) ∈ table := by simp [split]
  have units : ∀ row ∈ table, row.1.all Text.isWordUnit = true := by decide
  have words : ∀ row ∈ table, (Lexeme.name row.1).ReadsBack := by decide
  exact ⟨List.all_eq_true.mp (units _ listed), words _ listed⟩

def Failure.fault? : Failure → Option Fault
  | unreadable _ => none
  | faulty e => some e.fault
  | timedOut _ => none

namespace Evaluate

theorem number_map {raise : Nat → Fault} (result : Except Fault Binary64) :
    (result.map Value.number).bind (Value.number? raise) = result := by
  cases result <;> rfl

theorem binary_number (op : BinaryOp) (x y : Binary64) {raise : Nat → Fault} :
    (binary op (.number x) (.number y)).bind (Value.number? raise) =
      (op.apply x y).bind (finite (.operator op)) := by
  simp only [binary, Value.number?]
  cases op.apply x y with
  | error fault => rfl
  | ok z => exact number_map _

theorem call_numbers (r : Registry) (text : Text) (f : Function) (xs : List Binary64)
    {raise : Nat → Fault} :
    (call r text f (xs.map .number)).bind (Value.number? raise) =
      if xs.length < f.arity.1 ∨ f.arity.2 < xs.length then
        .error (.arity text f.arity.1 f.arity.2 xs.length)
      else (r.apply f (xs.map .number)).bind (finite (.call text)) := by
  rw [call, List.length_map]
  split
  · rfl
  · cases r.apply f (xs.map .number) with
    | error fault => rfl
    | ok z => exact number_map _

end Evaluate

namespace Session

variable {s : Session}

/-- A text comes to the expected value or fault, the place of the fault aside. If it exceeds the limits of
reading, it is refused for that. -/
structure Yields (s : Session) (t : Text) (expected : Except Fault Binary64) : Prop where
  within : ¬ BeyondLimits (normalize t) →
    (s.evaluate t).outcome.mapError Failure.fault? = expected.mapError some
  beyond : BeyondLimits (normalize t) →
    ∃ range, (s.evaluate t).outcome = .error (.unreadable ⟨.tooDeep, range⟩)

/-- The phrase of a text that has a value. -/
structure Reads (s : Session) (t : Text) (x : Binary64) (p : Phrase) : Prop where
  lexes : Lexes (normalize t) p.lexemes
  derives : Derives .expression p
  literals : p.FiniteLiterals
  meaning : p.tree.meaning s.registry = .ok (.number x)

theorem exists_reads {t : Text} {x : Binary64} (answer : (s.evaluate t).outcome = .ok x) :
    ∃ p, s.Reads t x p := by
  obtain ⟨tree, read, run⟩ := outcome_ok_iff.mp answer
  obtain ⟨_, p, lexed, derives, rfl, within, rfl⟩ := parse_derives read
  exact ⟨p, lexes_iff.mpr ⟨_, lexed, rfl⟩, derives, within.literals, Expr.meaning_number_iff.mpr run⟩

theorem forall₂_reads {ts : List Text} {xs : List Binary64}
    (answers : List.Forall₂ (fun t x => (s.evaluate t).outcome = .ok x) ts xs) :
    ∃ ps, List.Forall₂ (fun t p => Lexes t p.lexemes) (ts.map normalize) ps ∧
      (∀ p ∈ ps, Derives .expression p) ∧ (∀ p ∈ ps, p.FiniteLiterals) ∧
      Expr.meanings s.registry (ps.map Phrase.tree) = .ok (xs.map Value.number) := by
  induction answers with
  | nil => exact ⟨[], .nil, by simp, by simp, rfl⟩
  | @cons t x ts xs answer _ ih =>
    obtain ⟨p, reads⟩ := exists_reads answer
    obtain ⟨ps, lexes, derives, literals, meanings⟩ := ih
    refine ⟨p :: ps, .cons reads.lexes lexes, ?_, ?_, ?_⟩
    · simpa using ⟨reads.derives, derives⟩
    · simpa using ⟨reads.literals, literals⟩
    · rw [List.map_cons, Expr.meanings_cons, reads.meaning, meanings]
      rfl

theorem yields_of_phrase {t : Text} {p : Phrase} {expected : Except Fault Binary64}
    (lexes : Lexes (normalize t) p.lexemes) (derives : Derives .expression p)
    (literals : p.FiniteLiterals) (amount : p.tree.amount s.registry = expected) :
    s.Yields t expected := by
  obtain ⟨inside, beyond⟩ := parse_of_lexes_limited lexes derives literals
  constructor
  · intro within
    obtain ⟨tree, read, same⟩ := inside within
    have amount' : tree.amount s.registry = expected := by
      rw [Expr.amount_eq, Expr.meaning_of_unplaced_eq same, ← Expr.amount_eq, amount]
    have read' : s.parse t = .ok tree := read
    rw [← amount', evaluate, outcome, read', Expr.amount]
    dsimp only
    cases evaluateNumber s.registry tree <;> rfl
  · intro deep
    obtain ⟨range, refused⟩ := beyond deep
    have refused' : s.parse t = .error ⟨.tooDeep, range⟩ := refused
    exact ⟨range, by rw [evaluate, outcome, refused']⟩

section Composed

variable {t t' : Text} {x y : Binary64} {p q : Phrase}

theorem yields_group (reads : s.Reads t x p) : s.Yields ("(" ++ t ++ ")") (.ok x) := by
  refine yields_of_phrase (p := .group default default p) ?_
    (Derives.group _ _ _ reads.derives).expression_of (reads.literals.group _ _) ?_
  · rw [normalize_group]
    exact lexes_group _ _ reads.lexes
  · rw [Expr.amount_eq]
    show (p.tree.meaning s.registry).bind _ = _
    rw [reads.meaning]
    rfl

theorem yields_negative_group (reads : s.Reads t x p) : s.Yields ("-(" ++ t ++ ")") (.ok (-x)) := by
  have group := Derives.group default default p reads.derives
  refine yields_of_phrase (p := .signed true default (.group default default p)) ?_
    (Derives.signed true _ _ (group.unary_of (by decide))).expression_of
    ((reads.literals.group _ _).signed _ _) ?_
  · rw [normalize_negative_group]
    exact lexes_signed true _ (lexes_group _ _ reads.lexes)
  · rw [Expr.amount_eq]
    show (Expr.meaning s.registry (.unary .minus p.tree _)).bind _ = _
    rw [Expr.meaning_unary, reads.meaning]
    rfl

theorem yields_operation {op : Operator} {sign : Text} (spells : sign ∈ op.spellings)
    (left : s.Reads t x p) (right : s.Reads t' y q) :
    s.Yields ("(" ++ t ++ ") " ++ sign ++ " (" ++ t' ++ ")")
      ((op.apply x y).bind (finite (.operator (.known op)))) := by
  have first := Derives.group default default p left.derives
  have second := Derives.group default default q right.derives
  have low : op.level ≤ Category.primary.level := by cases op <;> decide
  have high : op.rightLevel ≤ Category.primary.level := by cases op <;> decide
  obtain ⟨c, derives, _, _⟩ := Parser.derives_operation default first low second high
  refine yields_of_phrase ?_ derives.expression_of
    ((left.literals.group _ _).operation (right.literals.group _ _) _ _) ?_
  · rw [normalize_operation spells]
    exact lexes_operation op _ (lexes_group _ _ left.lexes) (lexes_group _ _ right.lexes)
  · rw [Expr.amount_eq]
    show (Expr.meaning s.registry (.binary (.known op) p.tree q.tree _)).bind _ = _
    rw [Expr.meaning_binary, left.meaning, right.meaning]
    exact Evaluate.binary_number _ _ _

end Composed

theorem yields_call {name : Text} {f : Function} (found : Entry.lookup? name = some (.function f))
    {ts : List Text} {xs : List Binary64}
    (answers : List.Forall₂ (fun t x => (s.evaluate t).outcome = .ok x) ts xs) :
    s.Yields (name ++ "(" ++ Text.join ", " ts ++ ")")
      (if xs.length < f.arity.1 ∨ f.arity.2 < xs.length then
        .error (.arity name f.arity.1 f.arity.2 xs.length)
      else (s.registry.apply f (xs.map .number)).bind (finite (.call name))) := by
  obtain ⟨units, word⟩ := Entry.name_word found
  obtain ⟨ps, lexes, derives, literals, meanings⟩ := forall₂_reads answers
  have inner : ∀ p ∈ (Items.ofPhrases ps).phrases, Derives .expression p := by
    rwa [Items.phrases_ofPhrases]
  have finiteItems : ∀ p ∈ (Items.ofPhrases ps).phrases, p.FiniteLiterals := by
    rwa [Items.phrases_ofPhrases]
  refine yields_of_phrase (p := .call name default default default (.ofPhrases ps)) ?_
    (Derives.call _ _ _ _ _ inner).expression_of (.call finiteItems _ _ _ _) ?_
  · rw [normalize_call units]
    exact lexes_call _ _ _ word lexes
  · have callee : Evaluate.callee name = .ok f := Evaluate.callee_ok_iff.mpr found
    rw [Expr.amount_eq]
    show (Expr.meaning s.registry (.call name (Items.ofPhrases ps).trees _)).bind _ = _
    rw [Expr.meaning_call, callee, Items.trees, Items.phrases_ofPhrases, meanings]
    exact Evaluate.call_numbers _ _ _ _

/-- The parts of a text that is put together keep their values. The caret is the power sign. -/
theorem evaluate_composed (s : Session) :
    (∀ t x, (s.evaluate t).outcome = .ok x →
      s.Yields ("(" ++ t ++ ")") (.ok x) ∧ s.Yields ("-(" ++ t ++ ")") (.ok (-x))) ∧
    (∀ t t' x y, (s.evaluate t).outcome = .ok x → (s.evaluate t').outcome = .ok y →
      ∀ op : Operator, ∀ sign ∈ op.spellings,
        s.Yields ("(" ++ t ++ ") " ++ sign ++ " (" ++ t' ++ ")")
          ((op.apply x y).bind (finite (.operator (.known op))))) ∧
    (∀ name f, Entry.lookup? name = some (.function f) →
      ∀ ts xs, List.Forall₂ (fun t x => (s.evaluate t).outcome = .ok x) ts xs →
        s.Yields (name ++ "(" ++ Text.join ", " ts ++ ")")
          (if xs.length < f.arity.1 ∨ f.arity.2 < xs.length then
            .error (.arity name f.arity.1 f.arity.2 xs.length)
          else (s.registry.apply f (xs.map .number)).bind (finite (.call name)))) := by
  refine ⟨?_, ?_, ?_⟩
  · intro t x answer
    obtain ⟨p, reads⟩ := exists_reads answer
    exact ⟨yields_group reads, yields_negative_group reads⟩
  · intro t t' x y answer answer' op sign spells
    obtain ⟨p, left⟩ := exists_reads answer
    obtain ⟨q, right⟩ := exists_reads answer'
    exact yields_operation spells left right
  · intro name f found ts xs answers
    exact yields_call found answers

/-- What becomes of the memory and its negative, in parentheses, under a caret and in calls. -/
theorem memory_composed :
    Yields ⟨.degrees, .pi⟩ "(mem)" (.ok .pi) ∧ Yields ⟨.degrees, .pi⟩ "-(mem)" (.ok (-.pi)) ∧
      Yields ⟨.degrees, .pi⟩ "(mem) - (-mem)" (.ok .tau) ∧
      Yields ⟨.degrees, .pi⟩ "(mem - mem) ^ (-mem)" (.error .zeroToNegativePower) ∧
      Yields ⟨.degrees, .pi⟩ "sum(mem, -mem)" (.error .sumOfNumber) ∧
      Yields ⟨.degrees, .pi⟩ "sin(mem, -mem)" (.error (.arity "sin" 1 1 2)) := by
  have positive : (evaluate ⟨.degrees, .pi⟩ "mem").outcome = .ok .pi := by decide +kernel
  have negative : (evaluate ⟨.degrees, .pi⟩ "-mem").outcome = .ok (-.pi) := by decide +kernel
  have zero : (evaluate ⟨.degrees, .pi⟩ "mem - mem").outcome = .ok .zero := by decide +kernel
  have difference : (Operator.minus.apply .pi (-.pi)).bind (finite (.operator (.known .minus))) =
      .ok Binary64.tau := by decide +kernel
  have power : (Operator.power.apply .zero (-.pi)).bind (finite (.operator (.known .power))) =
      .error .zeroToNegativePower := by decide +kernel
  obtain ⟨enclosed, operations, calls⟩ := evaluate_composed ⟨.degrees, .pi⟩
  have minus := operations _ _ _ _ positive negative .minus "-" List.mem_cons_self
  have caret := operations _ _ _ _ zero negative .power "^" (List.mem_cons_of_mem _ List.mem_cons_self)
  have both : List.Forall₂ (fun t x => (evaluate ⟨.degrees, .pi⟩ t).outcome = .ok x)
      ["mem", "-mem"] [.pi, -.pi] := .cons positive (.cons negative .nil)
  rw [difference] at minus
  rw [power] at caret
  exact ⟨(enclosed _ _ positive).1, (enclosed _ _ positive).2, minus, caret,
    calls "sum" .sum rfl _ _ both, calls "sin" .sin rfl _ _ both⟩

end Session

end Calculator
