import Mathlib.Data.List.Forall2
import Calculator.Evaluation.Evaluator
import Calculator.Proofs.Expression.Parts

/-!
What an evaluation did, read off its result: the values behind a value, and the node behind an error.
-/
namespace Calculator

section Results

variable {range : Span} {err : EvaluationError} {fault : Fault} {x y : Binary64} {v w : Value}

theorem located_ok_iff {α : Type} {result : Except Fault α} {a : α} :
    located range result = .ok a ↔ result = .ok a := by
  cases result <;> simp [located]

theorem located_error_iff {α : Type} {result : Except Fault α} :
    located range result = .error err ↔ ∃ fault, result = .error fault ∧ err = ⟨fault, some range⟩ := by
  cases result <;> simp [located, eq_comm]

theorem Value.number_ok_iff {raise : Nat → Fault} : v.number? raise = .ok x ↔ v = .number x := by
  cases v <;> simp [Value.number?]

theorem Value.number_error {raise : Nat → Fault} (failed : v.number? raise = .error fault) :
    ∃ items, v = .list items ∧ fault = raise items.length := by
  cases v with
  | number x => cases failed
  | list items => exact ⟨items, rfl, (Except.error.inj failed).symm⟩

theorem finite_ok_iff {origin : Origin} : finite origin x = .ok y ↔ x.isFinite = true ∧ y = x := by
  cases x <;> simp [finite, Binary64.isFinite, eq_comm]

theorem finite_error {origin : Origin} (failed : finite origin x = .error fault) :
    fault = .undefined origin ∨ fault = .outOfRange origin := by
  cases x with
  | nan =>
    cases failed
    exact .inl rfl
  | infinite negative =>
    cases failed
    exact .inr rfl
  | finite => cases failed

theorem map_number_ok_iff {result : Except Fault Binary64} :
    result.map Value.number = .ok v ↔ ∃ x, result = .ok x ∧ v = .number x := by
  cases result <;> simp [Except.map, eq_comm]

theorem map_number_error_iff {result : Except Fault Binary64} :
    result.map Value.number = .error fault ↔ result = .error fault := by
  cases result <;> simp [Except.map]

namespace Evaluate

theorem name_ok_iff {text : Text} :
    name text = .ok v ↔
      ∃ c, Entry.lookup? text = some (.constant c) ∧ v = .number (Registry.constantValue c) := by
  cases found : Entry.lookup? text with
  | none => simp [name, found]
  | some entry => cases entry <;> simp [name, found, eq_comm]

theorem unary_ok_iff {op : UnaryOp} :
    unary op v = .ok w ↔ ∃ x y, v = .number x ∧ op.apply x = .ok y ∧ w = .number y := by
  unfold unary
  cases v <;> simp [Value.number?, map_number_ok_iff]

theorem binary_ok_iff {op : BinaryOp} {left right : Value} :
    binary op left right = .ok w ↔
      ∃ x y z, left = .number x ∧ right = .number y ∧ op.apply x y = .ok z ∧ z.isFinite = true ∧
        w = .number z := by
  cases left with
  | list items => simp [binary, Value.number?]
  | number x =>
    cases right with
    | list items => simp [binary, Value.number?]
    | number y =>
      cases result : op.apply x y with
      | error fault => simp [binary, Value.number?, result]
      | ok z => simp [binary, Value.number?, result, map_number_ok_iff, finite_ok_iff]

theorem unary_error {op : UnaryOp} (failed : unary op v = .error fault) :
    (∃ items, v = .list items ∧ fault = .signedList op items.length) ∨
      ∃ x, v = .number x ∧ op.apply x = .error fault := by
  cases v with
  | list items =>
    cases failed
    exact .inl ⟨items, rfl, rfl⟩
  | number x => exact .inr ⟨x, rfl, map_number_error_iff.mp failed⟩

theorem binary_error {op : BinaryOp} {left right : Value}
    (failed : binary op left right = .error fault) :
    (∃ items, (left = .list items ∨ right = .list items) ∧ fault = .operandIsList op items.length) ∨
      (∃ x y, left = .number x ∧ right = .number y ∧ op.apply x y = .error fault) ∨
      fault = .undefined (.operator op) ∨ fault = .outOfRange (.operator op) := by
  cases left with
  | list items =>
    cases failed
    exact .inl ⟨items, .inl rfl, rfl⟩
  | number x =>
    cases right with
    | list items =>
      cases failed
      exact .inl ⟨items, .inr rfl, rfl⟩
    | number y =>
      cases result : op.apply x y with
      | error cause =>
        simp only [binary, Value.number?, result, Except.error.injEq] at failed
        exact .inr (.inl ⟨x, y, rfl, rfl, by rw [← failed]; exact result⟩)
      | ok z =>
        simp only [binary, Value.number?, result, map_number_error_iff] at failed
        exact .inr (.inr (finite_error failed))

theorem callee_ok_iff {text : Text} {f : Function} :
    callee text = .ok f ↔ Entry.lookup? text = some (.function f) := by
  cases found : Entry.lookup? text with
  | none => simp [callee, found]
  | some entry => cases entry <;> simp [callee, found]

theorem call_ok_iff {r : Registry} {text : Text} {f : Function} {args : List Value} :
    call r text f args = .ok w ↔
      f.arity.1 ≤ args.length ∧ args.length ≤ f.arity.2 ∧
        ∃ x, r.apply f args = .ok x ∧ x.isFinite = true ∧ w = .number x := by
  unfold call
  by_cases outside : args.length < f.arity.1 ∨ f.arity.2 < args.length
  · simp only [outside, if_true, reduceCtorEq, false_iff]
    omega
  · have low : f.arity.1 ≤ args.length := by omega
    have high : args.length ≤ f.arity.2 := by omega
    cases result : r.apply f args with
    | error fault => simp [outside]
    | ok x => simp [outside, low, high, map_number_ok_iff, finite_ok_iff]

theorem call_error {r : Registry} {text : Text} {f : Function} {args : List Value}
    (failed : call r text f args = .error fault) :
    ((args.length < f.arity.1 ∨ f.arity.2 < args.length) ∧
        fault = .arity text f.arity.1 f.arity.2 args.length) ∨
      (f.arity.1 ≤ args.length ∧ args.length ≤ f.arity.2 ∧ r.apply f args = .error fault) ∨
      fault = .undefined (.call text) ∨ fault = .outOfRange (.call text) := by
  unfold call at failed
  split at failed
  · rename_i outside
    cases failed
    exact .inl ⟨outside, rfl⟩
  rename_i inside
  split at failed
  · rename_i result
    cases failed
    exact .inr (.inl ⟨by omega, by omega, result⟩)
  · exact .inr (.inr (finite_error (map_number_error_iff.mp failed)))

end Evaluate

end Results

variable {r : Registry}

theorem evaluateAll_ok_iff {es : List Expr} {values : List Value} :
    evaluateAll r es = .ok values ↔ List.Forall₂ (fun e v => evaluate r e = .ok v) es values := by
  induction es generalizing values with
  | nil => simp [evaluateAll, eq_comm]
  | cons e rest ih =>
    rw [List.forall₂_cons_left_iff]
    cases first : evaluate r e with
    | error err => simp [evaluateAll, first]
    | ok v =>
      cases later : evaluateAll r rest with
      | error err => simp [evaluateAll, first, later, ← ih]
      | ok vs => simp [evaluateAll, first, later, ← ih, eq_comm]

/-- The first of several expressions that fails; all before it have values. -/
theorem evaluateAll_error_split {es : List Expr} {err : EvaluationError}
    (failed : evaluateAll r es = .error err) :
    ∃ before e behind, es = before ++ e :: behind ∧ (∀ e' ∈ before, ∃ v, evaluate r e' = .ok v) ∧
      evaluate r e = .error err := by
  induction es with
  | nil => cases failed
  | cons e rest ih =>
    unfold evaluateAll at failed
    split at failed
    · rename_i first
      cases failed
      exact ⟨[], e, rest, rfl, by simp, first⟩
    rename_i v first
    split at failed
    · rename_i later
      cases failed
      obtain ⟨before, e', behind, rfl, fine, found⟩ := ih later
      exact ⟨e :: before, e', behind, rfl, by simpa using ⟨⟨v, first⟩, fine⟩, found⟩
    · cases failed

theorem evaluateAll_error {es : List Expr} {err : EvaluationError}
    (failed : evaluateAll r es = .error err) : ∃ e ∈ es, evaluate r e = .error err := by
  obtain ⟨before, e, behind, rfl, _, found⟩ := evaluateAll_error_split failed
  exact ⟨e, by simp, found⟩

theorem evaluate_unary_ok_iff {op : UnaryOp} {operand : Expr} {range : Span} {v : Value} :
    evaluate r (.unary op operand range) = .ok v ↔
      ∃ x y, evaluate r operand = .ok (.number x) ∧ op.apply x = .ok y ∧ v = .number y := by
  cases inner : evaluate r operand with
  | error err => simp [evaluate, inner]
  | ok value => simp [evaluate, inner, located_ok_iff, Evaluate.unary_ok_iff]

theorem evaluate_binary_ok_iff {op : BinaryOp} {left right : Expr} {range : Span} {v : Value} :
    evaluate r (.binary op left right range) = .ok v ↔
      ∃ x y z, evaluate r left = .ok (.number x) ∧ evaluate r right = .ok (.number y) ∧
        op.apply x y = .ok z ∧ z.isFinite = true ∧ v = .number z := by
  cases first : evaluate r left with
  | error err => simp [evaluate, first]
  | ok value =>
    cases second : evaluate r right with
    | error err => simp [evaluate, first, second]
    | ok value' => simp [evaluate, first, second, located_ok_iff, Evaluate.binary_ok_iff]

theorem evaluate_call_ok_iff {text : Text} {args : List Expr} {range : Span} {v : Value} :
    evaluate r (.call text args range) = .ok v ↔
      ∃ f values x, Entry.lookup? text = some (.function f) ∧
        List.Forall₂ (fun e v => evaluate r e = .ok v) args values ∧
        f.arity.1 ≤ values.length ∧ values.length ≤ f.arity.2 ∧
        r.apply f values = .ok x ∧ x.isFinite = true ∧ v = .number x := by
  simp only [← Evaluate.callee_ok_iff, ← evaluateAll_ok_iff]
  cases found : Evaluate.callee text with
  | error fault => simp [evaluate, found]
  | ok f =>
    cases given : evaluateAll r args with
    | error err => simp [evaluate, found, given]
    | ok values => simp [evaluate, found, given, located_ok_iff, Evaluate.call_ok_iff]

theorem evaluate_list_ok_iff {elements : List Expr} {range : Span} {v : Value} :
    evaluate r (.list elements range) = .ok v ↔
      ∃ values, List.Forall₂ (fun e v => evaluate r e = .ok v) elements values ∧ v = .list values := by
  simp only [← evaluateAll_ok_iff]
  cases given : evaluateAll r elements with
  | error err => simp [evaluate, given]
  | ok values => simp [evaluate, given, eq_comm]

theorem evaluateNumber_ok_iff {e : Expr} {x : Binary64} :
    evaluateNumber r e = .ok x ↔ evaluate r e = .ok (.number x) := by
  cases run : evaluate r e with
  | error err => simp [evaluateNumber, run]
  | ok v => simp [evaluateNumber, run, located_ok_iff, Value.number_ok_iff]

/-- The errors of a node's own: its children, as far as it needs them, have values. -/
inductive Raises (r : Registry) : Expr → EvaluationError → Prop where
  | name {text : Text} {range : Span} {fault : Fault} (cause : Evaluate.name text = .error fault) :
    Raises r (.name text range) ⟨fault, some range⟩
  | unary {op : UnaryOp} {operand : Expr} {range : Span} {v : Value} {fault : Fault}
    (inner : evaluate r operand = .ok v) (cause : Evaluate.unary op v = .error fault) :
    Raises r (.unary op operand range) ⟨fault, some range⟩
  | binary {op : BinaryOp} {left right : Expr} {range : Span} {v w : Value} {fault : Fault}
    (first : evaluate r left = .ok v) (second : evaluate r right = .ok w)
    (cause : Evaluate.binary op v w = .error fault) :
    Raises r (.binary op left right range) ⟨fault, some range⟩
  | callee {text : Text} {args : List Expr} {range : Span} {fault : Fault}
    (cause : Evaluate.callee text = .error fault) : Raises r (.call text args range) ⟨fault, some range⟩
  | call {text : Text} {f : Function} {args : List Expr} {values : List Value} {range : Span}
    {fault : Fault} (found : Evaluate.callee text = .ok f) (given : evaluateAll r args = .ok values)
    (cause : Evaluate.call r text f values = .error fault) :
    Raises r (.call text args range) ⟨fault, some range⟩
  | foreign {kind : Text} {range : Span} : Raises r (.foreign kind range) ⟨.unsupported kind, none⟩

/-- Every child that comes before the one at hand has a value. -/
structure FailsAt (r : Registry) (e child : Expr) (err : EvaluationError) : Prop where
  split : ∃ before behind, e.children = before ++ child :: behind ∧
    ∀ e' ∈ before, ∃ v, evaluate r e' = .ok v
  failed : evaluate r child = .error err

theorem failsAt_only {e child : Expr} {err : EvaluationError} (only : e.children = [child])
    (failed : evaluate r child = .error err) : FailsAt r e child err :=
  ⟨⟨[], [], only, by simp⟩, failed⟩

theorem exists_failsAt {e : Expr} {err : EvaluationError} (failed : evaluateAll r e.children = .error err) :
    ∃ child, FailsAt r e child err := by
  obtain ⟨before, child, behind, split, fine, found⟩ := evaluateAll_error_split failed
  exact ⟨child, ⟨before, behind, split, fine⟩, found⟩

/-- A call of a name that is no function. -/
def Expr.CallsNoFunction : Expr → Prop
  | .call text _ _ => ∀ f, Entry.lookup? text ≠ some (.function f)
  | _ => False

/-- A node fails on its own, or because a child fails that it needs. -/
theorem evaluate_error_cases {e : Expr} {err : EvaluationError} (failed : evaluate r e = .error err) :
    Raises r e err ∨ ¬ e.CallsNoFunction ∧ ∃ child, FailsAt r e child err := by
  cases e with
  | number value raw range => cases failed
  | name text range =>
    obtain ⟨fault, cause, rfl⟩ := located_error_iff.mp failed
    exact .inl (.name cause)
  | unary op operand range =>
    unfold evaluate at failed
    split at failed
    · rename_i inner
      cases failed
      exact .inr ⟨id, operand, failsAt_only rfl inner⟩
    · rename_i inner
      obtain ⟨fault, cause, rfl⟩ := located_error_iff.mp failed
      exact .inl (.unary inner cause)
  | binary op left right range =>
    unfold evaluate at failed
    split at failed
    · rename_i inner
      cases failed
      exact .inr ⟨id, left, ⟨⟨[], [right], rfl, by simp⟩, inner⟩⟩
    rename_i v left'
    split at failed
    · rename_i inner
      cases failed
      exact .inr ⟨id, right, ⟨⟨[left], [], rfl, by simp [left']⟩, inner⟩⟩
    · rename_i right'
      obtain ⟨fault, cause, rfl⟩ := located_error_iff.mp failed
      exact .inl (.binary left' right' cause)
  | call text args range =>
    unfold evaluate at failed
    split at failed
    · rename_i cause
      cases failed
      exact .inl (.callee cause)
    rename_i f found
    split at failed
    · rename_i inner
      cases failed
      exact .inr ⟨fun none => none f (Evaluate.callee_ok_iff.mp found), exists_failsAt inner⟩
    · rename_i given
      obtain ⟨fault, cause, rfl⟩ := located_error_iff.mp failed
      exact .inl (.call found given cause)
  | list elements range =>
    unfold evaluate at failed
    split at failed
    · rename_i inner
      cases failed
      exact .inr ⟨id, exists_failsAt inner⟩
    · cases failed
  | foreign kind range =>
    cases failed
    exact .inl .foreign

/-- An error of an evaluation is one node's own. -/
theorem evaluate_error_raised {e : Expr} {err : EvaluationError} (failed : evaluate r e = .error err) :
    ∃ node : Expr, node.PartOf e ∧ Raises r node err := by
  induction e using Expr.children_induction with
  | node e ih =>
    rcases evaluate_error_cases failed with own | ⟨_, child, ⟨before, behind, split, _⟩, inner⟩
    · exact ⟨e, .whole, own⟩
    · have member : child ∈ e.children := by simp [split]
      obtain ⟨node, part, raises⟩ := ih child member inner
      exact ⟨node, .inside member part, raises⟩

end Calculator
