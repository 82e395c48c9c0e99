import Calculator.Evaluation.Registry

/-!
Evaluating a tree against the allow-list. Operands and arguments are evaluated from left to right and
the first failure ends the evaluation; the arguments of an unknown function are not evaluated at all.
-/
namespace Calculator

/-- A fault and, unless the node itself is not of the language, the range of the node it arose at. -/
structure EvaluationError where
  fault : Fault
  span : Option Span
  deriving DecidableEq

def located (range : Span) {α : Type} : Except Fault α → Except EvaluationError α
  | .ok a => .ok a
  | .error fault => .error ⟨fault, some range⟩

/-- The number a value is; a list raises the given fault. -/
def Value.number? (raise : Nat → Fault) : Value → Except Fault Binary64
  | .number x => .ok x
  | .list items => .error (raise items.length)

namespace Evaluate

def binary (op : BinaryOp) (left right : Value) : Except Fault Value :=
  match left.number? (.operandIsList op), right.number? (.operandIsList op) with
  | .error e, _ => .error e
  | _, .error e => .error e
  | .ok x, .ok y =>
    match op.apply x y with
    | .error e => .error e
    | .ok z => (finite (.operator op) z).map .number

def unary (op : UnaryOp) (operand : Value) : Except Fault Value :=
  match operand.number? (.signedList op) with
  | .error e => .error e
  | .ok x => (op.apply x).map .number

def name (text : Text) : Except Fault Value :=
  match Entry.lookup? text with
  | some (.constant c) => .ok (.number (Registry.constantValue c))
  | some (.function _) => .error (.functionAsName text)
  | none => .error (.unknownName text)

/-- The function a call names. -/
def callee (text : Text) : Except Fault Function :=
  match Entry.lookup? text with
  | some (.function f) => .ok f
  | some (.constant _) => .error (.notCallable text)
  | none => .error (.unknownFunction text)

def call (r : Registry) (text : Text) (f : Function) (args : List Value) : Except Fault Value :=
  if args.length < f.arity.1 ∨ f.arity.2 < args.length then
    .error (.arity text f.arity.1 f.arity.2 args.length)
  else
    match r.apply f args with
    | .error e => .error e
    | .ok x => (finite (.call text) x).map .number

end Evaluate

mutual

def evaluate (r : Registry) : Expr → Except EvaluationError Value
  | .number value _ _ => .ok (.number value)
  | .name text range => located range (Evaluate.name text)
  | .unary op operand range =>
    match evaluate r operand with
    | .error e => .error e
    | .ok x => located range (Evaluate.unary op x)
  | .binary op left right range =>
    match evaluate r left with
    | .error e => .error e
    | .ok x =>
      match evaluate r right with
      | .error e => .error e
      | .ok y => located range (Evaluate.binary op x y)
  | .call text args range =>
    match Evaluate.callee text with
    | .error fault => .error ⟨fault, some range⟩
    | .ok f =>
      match evaluateAll r args with
      | .error e => .error e
      | .ok values => located range (Evaluate.call r text f values)
  | .list elements _ =>
    match evaluateAll r elements with
    | .error e => .error e
    | .ok values => .ok (.list values)
  | .foreign kind _ => .error ⟨.unsupported kind, none⟩

def evaluateAll (r : Registry) : List Expr → Except EvaluationError (List Value)
  | [] => .ok []
  | e :: rest =>
    match evaluate r e with
    | .error e => .error e
    | .ok x =>
      match evaluateAll r rest with
      | .error e => .error e
      | .ok values => .ok (x :: values)

end

/-- The number a whole expression stands for. -/
def evaluateNumber (r : Registry) (e : Expr) : Except EvaluationError Binary64 :=
  match evaluate r e with
  | .error err => .error err
  | .ok x => located e.range (x.number? .valueIsList)

end Calculator
