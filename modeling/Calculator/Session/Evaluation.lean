import Calculator.Evaluation.Evaluator
import Calculator.Expression.Parser
import Calculator.Number.Display

/-!
The outcome of one expression: its value, or why it has none.
-/
namespace Calculator

inductive Failure where
  | unreadable (e : SyntaxError)
  | faulty (e : EvaluationError)
  | timedOut (limit : Binary64)
  deriving DecidableEq

namespace Failure

def kind : Failure → ErrorKind
  | unreadable _ => .parseError
  | faulty e => e.fault.kind
  | timedOut _ => .timeout

def message : Failure → Text
  | unreadable e => e.cause.message
  | faulty e => e.fault.message
  | timedOut limit => "Evaluation timed out after " ++ limit.toText ++ "ms"

/-- Offsets into the normalized text. -/
def span : Failure → Option Span
  | unreadable e => some e.range
  | faulty e => e.span
  | timedOut _ => none

end Failure

structure Evaluation where
  expression : Text
  normalized : Text
  outcome : Except Failure Binary64

def Evaluation.ok (e : Evaluation) : Bool :=
  match e.outcome with
  | .ok _ => true
  | .error _ => false

end Calculator
