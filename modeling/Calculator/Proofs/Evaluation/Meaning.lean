import Calculator.Proofs.Evaluation.Inversion
import Calculator.Proofs.Expression.Relocation

/-!
What a tree means: its value, or the fault that it has instead of one, wherever in a text that arose. A
tree means what its parts mean put together, and the places of its parts do not matter.
-/
namespace Calculator

def Expr.meaning (r : Registry) (e : Expr) : Except Fault Value :=
  (evaluate r e).mapError EvaluationError.fault

def Expr.meanings (r : Registry) (es : List Expr) : Except Fault (List Value) :=
  (evaluateAll r es).mapError EvaluationError.fault

/-- What a tree means as a whole expression. -/
def Expr.amount (r : Registry) (e : Expr) : Except Fault Binary64 :=
  (evaluateNumber r e).mapError EvaluationError.fault

theorem located_mapError {α : Type} (range : Span) (result : Except Fault α) :
    (located range result).mapError EvaluationError.fault = result := by
  cases result <;> rfl

namespace Expr

variable {r : Registry}

theorem meaning_unary (op : UnaryOp) (operand : Expr) (range : Span) :
    meaning r (.unary op operand range) = (meaning r operand).bind (Evaluate.unary op) := by
  unfold meaning
  rw [evaluate]
  cases evaluate r operand with
  | error e => rfl
  | ok v => exact located_mapError range _

theorem meaning_binary (op : BinaryOp) (left right : Expr) (range : Span) :
    meaning r (.binary op left right range) =
      (meaning r left).bind fun v => (meaning r right).bind (Evaluate.binary op v) := by
  unfold meaning
  rw [evaluate]
  cases evaluate r left with
  | error e => rfl
  | ok v =>
    cases evaluate r right with
    | error e => rfl
    | ok w => exact located_mapError range _

theorem meaning_call (callee : Text) (args : List Expr) (range : Span) :
    meaning r (.call callee args range) =
      (Evaluate.callee callee).bind fun f => (meanings r args).bind (Evaluate.call r callee f) := by
  unfold meaning meanings
  rw [evaluate]
  cases Evaluate.callee callee with
  | error fault => rfl
  | ok f =>
    cases evaluateAll r args with
    | error e => rfl
    | ok values => exact located_mapError range _

theorem meaning_list (elements : List Expr) (range : Span) :
    meaning r (.list elements range) = (meanings r elements).map .list := by
  unfold meaning meanings
  rw [evaluate]
  cases evaluateAll r elements <;> rfl

theorem meanings_cons (e : Expr) (rest : List Expr) :
    meanings r (e :: rest) = (meaning r e).bind fun v => (meanings r rest).map (v :: ·) := by
  unfold meaning meanings
  rw [evaluateAll]
  cases evaluate r e with
  | error err => rfl
  | ok v => cases evaluateAll r rest <;> rfl

theorem amount_eq (e : Expr) : amount r e = (meaning r e).bind (Value.number? .valueIsList) := by
  unfold amount meaning
  rw [evaluateNumber]
  cases evaluate r e with
  | error err => rfl
  | ok v => exact located_mapError e.range _

theorem meanings_unplacedAll {es : List Expr} (each : ∀ e ∈ es, meaning r e.unplaced = meaning r e) :
    meanings r (unplacedAll es) = meanings r es := by
  induction es with
  | nil => rfl
  | cons e rest ih =>
    simp only [List.mem_cons, forall_eq_or_imp] at each
    rw [unplacedAll, meanings_cons, meanings_cons, each.1, ih each.2]

theorem meaning_unplaced (e : Expr) : meaning r e.unplaced = meaning r e := by
  induction e with
  | number value raw range => rfl
  | name text range =>
    unfold meaning
    rw [unplaced, evaluate, evaluate, located_mapError, located_mapError]
  | unary op operand range ih => rw [unplaced, meaning_unary, meaning_unary, ih]
  | binary op left right range first second =>
    rw [unplaced, meaning_binary, meaning_binary, first, second]
  | call callee args range ih => rw [unplaced, meaning_call, meaning_call, meanings_unplacedAll ih]
  | list elements range ih => rw [unplaced, meaning_list, meaning_list, meanings_unplacedAll ih]
  | foreign kind range => rfl

theorem meaning_of_unplaced_eq {e e' : Expr} (same : e.unplaced = e'.unplaced) :
    meaning r e = meaning r e' := by
  rw [← meaning_unplaced e, same, meaning_unplaced e']

theorem meaning_number_iff {e : Expr} {x : Binary64} :
    meaning r e = .ok (.number x) ↔ evaluateNumber r e = .ok x := by
  rw [evaluateNumber_ok_iff, meaning]
  cases evaluate r e <;> simp [Except.mapError]

end Expr

end Calculator
