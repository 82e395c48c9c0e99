import Calculator.Proofs.Evaluation.AllowList
import Calculator.Proofs.Expression.Placement
import Calculator.Proofs.Expression.Trees
import Calculator.Session.Session

/-!
Every failure of a session tells where in the normalized text it arose. No function is asked for an
argument that is not there, and what is read from a text is never refused as not of the language.
-/
namespace Calculator

def Fault.Missing (fault : Fault) : Prop :=
  ∃ f index, fault = .missingArgument f index

theorem Fault.not_missing_of_kind {fault : Fault} (kind : fault.kind ≠ .arityMismatch) :
    ¬ fault.Missing := by
  rintro ⟨f, index, rfl⟩
  exact kind rfl

theorem Fault.Numeric.kind {fault : Fault} (numeric : fault.Numeric) :
    fault.kind = .divisionByZero ∨ fault.kind = .domainError ∨ fault.kind = .typeMismatch := by
  rcases numeric with zero | domain | rfl
  · exact .inl zero
  · exact .inr (.inl domain)
  · exact .inr (.inr rfl)

/-- The faults that a node of the language can have. -/
def Fault.Ordinary (fault : Fault) : Prop :=
  fault.kind ≠ .unsupportedExpression ∧ ¬ fault.Missing

theorem Fault.ordinary_of_kind {fault : Fault}
    (kind : fault.kind = .divisionByZero ∨ fault.kind = .domainError ∨ fault.kind = .typeMismatch) :
    fault.Ordinary := by
  rcases kind with kind | kind | kind <;>
    exact ⟨by simp [kind], Fault.not_missing_of_kind (by simp [kind])⟩

namespace Evaluate

variable {fault : Fault}

theorem name_ordinary {text : Text} (failed : name text = .error fault) : fault.Ordinary := by
  unfold name at failed
  split at failed <;> cases failed <;>
    exact ⟨by simp [Fault.kind], Fault.not_missing_of_kind (by simp [Fault.kind])⟩

theorem callee_ordinary {text : Text} (failed : callee text = .error fault) : fault.Ordinary := by
  unfold callee at failed
  split at failed <;> cases failed <;>
    exact ⟨by simp [Fault.kind], Fault.not_missing_of_kind (by simp [Fault.kind])⟩

theorem call_ordinary {r : Registry} {text : Text} {f : Function} {args : List Value}
    (failed : call r text f args = .error fault) : fault.Ordinary := by
  rcases call_error failed with ⟨_, rfl⟩ | ⟨low, high, applied⟩ | rfl | rfl
  · exact ⟨by simp [Fault.kind], by rintro ⟨f, index, same⟩; cases same⟩
  · have lawful := Registry.apply_lawful r low high
    rw [applied] at lawful
    rcases lawful.fault with numeric | ⟨_, kind⟩
    · exact Fault.ordinary_of_kind numeric.kind
    · exact Fault.ordinary_of_kind (.inr (.inr kind))
  · exact Fault.ordinary_of_kind (.inr (.inl rfl))
  · exact Fault.ordinary_of_kind (.inr (.inl rfl))

/-- An operator of the language fails for its operands; one that it does not have is refused. -/
theorem binary_ordinary {op : BinaryOp} {left right : Value}
    (failed : binary op left right = .error fault) :
    fault.Ordinary ∨ ∃ symbol, op = .other symbol ∧ fault = .operatorNotAllowed symbol := by
  rcases binary_error failed with ⟨_, _, rfl⟩ | ⟨_, _, _, _, applied⟩ | rfl | rfl
  · exact .inl (Fault.ordinary_of_kind (.inr (.inr rfl)))
  · cases op with
    | known op => exact .inl (Fault.ordinary_of_kind (Operator.apply_numeric applied).kind)
    | other symbol =>
      cases applied
      exact .inr ⟨symbol, rfl, rfl⟩
  · exact .inl (Fault.ordinary_of_kind (.inr (.inl rfl)))
  · exact .inl (Fault.ordinary_of_kind (.inr (.inl rfl)))

theorem unary_ordinary {op : UnaryOp} {operand : Value} (failed : unary op operand = .error fault) :
    fault.Ordinary ∨ ∃ symbol, op = .other symbol ∧ fault = .signNotAllowed symbol := by
  rcases unary_error failed with ⟨_, _, rfl⟩ | ⟨_, _, applied⟩
  · exact .inl (Fault.ordinary_of_kind (.inr (.inr rfl)))
  · cases op with
    | plus => cases applied
    | minus => cases applied
    | other symbol =>
      cases applied
      exact .inr ⟨symbol, rfl, rfl⟩

end Evaluate

variable {r : Registry} {err : EvaluationError}

/-- An error is of an ordinary fault and stands where its node stands, unless the node is none that can
be read and is refused for that. -/
theorem Raises.ordinary_or_refused {node : Expr} (raises : Raises r node err) :
    (err.fault.Ordinary ∧ err.span = some node.range) ∨
      (¬ node.Readable ∧ err.fault.kind = .unsupportedExpression) := by
  cases raises with
  | name cause => exact .inl ⟨Evaluate.name_ordinary cause, rfl⟩
  | unary _ cause =>
    rcases Evaluate.unary_ordinary cause with ordinary | ⟨symbol, rfl, rfl⟩
    · exact .inl ⟨ordinary, rfl⟩
    · exact .inr ⟨id, rfl⟩
  | binary _ _ cause =>
    rcases Evaluate.binary_ordinary cause with ordinary | ⟨symbol, rfl, rfl⟩
    · exact .inl ⟨ordinary, rfl⟩
    · exact .inr ⟨id, rfl⟩
  | callee cause => exact .inl ⟨Evaluate.callee_ordinary cause, rfl⟩
  | call _ _ cause => exact .inl ⟨Evaluate.call_ordinary cause, rfl⟩
  | foreign => exact .inr ⟨id, rfl⟩

theorem Raises.readable {node : Expr} (raises : Raises r node err) (readable : node.Readable) :
    err.fault.Ordinary ∧ err.span = some node.range := by
  rcases raises.ordinary_or_refused with placed | ⟨unreadable, _⟩
  · exact placed
  · exact absurd readable unreadable

/-- No tree makes a function look for an argument beyond those it was given. -/
theorem Raises.not_missing {node : Expr} (raises : Raises r node err) : ¬ err.fault.Missing := by
  rcases raises.ordinary_or_refused with ⟨ordinary, _⟩ | ⟨_, refused⟩
  · exact ordinary.2
  · exact Fault.not_missing_of_kind (by simp [refused])

theorem evaluateNumber_error_readable {e : Expr}
    (readable : ∀ part : Expr, part.PartOf e → part.Readable) (failed : evaluateNumber r e = .error err) :
    err.fault.Ordinary ∧ ∃ node : Expr, node.PartOf e ∧ err.span = some node.range := by
  unfold evaluateNumber at failed
  split at failed
  · rename_i inner
    cases failed
    obtain ⟨node, part, raises⟩ := evaluate_error_raised inner
    obtain ⟨ordinary, place⟩ := raises.readable (readable node part)
    exact ⟨ordinary, node, part, place⟩
  · obtain ⟨fault, notNumber, rfl⟩ := located_error_iff.mp failed
    obtain ⟨items, _, rfl⟩ := Value.number_error notNumber
    exact ⟨Fault.ordinary_of_kind (.inr (.inr rfl)), e, .whole, rfl⟩

theorem Fault.kind_ne_timeout (fault : Fault) : fault.kind ≠ .timeout := by
  cases fault <;> simp [Fault.kind]

theorem Fault.kind_ne_parseError (fault : Fault) : fault.kind ≠ .parseError := by
  cases fault <;> simp [Fault.kind]

/-- A failure stands at a stretch of a text of the given length, or at its end. -/
def Failure.Located (length : Nat) (failure : Failure) : Prop :=
  ∃ span, failure.span = some span ∧ span.start ≤ span.stop ∧ span.stop ≤ length ∧
    (span.start < span.stop ∨ span.start = length ∧ span.stop = length)

namespace Session

theorem outcome_error {s : Session} {t : Text} {failure : Failure}
    (failed : s.outcome t = .error failure) :
    (∃ e, s.parse t = .error e ∧ failure = .unreadable e) ∨
      ∃ tree err, s.parse t = .ok tree ∧ evaluateNumber s.registry tree = .error err ∧
        failure = .faulty err := by
  unfold outcome at failed
  split at failed
  · rename_i e read
    cases failed
    exact .inl ⟨e, read, rfl⟩
  · rename_i tree read
    split at failed
    · rename_i err run
      cases failed
      exact .inr ⟨tree, err, read, run, rfl⟩
    · cases failed

theorem failed_located {s : Session} {t : Text} {failure : Failure}
    (failed : (s.evaluate t).outcome = .error failure) :
    failure.kind ≠ .unsupportedExpression ∧ failure.kind ≠ .timeout ∧
      failure.Located (s.evaluate t).normalized.length := by
  rcases outcome_error failed with ⟨e, read, rfl⟩ | ⟨tree, err, read, run, rfl⟩
  · obtain ⟨inside, extent⟩ := parse_error_placed read
    have ordered : e.range.start ≤ e.range.stop := by omega
    exact ⟨by simp [Failure.kind], by simp [Failure.kind], e.range, rfl, ordered, inside, extent⟩
  · obtain ⟨ordinary, node, part, place⟩ := evaluateNumber_error_readable (parse_readable read) run
    obtain ⟨_, extent, inside⟩ := parse_spans read node part
    exact ⟨ordinary.1, err.fault.kind_ne_timeout, node.range, place, Nat.le_of_lt extent, inside,
      .inl extent⟩

/-- A session fails at a place in the normalized text, for a cause that the language has, and no
evaluation, whatever the tree, ends at an argument that is not there. -/
theorem failure_located (s : Session) (t : Text) :
    (∀ failure, (s.evaluate t).outcome = .error failure →
      failure.kind ≠ .unsupportedExpression ∧ failure.kind ≠ .timeout ∧
        failure.Located (s.evaluate t).normalized.length) ∧
    ∀ tree err, Calculator.evaluate s.registry tree = .error err →
      ∀ f index, err.fault ≠ .missingArgument f index := by
  constructor
  · exact fun failure => failed_located
  · intro tree err failed f index missing
    obtain ⟨node, _, raises⟩ := evaluate_error_raised failed
    exact raises.not_missing ⟨f, index, missing⟩

/-- The failure of a call, one at the end of a text, and a call that lacks an argument. -/
theorem failures_of_calls_located :
    (evaluate ⟨.degrees, .nan⟩ "pi+mem()").outcome =
        .error (.faulty ⟨.undefined (.call "mem"), some ⟨3, 8⟩⟩) ∧
      (Failure.faulty ⟨.undefined (.call "mem"), some ⟨3, 8⟩⟩).Located 8 ∧
    (evaluate ⟨.degrees, .nan⟩ "sin(e").outcome =
        .error (.unreadable ⟨.unclosedArguments, ⟨5, 5⟩⟩) ∧
      (Failure.unreadable ⟨.unclosedArguments, ⟨5, 5⟩⟩).Located 5 ∧
    ∀ f index, Fault.arity "round" 1 2 0 ≠ .missingArgument f index := by
  have undefined : (evaluate ⟨.degrees, .nan⟩ "pi+mem()").outcome =
      .error (.faulty ⟨.undefined (.call "mem"), some ⟨3, 8⟩⟩) := by decide +kernel
  have unclosed : (evaluate ⟨.degrees, .nan⟩ "sin(e").outcome =
      .error (.unreadable ⟨.unclosedArguments, ⟨5, 5⟩⟩) := by decide +kernel
  have first := (failure_located ⟨.degrees, .nan⟩ "pi+mem()").1 _ undefined
  have second := (failure_located ⟨.degrees, .nan⟩ "sin(e").1 _ unclosed
  have third := (failure_located ⟨.degrees, .nan⟩ "round()").2 (.call "round" [] ⟨0, 7⟩) _ rfl
  exact ⟨undefined, first.2.2, unclosed, second.2.2, third⟩

end Session

end Calculator
