import Calculator.Proofs.Evaluation.Functions
import Calculator.Proofs.Evaluation.Inversion

/-!
The allow-list as a contract. A tree that has a number for a value uses only what the registry names, in
the places where it may stand, and such a tree fails for its numbers only.
-/
namespace Calculator

/-- Trees of known nodes over the names of the registry. A list stands only where a sum takes it. -/
inductive WellFormed : Expr → Prop where
  | number (value : Binary64) (raw : Text) (range : Span) : WellFormed (.number value raw range)
  | name {text : Text} {c : Constant} (found : Entry.lookup? text = some (.constant c)) (range : Span) :
    WellFormed (.name text range)
  | plus {operand : Expr} (inner : WellFormed operand) (range : Span) :
    WellFormed (.unary .plus operand range)
  | minus {operand : Expr} (inner : WellFormed operand) (range : Span) :
    WellFormed (.unary .minus operand range)
  | binary (op : Operator) {left right : Expr} (first : WellFormed left) (second : WellFormed right)
    (range : Span) : WellFormed (.binary (.known op) left right range)
  | call {text : Text} {f : Function} {args : List Expr}
    (found : Entry.lookup? text = some (.function f)) (plain : f ≠ .sum)
    (low : f.arity.1 ≤ args.length) (high : args.length ≤ f.arity.2)
    (each : ∀ e ∈ args, WellFormed e) (range : Span) : WellFormed (.call text args range)
  | total {text : Text} {elements rest : List Expr} {inside : Span}
    (found : Entry.lookup? text = some (.function .sum))
    (high : rest.length + 1 ≤ Function.sum.arity.2)
    (items : ∀ e ∈ elements, WellFormed e) (each : ∀ e ∈ rest, WellFormed e) (range : Span) :
    WellFormed (.call text (.list elements inside :: rest) range)

variable {r : Registry}

/-- What the value of a tree tells of the tree. -/
def Shaped (e : Expr) : Value → Prop
  | .number _ => WellFormed e
  | .list values =>
    ∃ elements range, e = .list elements range ∧
      (Numbers values → ∀ element ∈ elements, WellFormed element)

theorem numbers_wellFormed {es : List Expr} {values : List Value}
    (given : List.Forall₂ (fun e v => evaluate r e = .ok v) es values) (numbers : Numbers values)
    (shaped : ∀ e ∈ es, ∀ v, evaluate r e = .ok v → Shaped e v) : ∀ e ∈ es, WellFormed e := by
  induction given with
  | nil => simp
  | @cons e v rest values run given ih =>
    obtain ⟨⟨x, rfl⟩, numbers'⟩ := numbers_cons_iff.mp numbers
    have head : WellFormed e := shaped e List.mem_cons_self _ run
    have tail := ih numbers' fun e' member => shaped e' (List.mem_cons_of_mem e member)
    simpa using ⟨head, tail⟩

theorem call_wellFormed {text : Text} {f : Function} {args : List Expr} {values : List Value}
    (found : Entry.lookup? text = some (.function f))
    (given : List.Forall₂ (fun e v => evaluate r e = .ok v) args values)
    (low : f.arity.1 ≤ values.length) (high : values.length ≤ f.arity.2) (takes : f.Takes values)
    (shaped : ∀ e ∈ args, ∀ v, evaluate r e = .ok v → Shaped e v) (range : Span) :
    WellFormed (.call text args range) := by
  have count := given.length_eq
  by_cases plain : f = .sum
  · subst plain
    obtain ⟨items, rest, rfl, inside, numbers⟩ := takes
    cases given with
    | @cons first _ others _ run given =>
      obtain ⟨elements, range', rfl, each⟩ := shaped first List.mem_cons_self _ run
      have others' := numbers_wellFormed given numbers fun e member =>
        shaped e (List.mem_cons_of_mem _ member)
      have few : others.length + 1 ≤ Function.sum.arity.2 := by
        simp only [List.length_cons] at count high
        omega
      exact .total found few (each inside) others' range
  · have numbers := (Function.takes_iff_numbers plain).mp takes
    exact .call found plain (by omega) (by omega) (numbers_wellFormed given numbers shaped) range

/-- By induction on the tree: a number comes of a well-formed tree, and a list of a list. -/
theorem evaluate_shaped {e : Expr} {v : Value} (run : evaluate r e = .ok v) : Shaped e v := by
  induction e generalizing v with
  | number value raw range =>
    cases run
    exact WellFormed.number value raw range
  | name text range =>
    obtain ⟨c, found, rfl⟩ := Evaluate.name_ok_iff.mp (located_ok_iff.mp run)
    exact WellFormed.name found range
  | unary op operand range ih =>
    obtain ⟨x, y, inner, applied, rfl⟩ := evaluate_unary_ok_iff.mp run
    have operand' : WellFormed operand := ih inner
    cases op with
    | plus => exact WellFormed.plus operand' range
    | minus => exact WellFormed.minus operand' range
    | other symbol => cases applied
  | binary op left right range first second =>
    obtain ⟨x, y, z, left', right', applied, _, rfl⟩ := evaluate_binary_ok_iff.mp run
    cases op with
    | known op => exact WellFormed.binary op (first left') (second right') range
    | other symbol => cases applied
  | call text args range ih =>
    obtain ⟨f, values, x, found, given, low, high, applied, _, rfl⟩ := evaluate_call_ok_iff.mp run
    have lawful := Registry.apply_lawful r low high
    rw [applied] at lawful
    exact call_wellFormed found given low high lawful.takes (fun e member _ => ih e member) range
  | list elements range ih =>
    obtain ⟨values, given, rfl⟩ := evaluate_list_ok_iff.mp run
    exact ⟨elements, range, rfl, fun numbers =>
      numbers_wellFormed given numbers fun e member _ => ih e member⟩
  | foreign kind range => cases run

/-- Has a number for a value, or fails for its numbers. -/
inductive Settles (r : Registry) (e : Expr) : Prop where
  | value (x : Binary64) (run : evaluate r e = .ok (.number x))
  | fails (err : EvaluationError) (run : evaluate r e = .error err) (numeric : err.fault.Numeric)

theorem evaluateAll_settles {es : List Expr} (each : ∀ e ∈ es, Settles r e) :
    (∃ values, Numbers values ∧ values.length = es.length ∧ evaluateAll r es = .ok values) ∨
      ∃ err, evaluateAll r es = .error err ∧ err.fault.Numeric := by
  cases run : evaluateAll r es with
  | error err =>
    obtain ⟨e, member, failed⟩ := evaluateAll_error run
    cases each e member with
    | value x run => simp [failed] at run
    | fails err' run numeric =>
      obtain rfl : err = err' := by simpa [failed] using run
      exact .inr ⟨err, rfl, numeric⟩
  | ok values =>
    have given := evaluateAll_ok_iff.mp run
    refine .inl ⟨values, ?_, given.length_eq.symm, rfl⟩
    clear run
    induction given with
    | nil => exact numbers_nil
    | @cons e v rest values run given ih =>
      have tail := ih fun e' member => each e' (List.mem_cons_of_mem e member)
      cases each e List.mem_cons_self with
      | value x run' =>
        obtain rfl : v = .number x := by simpa [run] using run'
        exact numbers_cons_iff.mpr ⟨⟨x, rfl⟩, tail⟩
      | fails err run' => simp [run] at run'

theorem Operator.apply_error {op : Operator} {x y : Binary64} {fault : Fault}
    (failed : op.apply x y = .error fault) :
    fault = .divisionByZero ∨ fault = .floorDivisionByZero ∨ fault = .moduloByZero ∨
      fault = .zeroToNegativePower ∨ fault = .fractionalPowerOfNegative := by
  cases op with
  | plus => cases failed
  | minus => cases failed
  | times => cases failed
  | divide =>
    simp only [apply] at failed
    split at failed <;> cases failed
    simp
  | floorDivide =>
    simp only [apply] at failed
    split at failed <;> cases failed
    simp
  | modulo =>
    simp only [apply] at failed
    split at failed <;> cases failed
    simp
  | power =>
    simp only [apply, raise] at failed
    split at failed
    · cases failed
      simp
    split at failed <;> cases failed
    simp

theorem Operator.apply_numeric {op : Operator} {x y : Binary64} {fault : Fault}
    (failed : op.apply x y = .error fault) : fault.Numeric := by
  rcases apply_error failed with rfl | rfl | rfl | rfl | rfl
  · exact .inl rfl
  · exact .inl rfl
  · exact .inl rfl
  · exact .inl rfl
  · exact .inr (.inl rfl)

theorem unary_settles {op : UnaryOp} {operand : Expr} {range : Span} (inner : Settles r operand)
    (allowed : ∀ x, ∃ y, op.apply x = .ok y) : Settles r (.unary op operand range) := by
  cases inner with
  | value x run =>
    obtain ⟨y, applied⟩ := allowed x
    exact .value y (evaluate_unary_ok_iff.mpr ⟨x, y, run, applied, rfl⟩)
  | fails err run numeric => exact .fails err (by simp [evaluate, run]) numeric

theorem binary_settles {op : Operator} {left right : Expr} {range : Span} (first : Settles r left)
    (second : Settles r right) : Settles r (.binary (.known op) left right range) := by
  cases first with
  | fails err run numeric => exact .fails err (by simp [evaluate, run]) numeric
  | value x run =>
    cases second with
    | fails err run' numeric => exact .fails err (by simp [evaluate, run, run']) numeric
    | value y run' =>
      cases result : Evaluate.binary (.known op) (.number x) (.number y) with
      | ok w =>
        obtain ⟨_, _, z, _, _, _, _, rfl⟩ := Evaluate.binary_ok_iff.mp result
        exact .value z (by simp [evaluate, run, run', result, located])
      | error fault =>
        refine .fails ⟨fault, some range⟩ (by simp [evaluate, run, run', result, located]) ?_
        rcases Evaluate.binary_error result with ⟨_, list, _⟩ | ⟨_, _, _, _, applied⟩ | rfl | rfl
        · simp at list
        · exact Operator.apply_numeric applied
        · exact .inr (.inl rfl)
        · exact .inr (.inl rfl)

theorem call_settles {text : Text} {f : Function} {args : List Expr} {values : List Value}
    {range : Span} (found : Entry.lookup? text = some (.function f)) (given : evaluateAll r args = .ok values)
    (low : f.arity.1 ≤ values.length) (high : values.length ≤ f.arity.2) (takes : f.Takes values) :
    Settles r (.call text args range) := by
  have callee := Evaluate.callee_ok_iff.mpr found
  cases result : Evaluate.call r text f values with
  | ok w =>
    obtain ⟨_, _, x, _, _, rfl⟩ := Evaluate.call_ok_iff.mp result
    exact .value x (by simp [evaluate, callee, given, result, located])
  | error fault =>
    refine .fails ⟨fault, some range⟩ (by simp [evaluate, callee, given, result, located]) ?_
    rcases Evaluate.call_error result with ⟨outside, _⟩ | ⟨_, _, applied⟩ | rfl | rfl
    · omega
    · have lawful := Registry.apply_lawful r low high
      rw [applied] at lawful
      rcases lawful.fault with numeric | ⟨wrong, _⟩
      · exact numeric
      · exact absurd takes wrong
    · exact .inr (.inl rfl)
    · exact .inr (.inl rfl)

theorem call_fails {text : Text} {f : Function} {args : List Expr} {range : Span}
    {err : EvaluationError} (found : Entry.lookup? text = some (.function f)) (failed : evaluateAll r args = .error err)
    (numeric : err.fault.Numeric) : Settles r (.call text args range) :=
  .fails err (by simp [evaluate, Evaluate.callee_ok_iff.mpr found, failed]) numeric

theorem WellFormed.settles {e : Expr} (wellFormed : WellFormed e) : Settles r e := by
  induction wellFormed with
  | number value raw range => exact .value value rfl
  | @name text c found range =>
    exact .value (Registry.constantValue c)
      (located_ok_iff.mpr (Evaluate.name_ok_iff.mpr ⟨c, found, rfl⟩))
  | plus _ range ih => exact unary_settles ih fun x => ⟨x, rfl⟩
  | minus _ range ih => exact unary_settles ih fun x => ⟨-x, rfl⟩
  | binary op _ _ range first second => exact binary_settles first second
  | call found plain low high _ range ih =>
    rcases evaluateAll_settles ih with ⟨values, numbers, count, given⟩ | ⟨err, failed, numeric⟩
    · exact call_settles found given (by omega) (by omega)
        ((Function.takes_iff_numbers plain).mpr numbers)
    · exact call_fails found failed numeric
  | @total text elements rest inside found high _ _ range items each =>
    rcases evaluateAll_settles items with ⟨values, numbers, _, given⟩ | ⟨err, failed, numeric⟩
    · have first : evaluate r (.list elements inside) = .ok (.list values) := by
        simp [evaluate, given]
      rcases evaluateAll_settles each with ⟨others, numbers', count, given'⟩ | ⟨err, failed, numeric⟩
      · have all : evaluateAll r (.list elements inside :: rest) = .ok (.list values :: others) := by
          simp [evaluateAll, first, given']
        refine call_settles found all (Nat.le_add_left 1 _) ?_ ⟨values, others, rfl, numbers, numbers'⟩
        simpa [count] using high
      · exact call_fails found (by simp [evaluateAll, first, failed]) numeric
    · have first : evaluate r (.list elements inside) = .error err := by simp [evaluate, failed]
      exact call_fails found (by simp [evaluateAll, first]) numeric

/-- A tree whose value is a number is well formed. A well-formed tree has a number for its value, or
fails for a division by zero, a number outside a domain, or a count of places that is no integer. -/
theorem evaluateNumber_allow_list (r : Registry) (e : Expr) :
    (∀ x, evaluateNumber r e = .ok x → WellFormed e) ∧
    (WellFormed e → (∃ x, evaluateNumber r e = .ok x) ∨
      ∃ err, evaluateNumber r e = .error err ∧
        (err.fault.kind = .divisionByZero ∨ err.fault.kind = .domainError ∨
          err.fault = .placesNotInteger)) := by
  constructor
  · intro x run
    exact evaluate_shaped (evaluateNumber_ok_iff.mp run)
  · intro wellFormed
    cases wellFormed.settles (r := r) with
    | value x run => exact .inl ⟨x, evaluateNumber_ok_iff.mpr run⟩
    | fails err run numeric => exact .inr ⟨err, by simp [evaluateNumber, run], numeric⟩

/-- A sum that has a value, and a rounding to a count of places that is no integer. -/
theorem sum_and_round_allow_list :
    WellFormed (.call "sum" [.list [.name "pi" ⟨5, 7⟩] ⟨4, 8⟩,
      .unary .minus (.name "e" ⟨11, 12⟩) ⟨10, 12⟩] ⟨0, 13⟩) ∧
    ((∃ x, evaluateNumber ⟨.radians, .nan⟩
        (.call "round" [.name "tau" ⟨6, 9⟩, .name "e" ⟨11, 12⟩] ⟨0, 13⟩) = .ok x) ∨
      ∃ err, evaluateNumber ⟨.radians, .nan⟩
          (.call "round" [.name "tau" ⟨6, 9⟩, .name "e" ⟨11, 12⟩] ⟨0, 13⟩) = .error err ∧
        (err.fault.kind = .divisionByZero ∨ err.fault.kind = .domainError ∨
          err.fault = .placesNotInteger)) := by
  have run : evaluateNumber ⟨.radians, .nan⟩ (.call "sum" [.list [.name "pi" ⟨5, 7⟩] ⟨4, 8⟩,
      .unary .minus (.name "e" ⟨11, 12⟩) ⟨10, 12⟩] ⟨0, 13⟩) = .ok (-Binary64.e + Binary64.pi) := by
    decide +kernel
  have args : ∀ e ∈ [Expr.name "tau" ⟨6, 9⟩, .name "e" ⟨11, 12⟩], WellFormed e := by
    simpa using ⟨WellFormed.name (c := .tau) rfl ⟨6, 9⟩, WellFormed.name (c := .e) rfl ⟨11, 12⟩⟩
  have round : WellFormed (.call "round" [.name "tau" ⟨6, 9⟩, .name "e" ⟨11, 12⟩] ⟨0, 13⟩) :=
    .call (f := .round) rfl (by decide) (by decide) (by decide) args _
  exact ⟨(evaluateNumber_allow_list ⟨.radians, .nan⟩ _).1 _ run,
    (evaluateNumber_allow_list ⟨.radians, .nan⟩ _).2 round⟩

end Calculator
