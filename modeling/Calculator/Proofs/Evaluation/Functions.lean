import Calculator.Evaluation.Registry

/-!
What the functions of the registry make of a permitted number of arguments: a number for arguments of
the kinds they take, unless the numbers themselves are refused.
-/
namespace Calculator

/-- Faults of the numbers at hand, whatever the tree. -/
def Fault.Numeric (fault : Fault) : Prop :=
  fault.kind = .divisionByZero ∨ fault.kind = .domainError ∨ fault = .placesNotInteger

def Numbers (values : List Value) : Prop :=
  ∃ xs : List Binary64, values = xs.map .number

theorem numbers_cons_iff {v : Value} {rest : List Value} :
    Numbers (v :: rest) ↔ (∃ x, v = .number x) ∧ Numbers rest := by
  constructor
  · rintro ⟨xs, same⟩
    cases xs with
    | nil => cases same
    | cons x xs =>
      obtain ⟨head, tail⟩ := List.cons.inj same
      exact ⟨⟨x, head⟩, xs, tail⟩
  · rintro ⟨⟨x, rfl⟩, xs, rfl⟩
    exact ⟨x :: xs, rfl⟩

theorem numbers_nil : Numbers [] := ⟨[], rfl⟩

theorem not_numbers_list {items rest : List Value} : ¬ Numbers (.list items :: rest) := by
  simp [numbers_cons_iff]

/-- Only a sum takes a list, in its first place. -/
def Function.Takes : Function → List Value → Prop
  | .sum, args => ∃ items rest, args = .list items :: rest ∧ Numbers items ∧ Numbers rest
  | _, args => Numbers args

theorem Function.takes_iff_numbers {f : Function} (plain : f ≠ .sum) {args : List Value} :
    f.Takes args ↔ Numbers args := by
  cases f <;> first | contradiction | exact Iff.rfl

/-- A number comes of arguments that are taken. A fault is one of the numbers, or tells of an argument
that is not taken. -/
inductive Lawful (f : Function) (args : List Value) : Except Fault Binary64 → Prop where
  | value {x : Binary64} (takes : f.Takes args) : Lawful f args (.ok x)
  | numeric {fault : Fault} (numeric : fault.Numeric) : Lawful f args (.error fault)
  | untaken {fault : Fault} (wrong : ¬ f.Takes args) (kind : fault.kind = .typeMismatch) :
    Lawful f args (.error fault)

theorem Lawful.takes {f : Function} {args : List Value} {x : Binary64}
    (lawful : Lawful f args (.ok x)) : f.Takes args := by
  cases lawful with
  | value takes => exact takes

theorem Lawful.fault {f : Function} {args : List Value} {fault : Fault}
    (lawful : Lawful f args (.error fault)) :
    fault.Numeric ∨ ¬ f.Takes args ∧ fault.kind = .typeMismatch := by
  cases lawful with
  | numeric numeric => exact .inl numeric
  | untaken wrong kind => exact .inr ⟨wrong, kind⟩

namespace Registry

open Binary64

variable {f : Function} {args : List Value}

/-- A place that is there holds a number, or the arguments are not all numbers. -/
theorem numberAt_cases {index : Nat} (inside : index < args.length) :
    (∃ x, args[index] = .number x ∧ numberAt f args index = .ok x) ∨
      ∃ fault, ¬ Numbers args ∧ fault.kind = .typeMismatch ∧ numberAt f args index = .error fault := by
  have found : args[index]? = some args[index] := List.getElem?_eq_getElem inside
  cases value : args[index] with
  | number x =>
    refine .inl ⟨x, rfl, ?_⟩
    simp [numberAt, found, value]
  | list items =>
    refine .inr ⟨.argumentIsList f items.length, ?_, rfl, ?_⟩
    · rintro ⟨xs, rfl⟩
      simp at value
    · simp [numberAt, found, value]

theorem single_lawful (plain : f ≠ .sum) (one : args.length = 1)
    {body : Binary64 → Except Fault Binary64}
    (numeric : ∀ x fault, body x = .error fault → fault.Numeric) :
    Lawful f args (single f args body) := by
  obtain ⟨v, rfl⟩ := List.length_eq_one_iff.mp one
  have inside : 0 < [v].length := by simp
  unfold single
  rcases numberAt_cases (f := f) inside with ⟨x, given, read⟩ | ⟨fault, wrong, kind, read⟩
  · obtain rfl : v = .number x := given
    simp only [read]
    cases result : body x with
    | error fault => exact .numeric (numeric x fault result)
    | ok y => exact .value ((Function.takes_iff_numbers plain).mpr ⟨[x], rfl⟩)
  · rw [read]
    exact .untaken (wrong ∘ (Function.takes_iff_numbers plain).mp) kind

theorem single_ok_lawful (plain : f ≠ .sum) (one : args.length = 1) (body : Binary64 → Binary64) :
    Lawful f args (single f args fun x => .ok (body x)) :=
  single_lawful plain one (by simp)

theorem inverse_error {r : Registry} {body : Binary64 → Binary64} {x : Binary64} {fault : Fault}
    (failed : r.inverse f body x = .error fault) : fault = .outsideUnitInterval f := by
  unfold inverse at failed
  split at failed <;> cases failed
  rfl

theorem product_error {fuel counter : Nat} {last result : Binary64} {fault : Fault}
    (failed : product fuel counter last result = .error fault) : fault = .factorialTooLarge := by
  induction fuel generalizing counter result with
  | zero => cases failed
  | succ fuel ih =>
    simp only [product] at failed
    split at failed
    · cases failed
    split at failed
    · exact ih failed
    · cases failed
      rfl

theorem factorial_error {x : Binary64} {fault : Fault} (failed : factorial x = .error fault) :
    fault = .negativeFactorial ∨ fault = .factorialTooLarge := by
  simp only [factorial] at failed
  split at failed
  · cases failed
    exact .inl rfl
  split at failed
  · cases failed
  · exact .inr (product_error failed)

theorem one_or_two (low : 1 ≤ args.length) (high : args.length ≤ 2) :
    (∃ v, args = [v]) ∨ ∃ v w, args = [v, w] := by
  match args with
  | [] => simp at low
  | [v] => exact .inl ⟨v, rfl⟩
  | [v, w] => exact .inr ⟨v, w, rfl⟩
  | _ :: _ :: _ :: _ => simp at high

theorem logarithm_lawful (low : 1 ≤ args.length) (high : args.length ≤ 2) :
    Lawful .log args (logarithm args) := by
  unfold logarithm
  rcases one_or_two low high with ⟨v, rfl⟩ | ⟨v, w, rfl⟩
  · cases v with
    | list items => exact .untaken not_numbers_list rfl
    | number x =>
      simp only [numberAt, List.getElem?_cons_zero, List.length_singleton, if_true]
      split
      · exact .numeric (.inr (.inl rfl))
      · exact .value ⟨[x], rfl⟩
  · cases v with
    | list items => exact .untaken not_numbers_list rfl
    | number x =>
      simp only [numberAt, List.getElem?_cons_zero, List.getElem?_cons_succ]
      split
      · exact .numeric (.inr (.inl rfl))
      rw [if_neg (by simp)]
      cases w with
      | list items => exact .untaken (fun takes => not_numbers_list (numbers_cons_iff.mp takes).2) rfl
      | number base =>
        dsimp only
        split
        · exact .numeric (.inr (.inl rfl))
        split
        · exact .numeric (.inl rfl)
        · exact .value ⟨[x, base], rfl⟩

theorem roundTo_lawful (low : 1 ≤ args.length) (high : args.length ≤ 2) :
    Lawful .round args (roundTo args) := by
  unfold roundTo
  rcases one_or_two low high with ⟨v, rfl⟩ | ⟨v, w, rfl⟩
  · cases v with
    | list items => exact .untaken not_numbers_list rfl
    | number x =>
      simp only [numberAt, List.getElem?_cons_zero, List.length_singleton, Nat.lt_irrefl, if_false]
      split
      · exact .value ⟨[x], rfl⟩
      · exact .numeric (.inr (.inr rfl))
  · cases v with
    | list items => exact .untaken not_numbers_list rfl
    | number x =>
      simp only [numberAt, List.getElem?_cons_zero, List.getElem?_cons_succ]
      rw [if_pos (by simp)]
      cases w with
      | list items => exact .untaken (fun takes => not_numbers_list (numbers_cons_iff.mp takes).2) rfl
      | number places =>
        dsimp only
        split
        · exact .value ⟨[x, places], rfl⟩
        · exact .numeric (.inr (.inr rfl))

theorem addItems_cases (items : List Value) (total : Binary64) :
    (Numbers items ∧ ∃ x, addItems total items = .ok x) ∨
      ∃ n, ¬ Numbers items ∧ addItems total items = .error (.sumItemIsList n) := by
  induction items generalizing total with
  | nil => exact .inl ⟨numbers_nil, total, rfl⟩
  | cons item rest ih =>
    cases item with
    | list inner => exact .inr ⟨inner.length, not_numbers_list, rfl⟩
    | number x =>
      rcases ih (total + x) with ⟨numbers, sum⟩ | ⟨n, wrong, failed⟩
      · exact .inl ⟨numbers_cons_iff.mpr ⟨⟨x, rfl⟩, numbers⟩, sum⟩
      · exact .inr ⟨n, fun numbers => wrong (numbers_cons_iff.mp numbers).2, failed⟩

theorem addItems_lawful {items rest : List Value} (numbers : Numbers rest) (start : Binary64) :
    Lawful .sum (.list items :: rest) (addItems start items) := by
  rcases addItems_cases items start with ⟨inside, x, sum⟩ | ⟨n, wrong, failed⟩
  · rw [sum]
    exact .value ⟨items, rest, rfl, inside, numbers⟩
  · rw [failed]
    refine .untaken ?_ rfl
    rintro ⟨items', rest', same, inside, _⟩
    cases same
    exact wrong inside

theorem total_lawful (low : 1 ≤ args.length) (high : args.length ≤ 2) :
    Lawful .sum args (total args) := by
  unfold total
  rcases one_or_two low high with ⟨v, rfl⟩ | ⟨v, w, rfl⟩
  · cases v with
    | number x => exact .untaken (by rintro ⟨items, rest, same, _⟩; cases same) rfl
    | list items => exact addItems_lawful numbers_nil 0
  · cases v with
    | number x => exact .untaken (by rintro ⟨items, rest, same, _⟩; cases same) rfl
    | list items =>
      cases w with
      | number start => exact addItems_lawful ⟨[start], rfl⟩ start
      | list inner =>
        refine .untaken ?_ rfl
        rintro ⟨items', rest', same, _, numbers⟩
        cases same
        exact not_numbers_list numbers

/-- Given a permitted number of arguments, every function is lawful. -/
theorem apply_lawful (r : Registry) (low : f.arity.1 ≤ args.length) (high : args.length ≤ f.arity.2) :
    Lawful f args (r.apply f args) := by
  cases f with
  | sum => exact total_lawful low high
  | log => exact logarithm_lawful low high
  | round => exact roundTo_lawful low high
  | memory =>
    obtain rfl : args = [] := List.length_eq_zero_iff.mp (Nat.le_zero.mp high)
    exact .value numbers_nil
  | asin =>
    refine single_lawful (by decide) (Nat.le_antisymm high low) fun x fault failed => ?_
    rw [inverse_error failed]
    exact .inr (.inl rfl)
  | acos =>
    refine single_lawful (by decide) (Nat.le_antisymm high low) fun x fault failed => ?_
    rw [inverse_error failed]
    exact .inr (.inl rfl)
  | factorial =>
    refine single_lawful (by decide) (Nat.le_antisymm high low) fun x fault failed => ?_
    rcases factorial_error failed with rfl | rfl <;> exact .inr (.inl rfl)
  | sqrt =>
    refine single_lawful (by decide) (Nat.le_antisymm high low) fun x fault failed => ?_
    split at failed
    · cases failed
      exact .inr (.inl rfl)
    · cases failed
  | log10 =>
    refine single_lawful (by decide) (Nat.le_antisymm high low) fun x fault failed => ?_
    split at failed
    · cases failed
      exact .inr (.inl rfl)
    · cases failed
  | sin => exact single_ok_lawful (by decide) (Nat.le_antisymm high low) _
  | cos => exact single_ok_lawful (by decide) (Nat.le_antisymm high low) _
  | tan => exact single_ok_lawful (by decide) (Nat.le_antisymm high low) _
  | atan => exact single_ok_lawful (by decide) (Nat.le_antisymm high low) _
  | abs => exact single_ok_lawful (by decide) (Nat.le_antisymm high low) _
  | floor => exact single_ok_lawful (by decide) (Nat.le_antisymm high low) _
  | ceil => exact single_ok_lawful (by decide) (Nat.le_antisymm high low) _

end Registry

end Calculator
