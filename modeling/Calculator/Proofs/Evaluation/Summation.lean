import Calculator.Proofs.Evaluation.Inversion
import Calculator.Proofs.Number.Value
import Calculator.Session.Session

/-!
A sum and the chain of additions over its list. The chain looks at every partial sum, the sum at the last
one alone. They agree because a partial sum that has left the range never comes back into it.
-/
namespace Calculator

namespace Binary64

theorem add_finite_or_infinite {x y : Binary64} (left : x.isFinite = true) (right : y.isFinite = true) :
    (x + y).isFinite = true ∨ ∃ s, x + y = infinite s := by
  rcases (counts_self left).add_cases (counts_self right) with rounded | out
  · exact .inl rounded.finite
  · exact .inr out

theorem infinite_add (s : Bool) {y : Binary64} (finite : y.isFinite = true) :
    infinite s + y = infinite s := by
  cases y with
  | nan => cases finite
  | infinite t => cases finite
  | finite t b fits => rfl

theorem infinite_foldl_add (s : Bool) {ys : List Binary64} (finite : ∀ y ∈ ys, y.isFinite = true) :
    ys.foldl (· + ·) (infinite s) = infinite s := by
  induction ys with
  | nil => rfl
  | cons y rest ih =>
    simp only [List.mem_cons, forall_eq_or_imp] at finite
    rw [List.foldl_cons, infinite_add s finite.1]
    exact ih finite.2

end Binary64

/-- The additions of items one after the other, each with its place. -/
def Expr.additions (start : Expr) (items : List (Expr × Span)) : Expr :=
  items.foldl (fun left (item, range) => .binary (.known .plus) left item range) start

/-- The tree evaluates to the number, which is finite. -/
structure Amounts (r : Registry) (e : Expr) (x : Binary64) : Prop where
  run : evaluate r e = .ok (.number x)
  finite : x.isFinite = true

/-- Both results are the total, if that is finite, and otherwise both are failures of the domain. -/
structure BothGive (total : Binary64) (a b : Except EvaluationError Value) : Prop where
  value : total.isFinite = true → a = .ok (.number total) ∧ b = .ok (.number total)
  failure : total.isFinite = false → ∃ e e', a = .error e ∧ b = .error e' ∧
    e.fault.kind = .domainError ∧ e'.fault.kind = .domainError

section Sums

variable {r : Registry} {start : Expr} {items : List (Expr × Span)} {x : Binary64} {ys : List Binary64}

theorem addItems_numbers (total : Binary64) (ys : List Binary64) :
    Registry.addItems total (ys.map .number) = .ok (ys.foldl (· + ·) total) := by
  induction ys generalizing total with
  | nil => rfl
  | cons y rest ih => exact ih (total + y)

theorem evaluateAll_amounts (each : List.Forall₂ (fun item y => Amounts r item.1 y) items ys) :
    evaluateAll r (items.map Prod.fst) = .ok (ys.map .number) := by
  rw [evaluateAll_ok_iff, List.forall₂_map_left_iff, List.forall₂_map_right_iff]
  exact each.imp fun _ _ amounts => amounts.run

theorem finite_of_amounts (each : List.Forall₂ (fun item y => Amounts r item.1 y) items ys) :
    ∀ y ∈ ys, y.isFinite = true := by
  induction each with
  | nil => simp
  | cons first _ ih => simpa using ⟨first.finite, ih⟩

/-- What is given besides the list, if anything, is where its items are added to. -/
structure StartsAt (given : List Value) (x : Binary64) : Prop where
  few : given.length ≤ 1
  adds : ∀ items, Registry.total (.list items :: given) = Registry.addItems x items

theorem startsAt_zero : StartsAt [] 0 :=
  ⟨Nat.zero_le 1, fun items => by rw [Registry.total, if_pos rfl]⟩

theorem startsAt_number (x : Binary64) : StartsAt [.number x] x :=
  ⟨Nat.le_refl 1, fun items => by rw [Registry.total, if_neg (by simp)]; rfl⟩

/-- A sum looks at its total once. -/
theorem evaluate_sum (each : List.Forall₂ (fun item y => Amounts r item.1 y) items ys) {starts : List Expr}
    {given : List Value} (begun : evaluateAll r starts = .ok given) (startsAt : StartsAt given x)
    (place range : Span) :
    evaluate r (.call "sum" (.list (items.map Prod.fst) place :: starts) range) =
      located range ((finite (.call "sum") (ys.foldl (· + ·) x)).map .number) := by
  have named : Evaluate.callee "sum" = .ok .sum := rfl
  have list : evaluate r (.list (items.map Prod.fst) place) = .ok (.list (ys.map .number)) := by
    rw [evaluate, evaluateAll_amounts each]
  have count : ¬ ((Value.list (ys.map .number) :: given).length < (Function.arity .sum).1 ∨
      (Function.arity .sum).2 < (Value.list (ys.map .number) :: given).length) := by
    have few := startsAt.few
    simp only [Function.arity, List.length_cons]
    omega
  rw [evaluate, named, evaluateAll, list, begun]
  show located range (Evaluate.call r "sum" .sum _) = _
  rw [Evaluate.call, if_neg count, Registry.apply, startsAt.adds, addItems_numbers]

theorem additions_error {e : EvaluationError} (failed : evaluate r start = .error e)
    (items : List (Expr × Span)) : evaluate r (start.additions items) = .error e := by
  induction items generalizing start with
  | nil => exact failed
  | cons item rest ih =>
    refine ih ?_
    rw [evaluate, failed]

/-- By induction on the items, for every start. Where an addition leaves the range the chain fails, and the
total, which goes on from there, stays out of range. -/
theorem evaluate_additions (begins : Amounts r start x)
    (each : List.Forall₂ (fun item y => Amounts r item.1 y) items ys) :
    (evaluate r (start.additions items) = .ok (.number (ys.foldl (· + ·) x)) ∧
        (ys.foldl (· + ·) x).isFinite = true) ∨
      ∃ s range, ys.foldl (· + ·) x = .infinite s ∧
        evaluate r (start.additions items) = .error ⟨.outOfRange (.operator (.known .plus)), some range⟩ := by
  induction each generalizing start x with
  | nil => exact .inl ⟨begins.run, begins.finite⟩
  | @cons item y items ys first later ih =>
    have step : evaluate r (.binary (.known .plus) start item.1 item.2) =
        located item.2 ((finite (.operator (.known .plus)) (x + y)).map .number) := by
      rw [evaluate, begins.run, first.run]
      rfl
    rw [List.foldl_cons]
    show (evaluate r (Expr.additions (.binary (.known .plus) start item.1 item.2) items) = _ ∧ _) ∨ _
    rcases Binary64.add_finite_or_infinite begins.finite first.finite with inside | ⟨s, out⟩
    · have passed : finite (.operator (.known .plus)) (x + y) = .ok (x + y) := finite_ok_iff.mpr ⟨inside, rfl⟩
      rw [passed] at step
      exact ih ⟨step, inside⟩
    · rw [out] at step ⊢
      exact .inr ⟨s, item.2, Binary64.infinite_foldl_add s (finite_of_amounts later), additions_error step items⟩

theorem bothGive_sum (begins : Amounts r start x)
    (each : List.Forall₂ (fun item y => Amounts r item.1 y) items ys) {starts : List Expr} {given : List Value}
    (begun : evaluateAll r starts = .ok given) (startsAt : StartsAt given x) (place range : Span) :
    BothGive (ys.foldl (· + ·) x) (evaluate r (.call "sum" (.list (items.map Prod.fst) place :: starts) range))
      (evaluate r (start.additions items)) := by
  rw [evaluate_sum each begun startsAt]
  rcases evaluate_additions begins each with ⟨value, inside⟩ | ⟨s, range', out, failed⟩
  · have passed : finite (.call "sum") (ys.foldl (· + ·) x) = .ok _ := finite_ok_iff.mpr ⟨inside, rfl⟩
    rw [value, passed]
    exact ⟨fun _ => ⟨rfl, rfl⟩, fun out => absurd inside (by simp [out])⟩
  · rw [out, failed]
    exact ⟨fun inside => absurd inside (by simp [Binary64.isFinite]), fun _ => ⟨_, _, rfl, rfl, rfl, rfl⟩⟩

end Sums

/-- A sum comes to what the additions of its items to its start come to, or to zero where it has none; and
it fails if they fail. -/
theorem Session.sum_as_additions (s : Session) {items : List (Expr × Span)} {ys : List Binary64}
    (each : List.Forall₂ (fun item y => Amounts s.registry item.1 y) items ys) (place range : Span) :
    (∀ start x, Amounts s.registry start x →
      BothGive (ys.foldl (· + ·) x)
        (Calculator.evaluate s.registry (.call "sum" [.list (items.map Prod.fst) place, start] range))
        (Calculator.evaluate s.registry (start.additions items))) ∧
    ∀ raw range',
      BothGive (ys.foldl (· + ·) 0)
        (Calculator.evaluate s.registry (.call "sum" [.list (items.map Prod.fst) place] range))
        (Calculator.evaluate s.registry (Expr.additions (.number 0 raw range') items)) := by
  constructor
  · intro start x begins
    have begun : evaluateAll s.registry [start] = .ok [.number x] := by
      rw [evaluateAll, begins.run, evaluateAll]
    exact bothGive_sum begins each begun (startsAt_number x) place range
  · intro raw range'
    have zero : Amounts s.registry (.number 0 raw range') 0 := ⟨rfl, by decide +kernel⟩
    exact bothGive_sum zero each rfl startsAt_zero place range

/-- Far numbers that cancel: where the sum begins with another one, the range is left on the way and not
entered again. -/
theorem Session.sum_of_far_numbers :
    let far := Binary64.ofText "1e308"
    let literal : Expr := .number far "1e308" ⟨0, 5⟩
    let items : List (Expr × Span) := [(literal, ⟨0, 11⟩), (.unary .minus literal ⟨14, 20⟩, ⟨0, 20⟩)]
    let r : Registry := Session.registry ⟨.degrees, .zero⟩
    Amounts r literal far ∧ List.Forall₂ (fun item y => Amounts r item.1 y) items [far, -far] ∧
      (∃ e e', Calculator.evaluate r (.call "sum" [.list (items.map Prod.fst) ⟨4, 18⟩, literal] ⟨0, 26⟩) =
          .error e ∧ Calculator.evaluate r (literal.additions items) = .error e' ∧
        e.fault.kind = .domainError ∧ e'.fault.kind = .domainError) ∧
      Calculator.evaluate r (.call "sum" [.list (items.map Prod.fst) ⟨4, 18⟩] ⟨0, 19⟩) = .ok (.number .zero) ∧
      Calculator.evaluate r (Expr.additions (.number 0 "0" ⟨0, 1⟩) items) = .ok (.number .zero) := by
  intro far literal items r
  have finite : far.isFinite = true := by decide +kernel
  have begins : Amounts r literal far := ⟨rfl, finite⟩
  have opposite : Amounts r (.unary .minus literal ⟨14, 20⟩) (-far) := ⟨rfl, by decide +kernel⟩
  have each : List.Forall₂ (fun item y => Amounts r item.1 y) items [far, -far] :=
    .cons begins (.cons opposite .nil)
  have out : ([far, -far].foldl (· + ·) far).isFinite = false := by decide +kernel
  have cancelled : [far, -far].foldl (· + ·) 0 = Binary64.zero := by decide +kernel
  have zero : Binary64.zero.isFinite = true := by decide +kernel
  obtain ⟨started, -⟩ := sum_as_additions ⟨.degrees, .zero⟩ each ⟨4, 18⟩ ⟨0, 26⟩
  obtain ⟨-, unstarted⟩ := sum_as_additions ⟨.degrees, .zero⟩ each ⟨4, 18⟩ ⟨0, 19⟩
  have cancels := unstarted "0" ⟨0, 1⟩
  rw [cancelled] at cancels
  exact ⟨begins, each, (started literal far begins).failure out, cancels.value zero⟩

end Calculator
