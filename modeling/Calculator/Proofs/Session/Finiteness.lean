import Calculator.Proofs.Evaluation.Inversion
import Calculator.Proofs.Expression.Trees
import Calculator.Session.Session

/-!
Only finite numbers come of an evaluation. Literals are finite where they are read, and the results of
operators and calls where they are made; signs, constants and lists keep what is finite so.
-/
namespace Calculator

/-- Every number in a value is finite, however deep in lists it stands. -/
inductive Value.AllFinite : Value → Prop where
  | number {x : Binary64} (finite : x.isFinite = true) : AllFinite (.number x)
  | list {items : List Value} (each : ∀ item ∈ items, AllFinite item) : AllFinite (.list items)

theorem Binary64.isFinite_neg (x : Binary64) : (-x).isFinite = x.isFinite := by
  cases x <;> rfl

theorem Registry.constantValue_finite (c : Constant) : (constantValue c).isFinite = true := by
  cases c <;> decide +kernel

theorem UnaryOp.apply_finite {op : UnaryOp} {x y : Binary64} (finite : x.isFinite = true)
    (applied : op.apply x = .ok y) : y.isFinite = true := by
  cases op with
  | plus =>
    cases applied
    exact finite
  | minus =>
    cases applied
    rw [Binary64.isFinite_neg]
    exact finite
  | other symbol => cases applied

variable {r : Registry}

theorem evaluated_allFinite {es : List Expr} {values : List Value}
    (given : List.Forall₂ (fun e v => evaluate r e = .ok v) es values)
    (finite : ∀ e ∈ es, ∀ v, evaluate r e = .ok v → v.AllFinite) : ∀ v ∈ values, v.AllFinite := by
  induction given with
  | nil => simp
  | @cons e v rest values run _ ih =>
    have head := finite e List.mem_cons_self v run
    have tail := ih fun e' member => finite e' (List.mem_cons_of_mem e member)
    simpa using ⟨head, tail⟩

/-- By induction on the tree; only literals need the hypothesis, and a list passes it on. -/
theorem evaluate_allFinite {e : Expr} {v : Value}
    (readable : ∀ part : Expr, part.PartOf e → part.Readable) (run : evaluate r e = .ok v) : v.AllFinite := by
  induction e generalizing v with
  | number value raw range =>
    cases run
    exact .number (readable _ .whole)
  | name text range =>
    obtain ⟨c, _, rfl⟩ := Evaluate.name_ok_iff.mp (located_ok_iff.mp run)
    exact .number (Registry.constantValue_finite c)
  | unary op operand range ih =>
    obtain ⟨x, y, inner, applied, rfl⟩ := evaluate_unary_ok_iff.mp run
    have below := (Expr.forall_parts_iff.mp readable).2 operand (by simp [Expr.children])
    cases ih below inner with
    | number finite => exact .number (UnaryOp.apply_finite finite applied)
  | binary op left right range _ _ =>
    obtain ⟨_, _, z, _, _, _, finite, rfl⟩ := evaluate_binary_ok_iff.mp run
    exact .number finite
  | call text args range _ =>
    obtain ⟨_, _, x, _, _, _, _, _, finite, rfl⟩ := evaluate_call_ok_iff.mp run
    exact .number finite
  | list elements range ih =>
    obtain ⟨values, given, rfl⟩ := evaluate_list_ok_iff.mp run
    have below := (Expr.forall_parts_iff.mp readable).2
    exact .list (evaluated_allFinite given fun e member _ => ih e member (below e member))
  | foreign kind range => cases run

namespace Session

theorem outcome_ok_iff {s : Session} {t : Text} {x : Binary64} :
    s.outcome t = .ok x ↔ ∃ tree, s.parse t = .ok tree ∧ evaluateNumber s.registry tree = .ok x := by
  cases read : s.parse t with
  | error e => simp [outcome, read]
  | ok tree => cases run : evaluateNumber s.registry tree <;> simp [outcome, read, run]

theorem outcome_finite {s : Session} {t : Text} {x : Binary64}
    (answer : (s.evaluate t).outcome = .ok x) : x.isFinite = true := by
  obtain ⟨tree, read, run⟩ := outcome_ok_iff.mp answer
  cases evaluate_allFinite (parse_readable read) (evaluateNumber_ok_iff.mp run) with
  | number finite => exact finite

/-- The memory may hold anything: what a session answers with is finite, and so is what any node of the
tree evaluates to. -/
theorem evaluate_finite (s : Session) (t : Text) :
    (∀ x, (s.evaluate t).outcome = .ok x → x.isFinite = true) ∧
    ∀ tree, s.parse t = .ok tree → ∀ node : Expr, node.PartOf tree →
      ∀ v, Calculator.evaluate s.registry node = .ok v → v.AllFinite := by
  have nodes : ∀ tree, s.parse t = .ok tree → ∀ node : Expr, node.PartOf tree →
      ∀ v, Calculator.evaluate s.registry node = .ok v → v.AllFinite := by
    intro tree read node part v run
    exact evaluate_allFinite (fun inner below => parse_readable read inner (below.trans part)) run
  refine ⟨fun x answer => ?_, nodes⟩
  obtain ⟨tree, read, run⟩ := outcome_ok_iff.mp answer
  cases nodes tree read tree .whole _ (evaluateNumber_ok_iff.mp run) with
  | number finite => exact finite

/-- With a memory that is not a number: a sum of constants, and the list that it is the sum of. -/
theorem sum_of_constants_finite :
    (∃ x, (evaluate ⟨.degrees, .nan⟩ "sum([pi, tau])").outcome = .ok x ∧ x.isFinite = true) ∧
    ∃ v, Calculator.evaluate ⟨.degrees, .nan⟩
      (.list [.name "pi" ⟨5, 7⟩, .name "tau" ⟨9, 12⟩] ⟨4, 13⟩) = .ok v ∧ v.AllFinite := by
  have answered : (evaluate ⟨.degrees, .nan⟩ "sum([pi, tau])").outcome.toOption.isSome = true := by
    decide +kernel
  have read : parse ⟨.degrees, .nan⟩ "sum([pi, tau])" = .ok (.call "sum"
      [.list [.name "pi" ⟨5, 7⟩, .name "tau" ⟨9, 12⟩] ⟨4, 13⟩] ⟨0, 14⟩) := rfl
  obtain ⟨numbers, values⟩ := evaluate_finite ⟨.degrees, .nan⟩ "sum([pi, tau])"
  constructor
  · cases outcome : (evaluate ⟨.degrees, .nan⟩ "sum([pi, tau])").outcome with
    | error failure => simp [outcome, Except.toOption] at answered
    | ok x => exact ⟨x, rfl, numbers x outcome⟩
  · exact ⟨_, rfl, values _ read _ (.inside List.mem_cons_self .whole) _ rfl⟩

end Session

end Calculator
