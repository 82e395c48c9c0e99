import Calculator.Proofs.Evaluation.Inversion
import Calculator.Session.Session

/-!
What an evaluation learns of the memory. It reads the memory only where the tree calls for it, and what
it reads there counts as a literal of that value.
-/
namespace Calculator

namespace Expr

/-- A call that recalls the memory. -/
def Recalls : Expr → Prop
  | call callee args _ => callee = "mem" ∧ args = []
  | _ => False

mutual

/-- The tree with a literal in place of every call that recalls the memory. -/
def recalled (value : Binary64) (raw : Text) : Expr → Expr
  | number x digits range => number x digits range
  | name text range => name text range
  | unary op operand range => unary op (recalled value raw operand) range
  | binary op left right range => binary op (recalled value raw left) (recalled value raw right) range
  | call callee args range =>
    if callee = "mem" ∧ args.isEmpty then number value raw range
    else call callee (recalledAll value raw args) range
  | list elements range => list (recalledAll value raw elements) range
  | foreign kind range => foreign kind range

def recalledAll (value : Binary64) (raw : Text) : List Expr → List Expr
  | [] => []
  | e :: rest => recalled value raw e :: recalledAll value raw rest

end

variable {value : Binary64} {raw : Text}

theorem range_recalled (e : Expr) : (e.recalled value raw).range = e.range := by
  cases e with
  | call callee args range =>
    rw [recalled]
    split <;> rfl
  | _ => rfl

theorem recalledAll_eq_self {es : List Expr} (each : ∀ e ∈ es, e.recalled value raw = e) :
    recalledAll value raw es = es := by
  induction es with
  | nil => rfl
  | cons e rest ih =>
    simp only [List.mem_cons, forall_eq_or_imp] at each
    rw [recalledAll, each.1, ih each.2]

theorem recalled_eq_self {e : Expr} (none : ∀ part : Expr, part.PartOf e → ¬ part.Recalls) :
    e.recalled value raw = e := by
  induction e with
  | number x digits range => rfl
  | name text range => rfl
  | unary op operand range ih =>
    have below := (forall_parts_iff.mp none).2
    simp only [children, List.mem_singleton, forall_eq] at below
    rw [recalled, ih below]
  | binary op left right range first second =>
    have below := (forall_parts_iff.mp none).2
    simp only [children, List.mem_cons, List.not_mem_nil, or_false, forall_eq_or_imp, forall_eq] at below
    rw [recalled, first below.1, second below.2]
  | call callee args range ih =>
    obtain ⟨root, below⟩ := forall_parts_iff.mp none
    have other : ¬ (callee = "mem" ∧ args.isEmpty) := by
      rw [List.isEmpty_iff]
      exact root
    rw [recalled, if_neg other, recalledAll_eq_self fun e member => ih e member (below e member)]
  | list elements range ih =>
    have below := (forall_parts_iff.mp none).2
    rw [recalled, recalledAll_eq_self fun e member => ih e member (below e member)]
  | foreign kind range => rfl

end Expr

theorem Entry.lookup_memory_iff {text : Text} :
    lookup? text = some (.function .memory) ↔ text = "mem" := by
  constructor
  · intro found
    obtain ⟨before, behind, split, _⟩ := List.lookup_eq_some_iff.mp found
    have listed : (text, Entry.function .memory) ∈ table := by simp [split]
    have rows : ∀ row ∈ table, row.2 = .function .memory → row.1 = "mem" := by decide
    exact rows _ listed rfl
  · rintro rfl
    rfl

section TwoMemories

variable {angles : AngleUnit} {m : Binary64} (m' : Binary64)

theorem Registry.apply_memory {f : Function} (other : f ≠ .memory) (args : List Value) :
    apply ⟨angles, m⟩ f args = apply ⟨angles, m'⟩ f args := by
  cases f with
  | memory => contradiction
  | _ => rfl

theorem Evaluate.call_memory (text : Text) {f : Function} {args : List Value}
    (reads : f = .memory → args ≠ []) :
    call ⟨angles, m⟩ text f args = call ⟨angles, m'⟩ text f args := by
  by_cases read : f = .memory
  · subst read
    -- with arguments the call is refused before the memory is looked at
    have many : 0 < args.length := List.length_pos_iff.mpr (reads rfl)
    have outside : args.length < Function.memory.arity.1 ∨ Function.memory.arity.2 < args.length :=
      .inr many
    simp only [call, outside, if_true]
  · rw [call, call, Registry.apply_memory m' read args]

theorem Evaluate.call_recall (text : Text) (finite : m.isFinite = true) :
    call ⟨angles, m⟩ text .memory [] = .ok (.number m) :=
  call_ok_iff.mpr ⟨Nat.le_refl 0, Nat.le_refl 0, m, rfl, finite, rfl⟩

/-- A call comes to the same if its arguments do and the function makes the same of them. -/
theorem evaluate_call_congr {r r' : Registry} {callee : Text} {args args' : List Expr} {range : Span}
    (same : evaluateAll r args = evaluateAll r' args')
    (calls : ∀ f values, Entry.lookup? callee = some (.function f) → evaluateAll r args = .ok values →
      Evaluate.call r callee f values = Evaluate.call r' callee f values) :
    evaluate r (.call callee args range) = evaluate r' (.call callee args' range) := by
  rw [evaluate, evaluate, ← same]
  cases found : Evaluate.callee callee with
  | error fault => rfl
  | ok f =>
    cases given : evaluateAll r args with
    | error err => rfl
    | ok values => simp only [calls f values (Evaluate.callee_ok_iff.mp found) given]

variable (raw : Text)

theorem evaluateAll_recalled {es : List Expr}
    (each : ∀ e ∈ es, evaluate ⟨angles, m⟩ e = evaluate ⟨angles, m'⟩ (e.recalled m raw)) :
    evaluateAll ⟨angles, m⟩ es = evaluateAll ⟨angles, m'⟩ (Expr.recalledAll m raw es) := by
  induction es with
  | nil => rfl
  | cons e rest ih =>
    simp only [List.mem_cons, forall_eq_or_imp] at each
    rw [Expr.recalledAll, evaluateAll, evaluateAll, each.1, ih each.2]

/-- By induction on the tree: the two runs differ in the calls that read the memory alone, and there
the literal gives what the call gives. -/
theorem evaluate_recalled (finite : m.isFinite = true) (e : Expr) :
    evaluate ⟨angles, m⟩ e = evaluate ⟨angles, m'⟩ (e.recalled m raw) := by
  induction e with
  | number x digits range => rfl
  | name text range => rfl
  | unary op operand range ih => rw [Expr.recalled, evaluate, evaluate, ih]
  | binary op left right range first second => rw [Expr.recalled, evaluate, evaluate, first, second]
  | call callee args range ih =>
    rw [Expr.recalled]
    split
    · rename_i read
      obtain ⟨rfl, bare⟩ := read
      obtain rfl : args = [] := List.isEmpty_iff.mp bare
      rw [evaluate, evaluate, Evaluate.callee_ok_iff.mpr (Entry.lookup_memory_iff.mpr rfl), evaluateAll]
      simp only [Evaluate.call_recall _ finite, located]
    · rename_i other
      refine evaluate_call_congr (evaluateAll_recalled m' raw ih) fun f values found given =>
        Evaluate.call_memory m' callee ?_
      -- the function that reads the memory has one name, so this call has arguments
      rintro rfl rfl
      have none := (evaluateAll_ok_iff.mp given).length_eq
      exact other ⟨Entry.lookup_memory_iff.mp found, List.isEmpty_iff.mpr (List.length_eq_zero_iff.mp none)⟩
  | list elements range ih => rw [Expr.recalled, evaluate, evaluate, evaluateAll_recalled m' raw ih]
  | foreign kind range => rfl

theorem evaluateNumber_recalled (finite : m.isFinite = true) (e : Expr) :
    evaluateNumber ⟨angles, m⟩ e = evaluateNumber ⟨angles, m'⟩ (e.recalled m raw) := by
  rw [evaluateNumber, evaluateNumber, Expr.range_recalled, ← evaluate_recalled m' raw finite]

/-- Either run is that of a memory of zero, which nothing recalls. -/
theorem evaluate_unrecalled {e : Expr} (none : ∀ part : Expr, part.PartOf e → ¬ part.Recalls) :
    evaluate ⟨angles, m⟩ e = evaluate ⟨angles, m'⟩ e := by
  have zero : Binary64.zero.isFinite = true := by decide +kernel
  have same : ∀ other, evaluate ⟨angles, .zero⟩ e = evaluate ⟨angles, other⟩ e := by
    intro other
    rw [evaluate_recalled other [] zero, Expr.recalled_eq_self none]
  exact (same m).symm.trans (same m')

theorem evaluateNumber_unrecalled {e : Expr} (none : ∀ part : Expr, part.PartOf e → ¬ part.Recalls) :
    evaluateNumber ⟨angles, m⟩ e = evaluateNumber ⟨angles, m'⟩ e := by
  rw [evaluateNumber, evaluateNumber, evaluate_unrecalled m' none]

end TwoMemories

namespace Session

/-- A session with a finite memory answers, faults and places included, as any other session of its angle
unit does for the tree with the memory written out. Where nothing recalls the memory, it does not matter
at all. -/
theorem evaluate_memory_as_literal (s s' : Session) (unit : s.angles = s'.angles) (tree : Expr) :
    (s.memory.isFinite = true → ∀ raw,
      Calculator.evaluate s.registry tree =
          Calculator.evaluate s'.registry (tree.recalled s.memory raw) ∧
        evaluateNumber s.registry tree = evaluateNumber s'.registry (tree.recalled s.memory raw)) ∧
    ((∀ part : Expr, part.PartOf tree → ¬ part.Recalls) →
      Calculator.evaluate s.registry tree = Calculator.evaluate s'.registry tree ∧
        evaluateNumber s.registry tree = evaluateNumber s'.registry tree) := by
  obtain ⟨angles, m⟩ := s
  obtain ⟨angles', m'⟩ := s'
  obtain rfl : angles = angles' := unit
  constructor
  · intro finite raw
    exact ⟨evaluate_recalled m' raw finite tree, evaluateNumber_recalled m' raw finite tree⟩
  · intro none
    exact ⟨evaluate_unrecalled m' none, evaluateNumber_unrecalled m' none⟩

/-- A session that remembers a number against one that remembers none: the memory less a sum of it, and a
call that is refused for its argument. -/
theorem difference_of_memory_as_literal :
    (Binary64.pi.isFinite = true ∧
      Calculator.evaluate (registry ⟨.degrees, .pi⟩) (.binary (.known .minus) (.call "mem" [] ⟨0, 5⟩)
          (.call "sum" [.list [.call "mem" [] ⟨13, 18⟩] ⟨12, 19⟩] ⟨8, 20⟩) ⟨0, 20⟩) =
        Calculator.evaluate (registry ⟨.degrees, .nan⟩) (.binary (.known .minus)
          (.number .pi "3.14" ⟨0, 5⟩)
          (.call "sum" [.list [.number .pi "3.14" ⟨13, 18⟩] ⟨12, 19⟩] ⟨8, 20⟩) ⟨0, 20⟩)) ∧
    ((∀ part : Expr, part.PartOf (.call "mem" [.name "tau" ⟨4, 7⟩] ⟨0, 8⟩) → ¬ part.Recalls) ∧
      evaluateNumber (registry ⟨.degrees, .pi⟩) (.call "mem" [.name "tau" ⟨4, 7⟩] ⟨0, 8⟩) =
        evaluateNumber (registry ⟨.degrees, .nan⟩) (.call "mem" [.name "tau" ⟨4, 7⟩] ⟨0, 8⟩)) := by
  have finite : Binary64.pi.isFinite = true := by decide +kernel
  have held : (Session.mk .degrees .pi).memory.isFinite = true := by simpa only using finite
  have none : ∀ part : Expr, part.PartOf (.call "mem" [.name "tau" ⟨4, 7⟩] ⟨0, 8⟩) →
      ¬ part.Recalls := by
    refine Expr.forall_parts_iff.mpr ⟨by simp [Expr.Recalls], ?_⟩
    simp only [Expr.children, List.mem_singleton, forall_eq]
    exact Expr.forall_parts_iff.mpr ⟨by simp [Expr.Recalls], by simp [Expr.children]⟩
  have read := ((evaluate_memory_as_literal ⟨.degrees, .pi⟩ ⟨.degrees, .nan⟩ rfl
    (.binary (.known .minus) (.call "mem" [] ⟨0, 5⟩)
      (.call "sum" [.list [.call "mem" [] ⟨13, 18⟩] ⟨12, 19⟩] ⟨8, 20⟩) ⟨0, 20⟩)).1 held "3.14").1
  simp only [Expr.recalled, Expr.recalledAll, List.isEmpty_nil, and_self, if_true] at read
  have unread := (evaluate_memory_as_literal ⟨.degrees, .pi⟩ ⟨.degrees, .nan⟩ rfl
    (.call "mem" [.name "tau" ⟨4, 7⟩] ⟨0, 8⟩)).2 none
  exact ⟨⟨finite, read⟩, none, unread.2⟩

end Session

end Calculator
