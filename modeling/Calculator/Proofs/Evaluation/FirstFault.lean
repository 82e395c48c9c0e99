import Calculator.Proofs.Evaluation.Inversion
import Calculator.Proofs.Expression.Trees

/-!
Which of several faults an evaluation reports. Operands and arguments come before the node that they
belong to and are taken from left to right, and a name that cannot be called is found out before its
arguments are looked at. So one node of a tree fails first, and its failure is that of the whole tree.
-/
namespace Calculator

variable {r : Registry}

theorem evaluateAll_ok_each {es : List Expr} {values : List Value} (run : evaluateAll r es = .ok values) :
    ∀ e ∈ es, ∃ v, evaluate r e = .ok v := by
  induction es generalizing values with
  | nil => simp
  | cons e rest ih =>
    obtain ⟨v, values', first, later, _⟩ := List.forall₂_cons_left_iff.mp (evaluateAll_ok_iff.mp run)
    simpa using ⟨⟨v, first⟩, ih (evaluateAll_ok_iff.mpr later)⟩

theorem evaluate_ok_children {e : Expr} {v : Value} (run : evaluate r e = .ok v) :
    ∀ child ∈ e.children, ∃ w, evaluate r child = .ok w := by
  cases e with
  | number value raw range => simp [Expr.children]
  | name text range => simp [Expr.children]
  | unary op operand range =>
    obtain ⟨x, _, inner, _⟩ := evaluate_unary_ok_iff.mp run
    simp [Expr.children, inner]
  | binary op left right range =>
    obtain ⟨x, y, _, first, second, _⟩ := evaluate_binary_ok_iff.mp run
    simp [Expr.children, first, second]
  | call text args range =>
    obtain ⟨_, values, _, _, given, _⟩ := evaluate_call_ok_iff.mp run
    exact evaluateAll_ok_each (evaluateAll_ok_iff.mpr given)
  | list elements range =>
    obtain ⟨values, given, _⟩ := evaluate_list_ok_iff.mp run
    exact evaluateAll_ok_each (evaluateAll_ok_iff.mpr given)
  | foreign kind range => cases run

/-- All of a tree that has a value was evaluated. -/
theorem evaluate_ok_parts {e part : Expr} (inner : part.PartOf e) (run : ∃ v, evaluate r e = .ok v) :
    ∃ w, evaluate r part = .ok w := by
  induction inner with
  | whole => exact run
  | inside member _ ih =>
    obtain ⟨v, run⟩ := run
    exact ih (evaluate_ok_children run _ member)

theorem Raises.fails {node : Expr} {err : EvaluationError} (raises : Raises r node err) :
    evaluate r node = .error err := by
  cases raises with
  | name cause => simp [evaluate, cause, located]
  | unary inner cause => simp [evaluate, inner, cause, located]
  | binary first second cause => simp [evaluate, first, second, cause, located]
  | callee cause => simp [evaluate, cause]
  | call found given cause => simp [evaluate, found, given, cause, located]
  | foreign => rfl

theorem Raises.children {node : Expr} {err : EvaluationError} (raises : Raises r node err)
    (called : ¬ node.CallsNoFunction) : ∀ child ∈ node.children, ∃ v, evaluate r child = .ok v := by
  cases raises with
  | name _ => simp [Expr.children]
  | unary inner _ => simp [Expr.children, inner]
  | binary first second _ => simp [Expr.children, first, second]
  | callee cause =>
    refine absurd (fun f found => ?_) called
    rw [Evaluate.callee_ok_iff.mpr found] at cause
    cases cause
  | call _ given _ => exact evaluateAll_ok_each given
  | foreign => simp [Expr.children]

theorem Raises.span {node : Expr} {err : EvaluationError} (raises : Raises r node err)
    (readable : node.Readable) : err.span = some node.range := by
  cases raises with
  | foreign => exact readable.elim
  | _ => rfl

/-- The node fails, though all that is evaluated before it, in it and to its left, has a value. -/
structure FirstFault (r : Registry) (tree node : Expr) : Prop where
  part : node.PartOf tree
  fails : ∃ err, evaluate r node = .error err
  inner : ¬ node.CallsNoFunction →
    ∀ child ∈ node.children, ∀ part : Expr, part.PartOf child → ∃ v, evaluate r part = .ok v
  earlier : ∀ other : Expr, other.PartOf tree → other.range.stop ≤ node.range.start →
    ∃ v, evaluate r other = .ok v
  reached : ∀ outer : Expr, outer.PartOf tree →
    ∀ child ∈ outer.children, node.PartOf child → ¬ outer.CallsNoFunction

namespace FirstFault

variable {tree : Expr}

theorem of_raises {err : EvaluationError} (arranged : tree.Arranged) (raises : Raises r tree err) :
    FirstFault r tree tree where
  part := .whole
  fails := ⟨err, raises.fails⟩
  inner called child member part inside :=
    evaluate_ok_parts inside (raises.children called child member)
  earlier other part before := by
    have within := arranged.inside part
    have extent := (arranged other part).extent
    omega
  reached outer part child member inside := by
    have deep := inside.depth_le
    have deep' := part.depth_le
    have deeper := Expr.depth_child_lt member
    omega

theorem of_child {child node : Expr} {err : EvaluationError} (arranged : tree.Arranged)
    (called : ¬ tree.CallsNoFunction) (failsAt : FailsAt r tree child err)
    (first : FirstFault r child node) : FirstFault r tree node := by
  obtain ⟨⟨before, behind, split, fine⟩, _⟩ := failsAt
  obtain ⟨laid, below⟩ := Expr.arranged_iff.mp arranged
  have member : child ∈ tree.children := by simp [split]
  have inChild := (below child member).inside first.part
  have extent := (below child member node first.part).extent
  have apart := laid.apart
  rw [split, List.pairwise_append, List.pairwise_cons] at apart
  refine ⟨.inside member first.part, first.fails, first.inner, ?_, ?_⟩
  · intro other part ends
    have extent' := (arranged other part).extent
    rcases part.eq_or_inside with rfl | ⟨child', member', inside⟩
    · have wide := laid.inside child member
      omega
    have inChild' := (below child' member').inside inside
    rw [split] at member'
    rcases List.mem_append.mp member' with left | right
    · exact evaluate_ok_parts inside (fine child' left)
    rcases List.mem_cons.mp right with rfl | right
    · exact first.earlier other inside ends
    · -- what stands to the right of the child does not end before a node in it begins
      have order := apart.2.1.1 child' right
      omega
  · intro outer part child' member' inside
    rcases part.eq_or_inside with rfl | ⟨child'', member'', within⟩
    · exact called
    by_cases same : child = child''
    · subst same
      exact first.reached outer within child' member' inside
    -- a node of one child is no node of another
    have apart' := laid.apart_of_ne member member'' same
    have inside' : node.PartOf child'' := (Expr.PartOf.inside member' inside).trans within
    have inChild'' := (below child'' member'').inside inside'
    omega

theorem unique {a b : Expr} (arranged : tree.Arranged) (first : FirstFault r tree a)
    (second : FirstFault r tree b) : a = b := by
  -- neither node is in the other, and neither stands to the left of the other, since it would have a value
  have outermost : ∀ {a b : Expr}, FirstFault r tree a → FirstFault r tree b → a.PartOf b → a = b := by
    intro a b first second nested
    rcases nested.eq_or_inside with same | ⟨child, member, inside⟩
    · exact same
    · obtain ⟨err, failed⟩ := first.fails
      have called := first.reached b second.part child member inside
      obtain ⟨v, run⟩ := second.inner called child member a inside
      cases failed.symm.trans run
  have leftmost : ∀ {a b : Expr}, FirstFault r tree a → FirstFault r tree b →
      ¬ a.range.stop ≤ b.range.start := by
    intro a b first second before
    obtain ⟨err, failed⟩ := first.fails
    obtain ⟨v, run⟩ := second.earlier a first.part before
    cases failed.symm.trans run
  rcases arranged.nested_or_apart first.part second.part with nested | nested | before | before
  · exact outermost first second nested
  · exact (outermost second first nested).symm
  · exact (leftmost first second before).elim
  · exact (leftmost second first before).elim

end FirstFault

theorem exists_firstFault {tree : Expr} {err : EvaluationError} (arranged : tree.Arranged)
    (failed : evaluate r tree = .error err) : ∃ node, FirstFault r tree node ∧ Raises r node err := by
  induction tree using Expr.children_induction with
  | node tree ih =>
    rcases evaluate_error_cases failed with own | ⟨called, child, failsAt⟩
    · exact ⟨tree, .of_raises arranged own, own⟩
    · obtain ⟨before, behind, split, _⟩ := failsAt.split
      have member : child ∈ tree.children := by simp [split]
      obtain ⟨_, below⟩ := Expr.arranged_iff.mp arranged
      obtain ⟨node, first, raises⟩ := ih child member (below child member) failsAt.failed
      exact ⟨node, .of_child arranged called failsAt first, raises⟩

/-- Of a text whose evaluation fails just one node fails first, and the failure is the node's own, at the
place of the node. -/
theorem evaluate_fails_first {t : Text} {tree : Expr} {err : EvaluationError} (read : parse t = .ok tree)
    (failed : evaluate r tree = .error err) :
    (∃! node, FirstFault r tree node) ∧
      ∀ node, FirstFault r tree node → evaluate r node = .error err ∧ err.span = some node.range := by
  have arranged := (parse_liesIn read).arranged
  obtain ⟨node, first, raises⟩ := exists_firstFault arranged failed
  refine ⟨⟨node, first, fun other other' => other'.unique arranged first⟩, fun other other' => ?_⟩
  obtain rfl : other = node := other'.unique arranged first
  exact ⟨raises.fails, raises.span (parse_readable read other first.part)⟩

/-- The call of an unknown name fails before its argument and before the call of a constant behind it. -/
theorem unknown_call_fails_first :
    ∃ tree, parse "e-f(x)*pi()" = .ok tree ∧
      evaluate ⟨.degrees, .zero⟩ tree = .error ⟨.unknownFunction "f", some ⟨2, 6⟩⟩ ∧
      (∃! node, FirstFault ⟨.degrees, .zero⟩ tree node) ∧
      ∀ node, FirstFault ⟨.degrees, .zero⟩ tree node → node.range = ⟨2, 6⟩ := by
  have read : parse "e-f(x)*pi()" = .ok (.binary (.known .minus) (.name "e" ⟨0, 1⟩)
    (.binary (.known .times) (.call "f" [.name "x" ⟨4, 5⟩] ⟨2, 6⟩) (.call "pi" [] ⟨7, 11⟩) ⟨2, 11⟩)
    ⟨0, 11⟩) := rfl
  have failed : evaluate ⟨.degrees, .zero⟩ (.binary (.known .minus) (.name "e" ⟨0, 1⟩)
      (.binary (.known .times) (.call "f" [.name "x" ⟨4, 5⟩] ⟨2, 6⟩) (.call "pi" [] ⟨7, 11⟩) ⟨2, 11⟩)
      ⟨0, 11⟩) = .error ⟨.unknownFunction "f", some ⟨2, 6⟩⟩ := rfl
  obtain ⟨one, each⟩ := evaluate_fails_first read failed
  exact ⟨_, read, failed, one, fun node first => (Option.some.inj (each node first).2).symm⟩

end Calculator
