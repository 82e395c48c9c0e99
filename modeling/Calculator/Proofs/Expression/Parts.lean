import Calculator.Expression.Syntax

/-!
The nodes of a tree: induction over them, and the nodes that reading a text can yield.
-/
namespace Calculator.Expr

def children : Expr → List Expr
  | number .. => []
  | name .. => []
  | unary _ operand _ => [operand]
  | binary _ left right _ => [left, right]
  | call _ args _ => args
  | list elements _ => elements
  | foreign .. => []

/-- A node of a tree, the root included. -/
inductive PartOf (part : Expr) : Expr → Prop where
  | whole : PartOf part part
  | inside {child e : Expr} (member : child ∈ e.children) (inner : PartOf part child) : PartOf part e

@[induction_eliminator]
theorem node_induction {motive : Expr → Prop}
    (number : ∀ value raw range, motive (.number value raw range))
    (name : ∀ text range, motive (.name text range))
    (unary : ∀ op operand range, motive operand → motive (.unary op operand range))
    (binary : ∀ op left right range, motive left → motive right → motive (.binary op left right range))
    (call : ∀ callee args range, (∀ e ∈ args, motive e) → motive (.call callee args range))
    (list : ∀ elements range, (∀ e ∈ elements, motive e) → motive (.list elements range))
    (foreign : ∀ kind range, motive (.foreign kind range)) (e : Expr) : motive e :=
  @Expr.rec motive (fun es => ∀ e ∈ es, motive e) number name unary binary call list foreign (by simp)
    (fun _ _ head tail => by simpa using ⟨head, tail⟩) e

/-- Induction that treats all nodes alike. -/
theorem children_induction {motive : Expr → Prop}
    (node : ∀ e : Expr, (∀ child ∈ e.children, motive child) → motive e) (e : Expr) : motive e := by
  induction e with
  | number value raw range => exact node _ (by simp [children])
  | name text range => exact node _ (by simp [children])
  | unary op operand range ih => exact node _ (by simpa [children] using ih)
  | binary op left right range first second =>
    exact node _ (by simpa [children] using ⟨first, second⟩)
  | call callee args range ih => exact node _ ih
  | list elements range ih => exact node _ ih
  | foreign kind range => exact node _ (by simp [children])

theorem PartOf.trans {part e whole : Expr} (inner : PartOf part e) (outer : PartOf e whole) :
    PartOf part whole := by
  induction outer with
  | whole => exact inner
  | inside member _ ih => exact .inside member ih

theorem PartOf.eq_or_inside {part e : Expr} (inner : PartOf part e) :
    part = e ∨ ∃ child ∈ e.children, PartOf part child := by
  cases inner with
  | whole => exact .inl rfl
  | inside member inner => exact .inr ⟨_, member, inner⟩

theorem depth_le_depthAll {e : Expr} {es : List Expr} (member : e ∈ es) : e.depth ≤ depthAll es := by
  induction es with
  | nil => cases member
  | cons first rest ih =>
    rw [depthAll]
    rcases List.mem_cons.mp member with rfl | later
    · exact Nat.le_max_left _ _
    · exact Nat.le_trans (ih later) (Nat.le_max_right _ _)

theorem depth_child_lt {child e : Expr} (member : child ∈ e.children) : child.depth < e.depth := by
  cases e with
  | number value raw range => cases member
  | name text range => cases member
  | unary op operand range =>
    obtain rfl : child = operand := List.mem_singleton.mp member
    simp [depth]
  | binary op left right range =>
    obtain rfl | rfl : child = left ∨ child = right := by simpa [children] using member
    · simp only [depth]; omega
    · simp only [depth]; omega
  | call callee args range =>
    have deepest := depth_le_depthAll member
    simp only [children, depth] at deepest ⊢
    omega
  | list elements range =>
    have deepest := depth_le_depthAll member
    simp only [children, depth] at deepest ⊢
    omega
  | foreign kind range => cases member

theorem PartOf.depth_le {part e : Expr} (inner : PartOf part e) : part.depth ≤ e.depth := by
  induction inner with
  | whole => exact Nat.le_refl _
  | inside member _ ih => exact Nat.le_trans ih (Nat.le_of_lt (depth_child_lt member))

/-- What holds of the root, and of all nodes of each child, holds of all nodes. -/
theorem forall_parts_iff {P : Expr → Prop} {e : Expr} :
    (∀ part, PartOf part e → P part) ↔
      P e ∧ ∀ child ∈ e.children, ∀ part, PartOf part child → P part := by
  constructor
  · intro all
    exact ⟨all e .whole, fun child member part inner => all part (.inside member inner)⟩
  · rintro ⟨root, below⟩ part inner
    cases inner with
    | whole => exact root
    | inside member inner => exact below _ member part inner

/-- Nodes that reading a text can yield. -/
def Readable : Expr → Prop
  | number value _ _ => value.isFinite = true
  | unary (.other _) _ _ => False
  | binary (.other _) _ _ _ => False
  | foreign .. => False
  | _ => True

end Calculator.Expr
