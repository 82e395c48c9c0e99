import Calculator.Proofs.Evaluation.Meaning

/-!
Degrees as a way of writing. A tree in degrees means what the tree with its angles written out in radians
means: angles are converted before they go into a trigonometric function and after they come out of an
inverse one.
-/
namespace Calculator

/-- The functions that take angles and those that give them. -/
def Function.ofAngles : List Function := [.sin, .cos, .tan, .asin, .acos, .atan]

namespace Expr

/-- An angle in degrees, written out in radians. -/
def toRadians (angle : Expr) (range : Span) : Expr :=
  .binary (.known .divide) (.binary (.known .times) angle (.name "pi" range) range)
    (.number 180 "180" range) range

/-- An angle in radians, written out in degrees. -/
def fromRadians (angle : Expr) (range : Span) : Expr :=
  .binary (.known .divide) (.binary (.known .times) angle (.number 180 "180" range) range)
    (.name "pi" range) range

def angleTakers : List Text := ["sin", "cos", "tan"]

def angleGivers : List Text := ["asin", "acos", "atan"]

/-- A call with its angles written out. -/
def callInRadians (callee : Text) (args : List Expr) (range : Span) : Expr :=
  match args with
  | [a] =>
    if angleTakers.contains callee then .call callee [a.toRadians range] range
    else if angleGivers.contains callee then fromRadians (.call callee [a] range) range
    else .call callee [a] range
  | args => .call callee args range

mutual

/-- The tree with all angles that are in degrees written out in radians. -/
def inRadians : Expr → Expr
  | number value raw range => number value raw range
  | name text range => name text range
  | unary op operand range => unary op (inRadians operand) range
  | binary op left right range => binary op (inRadians left) (inRadians right) range
  | call callee args range => callInRadians callee (inRadiansAll args) range
  | list elements range => list (inRadiansAll elements) range
  | foreign kind range => foreign kind range

def inRadiansAll : List Expr → List Expr
  | [] => []
  | e :: rest => inRadians e :: inRadiansAll rest

end

end Expr

/-- A result whose error counts by its kind alone. -/
def byKind {α : Type} (result : Except Fault α) : Except ErrorKind α :=
  result.mapError Fault.kind

theorem byKind_bind {α β : Type} (result : Except Fault α) (next : α → Except Fault β) :
    byKind (result.bind next) = (byKind result).bind fun a => byKind (next a) := by
  cases result <;> rfl

theorem byKind_map {α β : Type} (result : Except Fault α) (f : α → β) :
    byKind (result.map f) = (byKind result).map f := by
  cases result <;> rfl

section Numbers

open Binary64

variable {x y : Binary64}

theorem Binary64.mul_not_finite (off : x.isFinite = false) : (x * y).isFinite = false := by
  show (mul x y).isFinite = false
  cases x with
  | nan => rfl
  | infinite s =>
    cases y with
    | nan => rfl
    | infinite t => rfl
    | finite t b fits => by_cases zero : b = 0 <;> simp [mul, zero, isFinite]
  | finite s m fits => cases off

theorem Binary64.div_not_finite (off : x.isFinite = false) : (x / y).isFinite = false := by
  show (div x y).isFinite = false
  cases x with
  | nan => rfl
  | infinite s => cases y <;> rfl
  | finite s m fits => cases off

theorem Binary64.periodic_not_finite (f : Float → Float) (off : x.isFinite = false) :
    periodic f x = .nan := by
  cases x with
  | nan => rfl
  | infinite s => rfl
  | finite s m fits => cases off

end Numbers

/-- A computed number as a value: only a finite one is. -/
def settled (x : Binary64) : Except ErrorKind Value :=
  if x.isFinite then .ok (.number x) else .error .domainError

theorem settled_bind {x : Binary64} {next : Value → Except ErrorKind Value} :
    (settled x).bind next = if x.isFinite then next (.number x) else .error .domainError := by
  unfold settled
  split <;> rfl

theorem byKind_finite (origin : Origin) (x : Binary64) :
    byKind ((finite origin x).map .number) = settled x := by
  cases x <;> rfl

namespace Evaluate

theorem byKind_times (x y : Binary64) :
    byKind (binary (.known .times) (.number x) (.number y)) = settled (x * y) :=
  byKind_finite _ _

theorem byKind_divide (x : Binary64) {y : Binary64} (nonzero : Binary64.equal y 0 = false) :
    byKind (binary (.known .divide) (.number x) (.number y)) = settled (x / y) := by
  have quotient : BinaryOp.apply (.known .divide) x y = .ok (x / y) := by
    simp [BinaryOp.apply, Operator.apply, nonzero]
  simp only [binary, Value.number?, quotient]
  exact byKind_finite _ _

theorem byKind_call {r : Registry} {f : Function} (one : f.arity = (1, 1)) (text : Text) (v : Value) :
    byKind (call r text f [v]) = (byKind (r.apply f [v])).bind settled := by
  have inside : ¬ ([v].length < f.arity.1 ∨ f.arity.2 < [v].length) := by simp [one]
  rw [call, if_neg inside]
  cases r.apply f [v] with
  | error fault => rfl
  | ok x => exact byKind_finite _ x

/-- Apart from the calls with one argument of the functions of angles, no call depends on the unit. -/
theorem call_units {f : Function} {values : List Value}
    (plain : f ∈ Function.ofAngles → values.length ≠ 1)
    (m : Binary64) (text : Text) :
    call ⟨.degrees, m⟩ text f values = call ⟨.radians, m⟩ text f values := by
  by_cases angles : f ∈ Function.ofAngles
  · have one : ∀ f ∈ Function.ofAngles, f.arity = (1, 1) := by decide
    have outside : values.length < f.arity.1 ∨ f.arity.2 < values.length := by
      have count := plain angles
      simp only [one f angles]
      omega
    rw [call, call, if_pos outside, if_pos outside]
  · have same : Registry.apply ⟨.degrees, m⟩ f values = Registry.apply ⟨.radians, m⟩ f values := by
      cases f <;> first | rfl | exact absurd (by decide) angles
    rw [call, call, same]

end Evaluate

section Conversion

variable {m : Binary64} {f : Function} {text : Text}

theorem byKind_toRadians (x : Binary64) :
    byKind ((Evaluate.binary (.known .times) (.number x) (.number .pi)).bind fun w =>
      Evaluate.binary (.known .divide) w (.number 180)) =
    if (x * .pi).isFinite then settled (x * .pi / 180) else .error .domainError := by
  have nonzero : Binary64.equal 180 0 = false := by decide +kernel
  rw [byKind_bind, Evaluate.byKind_times, settled_bind, Evaluate.byKind_divide _ nonzero]

theorem byKind_fromRadians (x : Binary64) :
    byKind ((Evaluate.binary (.known .times) (.number x) (.number 180)).bind fun w =>
      Evaluate.binary (.known .divide) w (.number .pi)) =
    if (x * 180).isFinite then settled (x * 180 / .pi) else .error .domainError := by
  have nonzero : Binary64.equal .pi 0 = false := by decide +kernel
  rw [byKind_bind, Evaluate.byKind_times, settled_bind, Evaluate.byKind_divide _ nonzero]

/-- A number that leaves the range on the way to an angle has no sine either, so it does not matter at
which step that is noticed. -/
theorem taker_call (one : f.arity = (1, 1)) {body : Binary64 → Binary64}
    (off : ∀ x, x.isFinite = false → body x = .nan)
    (refused : ∀ r items, Registry.apply r f [.list items] = .error (.argumentIsList f items.length))
    (applied : ∀ r x, Registry.apply r f [.number x] = .ok (body (r.toRadians x))) (v : Value) :
    byKind (Evaluate.call ⟨.degrees, m⟩ text f [v]) =
      byKind (((Evaluate.binary (.known .times) v (.number .pi)).bind fun w =>
        Evaluate.binary (.known .divide) w (.number 180)).bind fun w =>
          Evaluate.call ⟨.radians, m⟩ text f [w]) := by
  rw [byKind_bind, Evaluate.byKind_call one]
  cases v with
  | list items =>
    rw [refused]
    rfl
  | number x =>
    rw [byKind_toRadians, applied]
    show settled (body (x * .pi / 180)) = _
    by_cases product : (x * .pi).isFinite = true
    · rw [if_pos product, settled_bind]
      by_cases angle : (x * .pi / 180).isFinite = true
      · rw [if_pos angle, Evaluate.byKind_call one, applied]
        rfl
      · rw [if_neg angle, off _ (Bool.not_eq_true _ ▸ angle)]
        rfl
    · have far : (x * .pi / 180).isFinite = false :=
        Binary64.div_not_finite (Bool.not_eq_true _ ▸ product)
      rw [if_neg product, off _ far]
      rfl

/-- The domain is looked at before the conversion, and an angle that is out of range stays so. -/
theorem giver_call (one : f.arity = (1, 1)) (refuses : Binary64 → Bool) {body : Binary64 → Binary64}
    (refused : ∀ r items, Registry.apply r f [.list items] = .error (.argumentIsList f items.length))
    (applied : ∀ r x, Registry.apply r f [.number x] =
      if refuses x then .error (.outsideUnitInterval f) else .ok (r.fromRadians (body x))) (v : Value) :
    byKind (Evaluate.call ⟨.degrees, m⟩ text f [v]) =
      byKind ((Evaluate.call ⟨.radians, m⟩ text f [v]).bind fun y =>
        (Evaluate.binary (.known .times) y (.number 180)).bind fun w =>
          Evaluate.binary (.known .divide) w (.number .pi)) := by
  rw [byKind_bind, Evaluate.byKind_call one, Evaluate.byKind_call one]
  cases v with
  | list items =>
    rw [refused, refused]
    rfl
  | number x =>
    rw [applied, applied]
    by_cases outside : refuses x = true
    · rw [if_pos outside, if_pos outside]
      rfl
    rw [if_neg outside, if_neg outside]
    show settled (body x * 180 / .pi) = (settled (body x)).bind _
    rw [settled_bind]
    by_cases angle : (body x).isFinite = true
    · rw [if_pos angle, byKind_fromRadians]
      by_cases product : (body x * 180).isFinite = true
      · rw [if_pos product]
      · have far : (body x * 180 / .pi).isFinite = false :=
          Binary64.div_not_finite (Bool.not_eq_true _ ▸ product)
        rw [if_neg product, settled, far]
        rfl
    · have far : (body x * 180 / .pi).isFinite = false :=
        Binary64.div_not_finite (Binary64.mul_not_finite (Bool.not_eq_true _ ▸ angle))
      rw [if_neg angle, settled, far]
      rfl

end Conversion

namespace Expr

variable {m : Binary64}

theorem meaning_toRadians (r : Registry) (angle : Expr) (range : Span) :
    (angle.toRadians range).meaning r = (angle.meaning r).bind fun v =>
      (Evaluate.binary (.known .times) v (.number .pi)).bind fun w =>
        Evaluate.binary (.known .divide) w (.number 180) := by
  rw [toRadians, meaning_binary, meaning_binary]
  cases angle.meaning r <;> rfl

theorem meaning_fromRadians (r : Registry) (angle : Expr) (range : Span) :
    (angle.fromRadians range).meaning r = (angle.meaning r).bind fun v =>
      (Evaluate.binary (.known .times) v (.number 180)).bind fun w =>
        Evaluate.binary (.known .divide) w (.number .pi) := by
  rw [fromRadians, meaning_binary, meaning_binary]
  cases angle.meaning r <;> rfl

theorem meaning_call_one (r : Registry) {callee : Text} {f : Function}
    (found : Entry.lookup? callee = some (.function f)) (a : Expr) (range : Span) :
    (call callee [a] range).meaning r = (a.meaning r).bind fun v => Evaluate.call r callee f [v] := by
  rw [meaning_call, Evaluate.callee_ok_iff.mpr found, meanings_cons]
  cases a.meaning r <;> rfl

theorem meanings_length {r : Registry} {es : List Expr} {values : List Value}
    (given : meanings r es = .ok values) : values.length = es.length := by
  unfold meanings at given
  cases run : evaluateAll r es with
  | error err => simp [run, Except.mapError] at given
  | ok values' =>
    obtain rfl : values' = values := by simpa [run, Except.mapError] using given
    exact (evaluateAll_ok_iff.mp run).length_eq.symm

/-- The tree in degrees and the other one in radians mean the same. -/
def Agrees (m : Binary64) (e e' : Expr) : Prop :=
  byKind (e.meaning ⟨.degrees, m⟩) = byKind (e'.meaning ⟨.radians, m⟩)

theorem meanings_agree {es es' : List Expr} (each : List.Forall₂ (Agrees m) es es') :
    byKind (meanings ⟨.degrees, m⟩ es) = byKind (meanings ⟨.radians, m⟩ es') := by
  induction each with
  | nil => rfl
  | cons first _ ih =>
    simp only [meanings_cons, byKind_bind, byKind_map]
    rw [first, ih]

theorem agrees_call {callee : Text} {args args' : List Expr} (range : Span)
    (each : List.Forall₂ (Agrees m) args args')
    (plain : ∀ f, Entry.lookup? callee = some (.function f) →
      f ∈ Function.ofAngles → args.length ≠ 1) :
    Agrees m (.call callee args range) (.call callee args' range) := by
  unfold Agrees
  rw [meaning_call, meaning_call]
  cases found : Evaluate.callee callee with
  | error fault => rfl
  | ok f =>
    show byKind ((meanings _ args).bind _) = byKind ((meanings _ args').bind _)
    rw [byKind_bind, byKind_bind, ← meanings_agree each]
    cases given : meanings ⟨.degrees, m⟩ args with
    | error fault => rfl
    | ok values =>
      have count := meanings_length given
      have other : f ∈ Function.ofAngles → values.length ≠ 1 := fun angles =>
        count ▸ plain f (Evaluate.callee_ok_iff.mp found) angles
      exact congrArg byKind (Evaluate.call_units other m callee)

/-- Two trees agree if what they make of parts that agree is the same up to the error. -/
theorem agrees_bind {e e' a a' : Expr} {f g : Value → Except Fault Value} (same : Agrees m a a')
    (left : e.meaning ⟨.degrees, m⟩ = (a.meaning ⟨.degrees, m⟩).bind f)
    (right : e'.meaning ⟨.radians, m⟩ = (a'.meaning ⟨.radians, m⟩).bind g)
    (steps : ∀ v, byKind (f v) = byKind (g v)) : Agrees m e e' := by
  unfold Agrees at same ⊢
  rw [left, right, byKind_bind, byKind_bind, same]
  simp only [steps]

theorem agrees_taker {callee : Text} {f : Function} (found : Entry.lookup? callee = some (.function f))
    (calls : ∀ v, byKind (Evaluate.call ⟨.degrees, m⟩ callee f [v]) =
      byKind (((Evaluate.binary (.known .times) v (.number .pi)).bind fun w =>
        Evaluate.binary (.known .divide) w (.number 180)).bind fun w =>
          Evaluate.call ⟨.radians, m⟩ callee f [w]))
    {a a' : Expr} (same : Agrees m a a') (range : Span) :
    Agrees m (.call callee [a] range) (.call callee [a'.toRadians range] range) := by
  refine agrees_bind same (meaning_call_one _ found a range) ?_ calls
  rw [meaning_call_one _ found, meaning_toRadians]
  cases a'.meaning ⟨.radians, m⟩ <;> rfl

theorem agrees_giver {callee : Text} {f : Function} (found : Entry.lookup? callee = some (.function f))
    (calls : ∀ v, byKind (Evaluate.call ⟨.degrees, m⟩ callee f [v]) =
      byKind ((Evaluate.call ⟨.radians, m⟩ callee f [v]).bind fun y =>
        (Evaluate.binary (.known .times) y (.number 180)).bind fun w =>
          Evaluate.binary (.known .divide) w (.number .pi)))
    {a a' : Expr} (same : Agrees m a a') (range : Span) :
    Agrees m (.call callee [a] range) (fromRadians (.call callee [a'] range) range) := by
  refine agrees_bind same (meaning_call_one _ found a range) ?_ calls
  rw [meaning_fromRadians, meaning_call_one _ found]
  cases a'.meaning ⟨.radians, m⟩ <;> rfl

theorem agrees_callInRadians (callee : Text) (range : Span) {args args' : List Expr}
    (each : List.Forall₂ (Agrees m) args args') :
    Agrees m (.call callee args range) (callInRadians callee args' range) := by
  cases each with
  | nil => exact agrees_call range .nil (by simp)
  | @cons a a' rest rest' first later =>
    cases later with
    | cons second later => exact agrees_call range (.cons first (.cons second later)) (by simp)
    | nil =>
      simp only [callInRadians]
      by_cases taker : angleTakers.contains callee = true
      · rw [if_pos taker]
        simp only [List.contains_iff_mem, angleTakers, List.mem_cons, List.not_mem_nil, or_false] at taker
        have off := fun f x => Binary64.periodic_not_finite (x := x) f
        rcases taker with rfl | rfl | rfl <;>
          exact agrees_taker rfl (taker_call rfl (off _) (fun _ _ => rfl) fun _ _ => rfl) first range
      rw [if_neg taker]
      by_cases giver : angleGivers.contains callee = true
      · rw [if_pos giver]
        simp only [List.contains_iff_mem, angleGivers, List.mem_cons, List.not_mem_nil, or_false] at giver
        rcases giver with rfl | rfl | rfl
        · exact agrees_giver rfl (giver_call rfl _ (fun _ _ => rfl) fun _ _ => rfl) first range
        · exact agrees_giver rfl (giver_call rfl _ (fun _ _ => rfl) fun _ _ => rfl) first range
        · exact agrees_giver rfl (giver_call rfl (fun _ => false) (fun _ _ => rfl) fun _ _ => rfl)
            first range
      · rw [if_neg giver]
        refine agrees_call range (.cons first .nil) fun f found angles _ => ?_
        have rows : ∀ row ∈ Entry.table, ∀ f ∈ Function.ofAngles,
            row.2 = .function f →
            angleTakers.contains row.1 ∨ angleGivers.contains row.1 := by decide
        obtain ⟨before, behind, split, _⟩ := List.lookup_eq_some_iff.mp found
        have listed : (callee, Entry.function f) ∈ Entry.table := by simp [split]
        exact (rows _ listed f angles rfl).elim taker giver

theorem agrees_all {es : List Expr} (each : ∀ e ∈ es, Agrees m e e.inRadians) :
    List.Forall₂ (Agrees m) es (inRadiansAll es) := by
  induction es with
  | nil => exact .nil
  | cons e rest ih =>
    simp only [List.mem_cons, forall_eq_or_imp] at each
    exact .cons each.1 (ih each.2)

theorem agrees_inRadians (e : Expr) : Agrees m e e.inRadians := by
  induction e with
  | number value raw range => rfl
  | name text range => rfl
  | unary op operand range ih =>
    exact agrees_bind ih (meaning_unary ..) (meaning_unary ..) fun v => rfl
  | binary op left right range first second =>
    unfold Agrees at first second ⊢
    simp only [inRadians, meaning_binary, byKind_bind]
    rw [first, second]
  | call callee args range ih => exact agrees_callInRadians callee range (agrees_all ih)
  | list elements range ih =>
    unfold Agrees
    rw [inRadians, meaning_list, meaning_list, byKind_map, byKind_map, meanings_agree (agrees_all ih)]
  | foreign kind range => rfl

end Expr

/-- The kind of an error, its place and its wording left aside. -/
def EvaluationError.kind (e : EvaluationError) : ErrorKind :=
  e.fault.kind

theorem mapError_kind {α : Type} (result : Except EvaluationError α) :
    result.mapError EvaluationError.kind = byKind (result.mapError EvaluationError.fault) := by
  cases result <;> rfl

/-- A tree in degrees has the value of the tree with its angles written out in radians, or fails as that
does, whatever the memory. -/
theorem evaluate_degrees_as_radians (m : Binary64) (tree : Expr) :
    (evaluate ⟨.degrees, m⟩ tree).mapError EvaluationError.kind =
        (evaluate ⟨.radians, m⟩ tree.inRadians).mapError EvaluationError.kind ∧
      (evaluateNumber ⟨.degrees, m⟩ tree).mapError EvaluationError.kind =
        (evaluateNumber ⟨.radians, m⟩ tree.inRadians).mapError EvaluationError.kind := by
  have same : byKind (tree.meaning ⟨.degrees, m⟩) = byKind (tree.inRadians.meaning ⟨.radians, m⟩) :=
    tree.agrees_inRadians
  refine ⟨?_, ?_⟩
  · rw [mapError_kind, mapError_kind]
    exact same
  · rw [mapError_kind, mapError_kind]
    show byKind (tree.amount _) = byKind (tree.inRadians.amount _)
    rw [Expr.amount_eq, Expr.amount_eq, byKind_bind, byKind_bind, same]

end Calculator
