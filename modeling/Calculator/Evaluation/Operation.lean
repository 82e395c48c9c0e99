import Calculator.Evaluation.Fault
import Calculator.Number.Elementary

/-!
What the operators compute. Division is refused by zero; floor division is taken from the remainder,
so that it agrees with the remainder on fractions.
-/
namespace Calculator

namespace Binary64

/-- Whether a remainder lies on the other side of zero than the divisor. -/
def opposes (remainder divisor : Binary64) : Bool :=
  !equal remainder 0 && less remainder 0 != less divisor 0

/-- The quotient rounded down: exact division of what the remainder leaves, one less where the
remainder opposes the divisor, then taken to the integer it is nearest to. -/
def floorDivide (left right : Binary64) : Binary64 :=
  let remainder := left.rem right
  let quotient := (left - remainder) / right
  let lowered := if opposes remainder right then quotient - 1 else quotient
  if equal lowered 0 then 0
  else
    let low := lowered.floor
    if less half (lowered - low) then low + 1 else low

/-- The remainder that has the sign of the divisor. -/
def modulo (left right : Binary64) : Binary64 :=
  let remainder := left.rem right
  if opposes remainder right then remainder + right else remainder

end Binary64

open Binary64

def raise (base exponent : Binary64) : Except Fault Binary64 :=
  if equal base 0 && less exponent 0 then .error .zeroToNegativePower
  else if less base 0 && !exponent.isInteger then .error .fractionalPowerOfNegative
  else .ok (base.pow exponent)

def Operator.apply (op : Operator) (left right : Binary64) : Except Fault Binary64 :=
  match op with
  | .plus => .ok (left + right)
  | .minus => .ok (left - right)
  | .times => .ok (left * right)
  | .divide => if equal right 0 then .error .divisionByZero else .ok (left / right)
  | .floorDivide =>
    if equal right 0 then .error .floorDivisionByZero else .ok (left.floorDivide right)
  | .modulo => if equal right 0 then .error .moduloByZero else .ok (left.modulo right)
  | .power => raise left right

def BinaryOp.apply (op : BinaryOp) (left right : Binary64) : Except Fault Binary64 :=
  match op with
  | .known op => op.apply left right
  | .other symbol => .error (.operatorNotAllowed symbol)

def UnaryOp.apply (op : UnaryOp) (operand : Binary64) : Except Fault Binary64 :=
  match op with
  | .minus => .ok (-operand)
  | .plus => .ok operand
  | .other symbol => .error (.signNotAllowed symbol)

/-- Lets only finite results pass. -/
def finite (origin : Origin) : Binary64 → Except Fault Binary64
  | .nan => .error (.undefined origin)
  | .infinite _ => .error (.outOfRange origin)
  | x => .ok x

end Calculator
