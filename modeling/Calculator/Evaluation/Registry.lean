import Calculator.Evaluation.Operation
import Calculator.Number.Rounding

/-!
The functions and constants of a session. The angle unit and the memory are all they depend on besides
their arguments.
-/
namespace Calculator

structure Registry where
  angles : AngleUnit
  memory : Binary64

namespace Registry

open Binary64

def toRadians (r : Registry) (x : Binary64) : Binary64 :=
  match r.angles with
  | .degrees => x * pi / 180
  | .radians => x

def fromRadians (r : Registry) (x : Binary64) : Binary64 :=
  match r.angles with
  | .degrees => x * 180 / pi
  | .radians => x

def numberAt (f : Function) (args : List Value) (index : Nat) : Except Fault Binary64 :=
  match args[index]? with
  | some (.number x) => .ok x
  | some (.list items) => .error (.argumentIsList f items.length)
  | none => .error (.missingArgument f index)

/-- Applies a function of one number. -/
def single (f : Function) (args : List Value) (body : Binary64 → Except Fault Binary64) :
    Except Fault Binary64 :=
  match numberAt f args 0 with
  | .error e => .error e
  | .ok x => body x

/-- An inverse function is defined between minus one and one. -/
def inverse (r : Registry) (f : Function) (body : Binary64 → Binary64) (x : Binary64) :
    Except Fault Binary64 :=
  if less x (-1) || less 1 x then .error (.outsideUnitInterval f) else .ok (r.fromRadians (body x))

/-- Multiplies by the counter, up to and including `last`, until the product leaves the range. -/
def product : (fuel : Nat) → (counter : Nat) → (last : Binary64) → Binary64 → Except Fault Binary64
  | 0, _, _, result => .ok result
  | fuel + 1, counter, last, result =>
    if less last (ofNat counter) then .ok result
    else
      let next := result * ofNat counter
      if next.isFinite then product fuel (counter + 1) last next else .error .factorialTooLarge

/-- The counter goes up from two. The product is out of range by 171 at the latest, so the number of
steps does not depend on the argument. Not-a-number counts as nothing to multiply. -/
def factorial (x : Binary64) : Except Fault Binary64 :=
  let n := x.truncate
  if less n 0 then .error .negativeFactorial
  else if n.isNaN then .ok 1
  else product 170 2 n 1

def logarithm (args : List Value) : Except Fault Binary64 :=
  match numberAt .log args 0 with
  | .error e => .error e
  | .ok x =>
    if lessOrEqual x 0 then .error (.notPositive .log)
    else if args.length = 1 then .ok x.log
    else
      match numberAt .log args 1 with
      | .error e => .error e
      | .ok base =>
        if lessOrEqual base 0 then .error .baseNotPositive
        else if equal base 1 then .error .baseOne
        else .ok (x.log / base.log)

/-- The number of places is zero unless a second argument gives it. -/
def roundTo (args : List Value) : Except Fault Binary64 :=
  match numberAt .round args 0 with
  | .error e => .error e
  | .ok x =>
    match if 1 < args.length then numberAt .round args 1 else .ok 0 with
    | .error e => .error e
    | .ok places =>
      if places.isInteger then .ok (x.roundPlaces places.toInt) else .error .placesNotInteger

def addItems : Binary64 → List Value → Except Fault Binary64
  | total, [] => .ok total
  | total, .number x :: rest => addItems (total + x) rest
  | _, .list items :: _ => .error (.sumItemIsList items.length)

/-- Adds the items to the start value, from left to right. -/
def total (args : List Value) : Except Fault Binary64 :=
  match args with
  | [] => .error (.missingArgument .sum 0)
  | .number _ :: _ => .error .sumOfNumber
  | .list items :: rest =>
    match if rest = [] then .ok 0 else numberAt .sum args 1 with
    | .error e => .error e
    | .ok start => addItems start items

def apply (r : Registry) (f : Function) (args : List Value) : Except Fault Binary64 :=
  match f with
  | .sin => single f args fun x => .ok (r.toRadians x).sin
  | .cos => single f args fun x => .ok (r.toRadians x).cos
  | .tan => single f args fun x => .ok (r.toRadians x).tan
  | .asin => single f args (r.inverse f Binary64.asin)
  | .acos => single f args (r.inverse f Binary64.acos)
  | .atan => single f args fun x => .ok (r.fromRadians x.atan)
  | .sqrt => single f args fun x => if less x 0 then .error .negativeRadicand else .ok x.sqrt
  | .log => logarithm args
  | .log10 => single f args fun x =>
      if lessOrEqual x 0 then .error (.notPositive f) else .ok x.log10
  | .abs => single f args fun x => .ok x.abs
  | .floor => single f args fun x => .ok x.floor
  | .ceil => single f args fun x => .ok x.ceil
  | .round => roundTo args
  | .factorial => single f args factorial
  | .sum => total args
  | .memory => .ok r.memory

def constantValue : Constant → Binary64
  | .pi => pi
  | .e => e
  | .tau => tau

end Registry

end Calculator
