import Calculator.Number.Decimal
import Calculator.Number.Display

/-!
What a scalar can be: nothing, a truth value, a number, a text or a value of some other kind; and which
plain scalars are one of the first three.
-/
namespace Calculator.Yaml

inductive Scalar where
  | null
  | bool (b : Bool)
  | number (x : Binary64)
  | text (t : Text)
  /-- A value of another kind, written as the given text. No two of them are the same key. -/
  | data (t : Text)

namespace Scalar

/-- The text a scalar has as a key. -/
def keyText : Scalar → Text
  | null => "null"
  | bool b => if b then "true" else "false"
  | number x => x.toText
  | text t => t
  | data t => t

/-- Whether two keys are one: numbers by value, and not-a-number is no key but itself. -/
def sameKey : Scalar → Scalar → Bool
  | null, null => true
  | bool a, bool b => a == b
  | number x, number y => x.equal y
  | text s, text t => s == t
  | _, _ => false

/-- The same key, where not-a-number is one with itself. -/
def repeats (s t : Scalar) : Bool :=
  match s, t with
  | number x, number y => x.equal y || (x.isNaN && y.isNaN)
  | _, _ => s.sameKey t

def readNull (t : Text) : Option Scalar :=
  if t ∈ ([("" : Text), "~", "null", "Null", "NULL"] : List Text) then some null else none

def readBool (t : Text) : Option Scalar :=
  if t ∈ ([("true" : Text), "True", "TRUE"] : List Text) then some (bool true)
  else if t ∈ ([("false" : Text), "False", "FALSE"] : List Text) then some (bool false)
  else none

/-- A sign, if there is one, and the rest. -/
def splitSign : Text → Bool × Text
  | 0x2B :: rest => (false, rest)
  | 0x2D :: rest => (true, rest)
  | t => (false, t)

def isHexUnit (u : CodeUnit) : Bool :=
  Text.isDigit u || (0x41 ≤ u && u ≤ 0x46) || (0x61 ≤ u && u ≤ 0x66)

/-- Decimal with or without a sign; octal behind `0o` and hexadecimal behind `0x` without. -/
def isInt (t : Text) : Bool :=
  match t with
  | 0x30 :: 0x6F :: digits => digits != [] && digits.all fun u => 0x30 ≤ u && u ≤ 0x37
  | 0x30 :: 0x78 :: digits => digits != [] && digits.all isHexUnit
  | _ =>
    let digits := (splitSign t).2
    digits != [] && digits.all Text.isDigit

def readInt (t : Text) : Option Scalar :=
  if isInt t then some (number (.ofText t)) else none

def isExponent (t : Text) : Bool :=
  match t with
  | e :: rest =>
    let digits := (splitSign rest).2
    (e == 0x65 || e == 0x45) && digits != [] && digits.all Text.isDigit
  | [] => false

/-- A decimal with a point or an exponent, and a digit before it. -/
def isFloat (t : Text) : Bool :=
  let t := (splitSign t).2
  let whole := t.takeWhile Text.isDigit
  match t.dropWhile Text.isDigit with
  | 0x2E :: rest =>
    let exponent := rest.dropWhile Text.isDigit
    (whole != [] || rest.takeWhile Text.isDigit != []) && (exponent == [] || isExponent exponent)
  | rest => whole != [] && isExponent rest

/-- The infinite numbers and the value that is not a number. -/
def readSpecial (t : Text) : Option Scalar :=
  let (negative, rest) := splitSign t
  if rest ∈ ([(".inf" : Text), ".Inf", ".INF"] : List Text) then some (number (.infinite negative))
  else if t ∈ ([(".nan" : Text), ".NaN", ".NAN"] : List Text) then some (number .nan)
  else none

def readFloat (t : Text) : Option Scalar :=
  match readSpecial t with
  | some x => some x
  | none => if isFloat t then some (number (.ofText t)) else none

/-- The kinds of plain scalars, each with its tag. -/
def readers : List (Text × (Text → Option Scalar)) :=
  [("null", readNull), ("bool", readBool), ("int", readInt), ("float", readFloat)]

end Scalar

end Calculator.Yaml
