import Calculator.Number.Binary64
import Calculator.Text.Units

/-!
What a part of an expression evaluates to. Only a number may be the value of a whole expression.
-/
namespace Calculator

inductive Value where
  | number (value : Binary64)
  | list (items : List Value)
  deriving Inhabited

namespace Value

def isNumber : Value → Bool
  | number _ => true
  | list _ => false

def isList : Value → Bool
  | number _ => false
  | list _ => true

def describeList (count : Nat) : Text :=
  "list of " ++ Text.ofNat count

def describe : Value → Text
  | number _ => "number"
  | list items => describeList items.length

end Value

end Calculator
