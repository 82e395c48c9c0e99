import Calculator.Evaluation.Entry
import Calculator.Evaluation.Value
import Calculator.Expression.Syntax

/-!
Why an expression has no value. A fault is a cause; its kind and its wording are functions of it.
-/
namespace Calculator

inductive ErrorKind where
  | parseError
  | unsupportedExpression
  | unknownName
  | unknownFunction
  | notCallable
  | arityMismatch
  | divisionByZero
  | domainError
  | typeMismatch
  | timeout
  deriving DecidableEq

def ErrorKind.name : ErrorKind → Text
  | parseError => "ParseError"
  | unsupportedExpression => "UnsupportedExpression"
  | unknownName => "UnknownName"
  | unknownFunction => "UnknownFunction"
  | notCallable => "NotCallable"
  | arityMismatch => "ArityMismatch"
  | divisionByZero => "DivisionByZero"
  | domainError => "DomainError"
  | typeMismatch => "TypeMismatch"
  | timeout => "Timeout"

/-- What produced a result that is no finite number. -/
inductive Origin where
  | operator (op : BinaryOp)
  | call (callee : Text)
  deriving DecidableEq

def Origin.describe : Origin → Text
  | operator op => "Result of '" ++ op.symbol ++ "'"
  | call callee => "Result of " ++ callee ++ "()"

inductive Fault where
  | unsupported (kind : Text)
  | operatorNotAllowed (symbol : Text)
  | signNotAllowed (symbol : Text)
  | operandIsList (op : BinaryOp) (items : Nat)
  | signedList (op : UnaryOp) (items : Nat)
  | valueIsList (items : Nat)
  | undefined (origin : Origin)
  | outOfRange (origin : Origin)
  | divisionByZero
  | floorDivisionByZero
  | moduloByZero
  | zeroToNegativePower
  | fractionalPowerOfNegative
  | unknownName (name : Text)
  | functionAsName (name : Text)
  | unknownFunction (name : Text)
  | notCallable (name : Text)
  | arity (callee : Text) (fewest most given : Nat)
  | argumentIsList (f : Function) (items : Nat)
  | missingArgument (f : Function) (index : Nat)
  | sumOfNumber
  | sumItemIsList (items : Nat)
  | outsideUnitInterval (f : Function)
  | negativeRadicand
  | notPositive (f : Function)
  | baseNotPositive
  | baseOne
  | placesNotInteger
  | negativeFactorial
  | factorialTooLarge
  deriving DecidableEq

namespace Fault

def kind : Fault → ErrorKind
  | unsupported _ => .unsupportedExpression
  | operatorNotAllowed _ => .unsupportedExpression
  | signNotAllowed _ => .unsupportedExpression
  | operandIsList .. => .typeMismatch
  | signedList .. => .typeMismatch
  | valueIsList _ => .typeMismatch
  | undefined _ => .domainError
  | outOfRange _ => .domainError
  | divisionByZero => .divisionByZero
  | floorDivisionByZero => .divisionByZero
  | moduloByZero => .divisionByZero
  | zeroToNegativePower => .divisionByZero
  | fractionalPowerOfNegative => .domainError
  | unknownName _ => .unknownName
  | functionAsName _ => .unknownName
  | unknownFunction _ => .unknownFunction
  | notCallable _ => .notCallable
  | arity .. => .arityMismatch
  | argumentIsList .. => .typeMismatch
  | missingArgument .. => .arityMismatch
  | sumOfNumber => .typeMismatch
  | sumItemIsList _ => .typeMismatch
  | outsideUnitInterval _ => .domainError
  | negativeRadicand => .domainError
  | notPositive _ => .domainError
  | baseNotPositive => .domainError
  | baseOne => .divisionByZero
  | placesNotInteger => .typeMismatch
  | negativeFactorial => .domainError
  | factorialTooLarge => .domainError

def expectedArguments (fewest most : Nat) : Text :=
  if fewest = most then Text.ofNat fewest else Text.ofNat fewest ++ " to " ++ Text.ofNat most

def message : Fault → Text
  | unsupported kind => "Unsupported expression: " ++ kind
  | operatorNotAllowed symbol => "Operator not allowed: " ++ symbol
  | signNotAllowed symbol => "Unary operator not allowed: " ++ symbol
  | operandIsList op items =>
    "Operator '" ++ op.symbol ++ "' needs a number, got " ++ Value.describeList items
  | signedList op items =>
    "Unary '" ++ op.symbol ++ "' needs a number, got " ++ Value.describeList items
  | valueIsList items => "Expression must produce a number, got " ++ Value.describeList items
  | undefined origin => origin.describe ++ " is undefined"
  | outOfRange origin => origin.describe ++ " is out of range"
  | divisionByZero => "Division by zero"
  | floorDivisionByZero => "Floor division by zero"
  | moduloByZero => "Modulo by zero"
  | zeroToNegativePower => "Zero cannot be raised to a negative power"
  | fractionalPowerOfNegative => "Negative base with a fractional exponent has no real result"
  | unknownName name => "Unknown name: '" ++ name ++ "'"
  | functionAsName name =>
    "Name '" ++ name ++ "' is a function and must be called, e.g. " ++ name ++ "(...)"
  | unknownFunction name => "Unknown function: '" ++ name ++ "'"
  | notCallable name => "'" ++ name ++ "' is a constant and cannot be called"
  | arity callee fewest most given =>
    callee ++ "() takes " ++ expectedArguments fewest most ++ " argument"
      ++ (if most = 1 then "" else "s") ++ ", got " ++ Text.ofNat given
  | argumentIsList f items => f.spokenName ++ "() expects a number, got " ++ Value.describeList items
  | missingArgument f index => f.spokenName ++ "(): argument " ++ Text.ofNat index ++ " is missing"
  | sumOfNumber => "sum() expects a list, got number"
  | sumItemIsList items => "sum() list items must be numbers, got " ++ Value.describeList items
  | outsideUnitInterval f => f.spokenName ++ "(): argument must be between -1 and 1"
  | negativeRadicand => "sqrt(): argument must not be negative"
  | notPositive f => f.spokenName ++ "(): argument must be positive"
  | baseNotPositive => "log(): base must be positive"
  | baseOne => "log(): base 1 divides by zero"
  | placesNotInteger => "round(): number of decimal places must be an integer"
  | negativeFactorial => "factorial(): not defined for negative values"
  | factorialTooLarge => "factorial(): result too large"

end Fault

end Calculator
