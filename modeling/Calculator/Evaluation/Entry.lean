import Calculator.Text.Units

/-!
The allow-list: every name an expression may use, and what it names.
-/
namespace Calculator

inductive AngleUnit where
  | degrees
  | radians
  deriving DecidableEq

inductive Constant where
  | pi
  | e
  | tau
  deriving DecidableEq

inductive Function where
  | sin
  | cos
  | tan
  | asin
  | acos
  | atan
  | sqrt
  | log
  | log10
  | abs
  | floor
  | ceil
  | round
  | factorial
  | sum
  | memory
  deriving DecidableEq

namespace Function

/-- The name a function gives itself in messages. -/
def spokenName : Function → Text
  | sin => "sin"
  | cos => "cos"
  | tan => "tan"
  | asin => "asin"
  | acos => "acos"
  | atan => "atan"
  | sqrt => "sqrt"
  | log => "log"
  | log10 => "log10"
  | abs => "abs"
  | floor => "floor"
  | ceil => "ceil"
  | round => "round"
  | factorial => "factorial"
  | sum => "sum"
  | memory => "mem"

/-- Fewest and most arguments. -/
def arity : Function → Nat × Nat
  | log => (1, 2)
  | round => (1, 2)
  | sum => (1, 2)
  | memory => (0, 0)
  | _ => (1, 1)

end Function

inductive Entry where
  | constant (c : Constant)
  | function (f : Function)
  deriving DecidableEq

namespace Entry

def isFunction : Entry → Bool
  | constant _ => false
  | function _ => true

/-- All names, in order. -/
def table : List (Text × Entry) :=
  [ ("abs", function .abs),
    ("acos", function .acos),
    ("asin", function .asin),
    ("atan", function .atan),
    ("ceil", function .ceil),
    ("cos", function .cos),
    ("e", constant .e),
    ("fact", function .factorial),
    ("factorial", function .factorial),
    ("floor", function .floor),
    ("log", function .log),
    ("log10", function .log10),
    ("mem", function .memory),
    ("pi", constant .pi),
    ("round", function .round),
    ("sin", function .sin),
    ("sqrt", function .sqrt),
    ("sum", function .sum),
    ("tan", function .tan),
    ("tau", constant .tau) ]

def names : List Text :=
  table.map Prod.fst

def lookup? (name : Text) : Option Entry :=
  table.lookup name

def unitName : AngleUnit → Text
  | .degrees => "degrees"
  | .radians => "radians"

def description (angles : AngleUnit) : Entry → Text
  | constant .pi => "Ratio of a circle's circumference to its diameter."
  | constant .e => "Euler's number."
  | constant .tau => "Two pi."
  | function .sin => "Sine of an angle in " ++ unitName angles ++ "."
  | function .cos => "Cosine of an angle in " ++ unitName angles ++ "."
  | function .tan => "Tangent of an angle in " ++ unitName angles ++ "."
  | function .asin => "Arc sine, in " ++ unitName angles ++ "."
  | function .acos => "Arc cosine, in " ++ unitName angles ++ "."
  | function .atan => "Arc tangent, in " ++ unitName angles ++ "."
  | function .sqrt => "Square root."
  | function .log => "Natural logarithm, or logarithm to the base given as second argument."
  | function .log10 => "Base-10 logarithm."
  | function .abs => "Absolute value."
  | function .floor => "Largest integer not greater than the argument."
  | function .ceil => "Smallest integer not less than the argument."
  | function .round => "Round half to even, optionally to a number of decimal places."
  | function .factorial => "Factorial of the argument truncated to an integer."
  | function .sum => "Sum of a list such as [1, 2, 3], plus an optional start value."
  | function .memory => "Current memory value."

end Entry

end Calculator
