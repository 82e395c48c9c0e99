import Calculator.Text.Units
import Calculator.Text.Span

/-!
The words an expression is made of.
-/
namespace Calculator

inductive Operator where
  | power
  | floorDivide
  | times
  | divide
  | modulo
  | plus
  | minus
  deriving DecidableEq

namespace Operator

def symbol : Operator → Text
  | power => "**"
  | floorDivide => "//"
  | times => "*"
  | divide => "/"
  | modulo => "%"
  | plus => "+"
  | minus => "-"

def all : List Operator :=
  [power, floorDivide, times, divide, modulo, plus, minus]

def ofSymbol? (t : Text) : Option Operator :=
  all.find? fun op => op.symbol == t

/-- How tightly an operator binds. A sign stands between the products and the power. -/
def level : Operator → Nat
  | plus => 1
  | minus => 1
  | times => 2
  | divide => 2
  | modulo => 2
  | floorDivide => 2
  | power => 4

/-- The level at which a sign binds its operand. -/
def signLevel : Nat := 3

/-- The least level an operator leaves to its right operand: the power groups to the right and may
be followed by a sign, all others group to the left. -/
def rightLevel : Operator → Nat
  | power => signLevel
  | op => op.level + 1

end Operator

inductive Lexeme where
  | number (raw : Text)
  | name (text : Text)
  | operator (op : Operator)
  | leftParen
  | rightParen
  | leftBracket
  | rightBracket
  | comma
  deriving DecidableEq

namespace Lexeme

def text : Lexeme → Text
  | number raw => raw
  | name t => t
  | operator op => op.symbol
  | leftParen => "("
  | rightParen => ")"
  | leftBracket => "["
  | rightBracket => "]"
  | comma => ","

/-- A word as messages quote it. -/
def describe : Lexeme → Text
  | number raw => "number '" ++ raw ++ "'"
  | name t => "name '" ++ t ++ "'"
  | operator op => "operator '" ++ op.symbol ++ "'"
  | other => "'" ++ other.text ++ "'"

end Lexeme

structure Token where
  lexeme : Lexeme
  range : Span
  deriving DecidableEq

end Calculator
