import Calculator.Number.Binary64
import Calculator.Expression.Token

/-!
Expression trees. Reading a text yields only the operators of the language; a tree built by hand may
also hold operators and nodes that the language does not have, which evaluation refuses.
-/
namespace Calculator

inductive BinaryOp where
  | known (op : Operator)
  | other (symbol : Text)
  deriving DecidableEq

def BinaryOp.symbol : BinaryOp → Text
  | known op => op.symbol
  | other t => t

def BinaryOp.ofSymbol (t : Text) : BinaryOp :=
  match Operator.ofSymbol? t with
  | some op => known op
  | none => other t

inductive UnaryOp where
  | plus
  | minus
  | other (symbol : Text)
  deriving DecidableEq

def UnaryOp.symbol : UnaryOp → Text
  | plus => "+"
  | minus => "-"
  | other t => t

def UnaryOp.ofSymbol (t : Text) : UnaryOp :=
  if t = "+" then plus else if t = "-" then minus else other t

inductive Expr where
  | number (value : Binary64) (raw : Text) (range : Span)
  | name (text : Text) (range : Span)
  | unary (op : UnaryOp) (operand : Expr) (range : Span)
  | binary (op : BinaryOp) (left right : Expr) (range : Span)
  | call (callee : Text) (args : List Expr) (range : Span)
  | list (elements : List Expr) (range : Span)
  | foreign (kind : Text) (range : Span)
  deriving Inhabited

namespace Expr

def range : Expr → Span
  | number _ _ r => r
  | name _ r => r
  | unary _ _ r => r
  | binary _ _ _ r => r
  | call _ _ r => r
  | list _ r => r
  | foreign _ r => r

mutual

/-- Nodes on the longest way down; a leaf has depth one. -/
def depth : Expr → Nat
  | number .. => 1
  | name .. => 1
  | unary _ operand _ => 1 + depth operand
  | binary _ left right _ => 1 + max (depth left) (depth right)
  | call _ args _ => 1 + depthAll args
  | list elements _ => 1 + depthAll elements
  | foreign .. => 1

def depthAll : List Expr → Nat
  | [] => 0
  | e :: rest => max (depth e) (depthAll rest)

end

end Expr

end Calculator
