/-!
A stretch of a text, from the offset of its first unit up to the offset behind its last.
-/
namespace Calculator

structure Span where
  start : Nat
  stop : Nat
  deriving DecidableEq, Inhabited

end Calculator
