import Calculator.Text.Units

/-!
What is done to a text before it is read: a caret is a power sign, and the bare name `mem` is a call.
-/
namespace Calculator

namespace Normalize

def caret : Text → Text
  | [] => []
  | u :: rest => if u = 0x5E then 0x2A :: 0x2A :: caret rest else u :: caret rest

/-- Whether a text goes on, after spaces and tabs, with an opening parenthesis. -/
def opensCall : Text → Bool
  | [] => false
  | u :: rest => if u = 0x20 ∨ u = 0x09 then opensCall rest else u == 0x28

def startsWithWordUnit : Text → Bool
  | [] => false
  | u :: _ => Text.isWordUnit u

/-- Completes each bare `mem` to `mem()`. A word unit on either side makes it part of another name;
`inWord` says whether one stands before the text. -/
def memoryFrom (inWord : Bool) : Text → Text
  | 0x6D :: 0x65 :: 0x6D :: rest =>
    if inWord || startsWithWordUnit rest then
      0x6D :: memoryFrom true (0x65 :: 0x6D :: rest)
    else 0x6D :: 0x65 :: 0x6D :: ((if opensCall rest then [] else [0x28, 0x29]) ++ memoryFrom true rest)
  | u :: rest => u :: memoryFrom (Text.isWordUnit u) rest
  | [] => []

def memory (t : Text) : Text :=
  memoryFrom false t

end Normalize

def normalize (t : Text) : Text :=
  Normalize.memory (Normalize.caret t)

end Calculator
