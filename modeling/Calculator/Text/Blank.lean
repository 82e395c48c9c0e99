import Calculator.Text.Units

/-!
White space in the wide sense: the Unicode space separators, the ASCII controls from tab to carriage
return, the line and paragraph separators and the byte order mark.
-/
namespace Calculator.Text

def isBlank (u : CodeUnit) : Bool :=
  (0x09 ≤ u && u ≤ 0x0D) || u == 0x20 || u == 0xA0 || u == 0x1680 || (0x2000 ≤ u && u ≤ 0x200A)
    || u == 0x2028 || u == 0x2029 || u == 0x202F || u == 0x205F || u == 0x3000 || u == 0xFEFF

def trimStart (t : Text) : Text :=
  t.dropWhile isBlank

def trimEnd (t : Text) : Text :=
  (t.reverse.dropWhile isBlank).reverse

def trim (t : Text) : Text :=
  trimEnd (trimStart t)

def prependToHead (u : CodeUnit) : List Text → List Text
  | [] => [[u]]
  | t :: rest => (u :: t) :: rest

/-- Lines end at a line feed, which takes a carriage return before it along. -/
def splitLines : Text → List Text
  | [] => [[]]
  | 0x0A :: rest => [] :: splitLines rest
  | 0x0D :: 0x0A :: rest => [] :: splitLines rest
  | u :: rest => prependToHead u (splitLines rest)

/-- The parts between maximal runs of white space; a run at an end leaves an empty part there. -/
def splitBlanks : Text → List Text
  | [] => [[]]
  | u :: rest =>
    if isBlank u then
      match rest with
      | v :: _ => if isBlank v then splitBlanks rest else [] :: splitBlanks rest
      | [] => [[], []]
    else prependToHead u (splitBlanks rest)

end Calculator.Text
