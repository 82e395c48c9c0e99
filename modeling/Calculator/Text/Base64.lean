import Calculator.Text.Units

/-!
Base64: four characters for three bytes. Reading is lenient: an equals sign ends the text, characters
outside of the alphabet are passed over, and padding may be left out.
-/
namespace Calculator.Base64

/-- Only the low byte of a unit counts. -/
def lowByte (u : CodeUnit) : CodeUnit :=
  u % 0x100

/-- The six bits of a character; `-` and `_` stand for `+` and `/`. -/
def sextet? (u : CodeUnit) : Option Nat :=
  let c := lowByte u
  if Text.isUpper c then some (c.toNat - 0x41)
  else if Text.isLower c then some (c.toNat - 0x61 + 26)
  else if Text.isDigit c then some (c.toNat - 0x30 + 52)
  else if c = Text.code '+' ∨ c = Text.code '-' then some 62
  else if c = Text.code '/' ∨ c = Text.code '_' then some 63
  else none

/-- A byte for each eight bits. -/
def bytes : List Nat → List UInt8
  | a :: b :: c :: d :: rest =>
    (a * 4 + b / 16).toUInt8 :: (b % 16 * 16 + c / 4).toUInt8 :: (c % 4 * 64 + d).toUInt8 :: bytes rest
  | [a, b, c] => [(a * 4 + b / 16).toUInt8, (b % 16 * 16 + c / 4).toUInt8]
  | [a, b] => [(a * 4 + b / 16).toUInt8]
  | _ => []

def decode (t : Text) : List UInt8 :=
  bytes ((t.takeWhile fun u => lowByte u != Text.code '=').filterMap sextet?)

end Calculator.Base64
