/-!
Text as UTF-16 code units. Every offset, span and column of this library counts these units, and one
half of a surrogate pair may stand alone.
-/
namespace Calculator

abbrev CodeUnit := UInt16

abbrev Text := List CodeUnit

namespace Text

/-- One unit up to U+FFFF, otherwise a high half and a low half. -/
def ofChar (c : Char) : Text :=
  if c.val < 0x10000 then [c.val.toUInt16]
  else [(0xD800 + (c.val - 0x10000) / 0x400).toUInt16, (0xDC00 + (c.val - 0x10000) % 0x400).toUInt16]

def ofString (s : String) : Text :=
  s.toList.flatMap ofChar

instance : Coe String Text := ⟨ofString⟩

/-- The unit of a character up to U+FFFF. -/
def code (c : Char) : CodeUnit :=
  c.val.toUInt16

/-- Decimal digits of a natural number. -/
def ofNat (n : Nat) : Text :=
  (Nat.toDigits 10 n).flatMap ofChar

def isHighHalf (u : CodeUnit) : Bool :=
  0xD800 ≤ u && u < 0xDC00

def isLowHalf (u : CodeUnit) : Bool :=
  0xDC00 ≤ u && u < 0xE000

def isHalf (u : CodeUnit) : Bool :=
  0xD800 ≤ u && u < 0xE000

/-- The character a high and a low half stand for together. -/
def joinHalves (high low : CodeUnit) : Char :=
  Char.ofNat (0x10000 + (high.toNat - 0xD800) * 0x400 + (low.toNat - 0xDC00))

/-- The characters of a text; `lone` spells a half that has no partner. -/
def toChars (lone : CodeUnit → List Char) : Text → List Char
  | [] => []
  | [u] => if isHalf u then lone u else [Char.ofNat u.toNat]
  | u :: v :: rest =>
    if isHighHalf u && isLowHalf v then joinHalves u v :: toChars lone rest
    else (if isHalf u then lone u else [Char.ofNat u.toNat]) ++ toChars lone (v :: rest)

/-- The bytes of UTF-8 have no form for a lone half, which becomes U+FFFD. -/
def toString (t : Text) : String :=
  String.ofList (t.toChars fun _ => [Char.ofNat 0xFFFD])

/-- Joins texts with a separator between neighbours. -/
def join (separator : Text) : List Text → Text
  | [] => []
  | [t] => t
  | t :: rest => t ++ separator ++ join separator rest

def isDigit (u : CodeUnit) : Bool :=
  0x30 ≤ u && u ≤ 0x39

def isLower (u : CodeUnit) : Bool :=
  0x61 ≤ u && u ≤ 0x7A

def isUpper (u : CodeUnit) : Bool :=
  0x41 ≤ u && u ≤ 0x5A

def isLetter (u : CodeUnit) : Bool :=
  isLower u || isUpper u

/-- ASCII letters, digits and the underscore. -/
def isWordUnit (u : CodeUnit) : Bool :=
  isLetter u || isDigit u || u == 0x5F

/-- The order of code units, first difference first. -/
def lessOrEqual : Text → Text → Bool
  | [], _ => true
  | _ :: _, [] => false
  | u :: s, v :: t => u < v || (u == v && lessOrEqual s t)

/-- A byte order mark at the very front is no part of the content. -/
def stripByteOrderMark : Text → Text
  | 0xFEFF :: rest => rest
  | t => t

end Text

end Calculator
