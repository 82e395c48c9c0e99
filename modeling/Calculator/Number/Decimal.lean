import Calculator.Text.Blank
import Calculator.Number.Binary64

/-!
Decimal numerals: digits times a power of ten. Reading one as a double rounds the exact value once;
powers of ten far outside the range are never computed.
-/
namespace Calculator

/-- The number `digits * 10 ^ exponent`. -/
structure Decimal where
  digits : Nat
  exponent : Int
  deriving DecidableEq

namespace Decimal

/-- How many decimal digits a natural number is written with. -/
def width (n : Nat) : Nat :=
  (Nat.toDigits 10 n).length

/-- From `10 ^ 309` up all is out of range, and below `10 ^ -324` nothing is left. -/
def toBinary64 (negative : Bool) (d : Decimal) : Binary64 :=
  if d.digits = 0 then .round negative 0 1
  else if 310 ≤ d.exponent + width d.digits then .infinite negative
  else if d.exponent + width d.digits ≤ -324 then .round negative 0 1
  else if 0 ≤ d.exponent then
    .round negative (d.digits * Nat.pow 10 d.exponent.toNat * Binary64.one) 1
  else .round negative (d.digits * Binary64.one) (Nat.pow 10 (-d.exponent).toNat)

def digitValue (u : CodeUnit) : Nat :=
  u.toNat - 0x30

def ofDigits (t : Text) : Nat :=
  t.foldl (fun n u => 10 * n + digitValue u) 0

/-- The exponent part: nothing, or `e` and an integer with an optional sign. -/
def readExponent? : Text → Option Int
  | [] => some 0
  | u :: rest =>
    if u = 0x65 ∨ u = 0x45 then
      match rest with
      | 0x2D :: ds => if ds ≠ [] ∧ ds.all Text.isDigit then some (-(ofDigits ds : Int)) else none
      | 0x2B :: ds => if ds ≠ [] ∧ ds.all Text.isDigit then some (ofDigits ds) else none
      | ds => if ds ≠ [] ∧ ds.all Text.isDigit then some (ofDigits ds) else none
    else none

/-- Digits with an optional point among them, before or after, and an optional exponent part. -/
def read? (t : Text) : Option Decimal :=
  let whole := t.takeWhile Text.isDigit
  let rest := t.dropWhile Text.isDigit
  let fraction := match rest with
    | 0x2E :: r => r.takeWhile Text.isDigit
    | _ => []
  let rest := match rest with
    | 0x2E :: r => r.dropWhile Text.isDigit
    | r => r
  if whole = [] ∧ fraction = [] then none
  else (readExponent? rest).map fun e => ⟨ofDigits (whole ++ fraction), e - fraction.length⟩

end Decimal

namespace Binary64

def digitInBase? (base : Nat) (u : CodeUnit) : Option Nat :=
  let value :=
    if Text.isDigit u then u.toNat - 0x30
    else if Text.isLower u then u.toNat - 0x61 + 10
    else if Text.isUpper u then u.toNat - 0x41 + 10
    else base
  if value < base then some value else none

/-- A natural number in the given base, at least one digit. -/
def readInBase? (base : Nat) (t : Text) : Option Nat :=
  if t = [] then none
  else t.foldl (fun n u => do return base * (← n) + (← digitInBase? base u)) (some 0)

def readUnsigned? (negative : Bool) (t : Text) : Option Binary64 :=
  if t = "Infinity" then some (infinite negative)
  else (Decimal.read? t).map (·.toBinary64 negative)

/-- Reads a numeral without white space around it: a decimal or `Infinity` with an optional sign, or an
unsigned natural number after `0x`, `0o` or `0b`. -/
def readTrimmed? : Text → Option Binary64
  | 0x2D :: t => readUnsigned? true t
  | 0x2B :: t => readUnsigned? false t
  | 0x30 :: u :: t =>
    if u = 0x78 ∨ u = 0x58 then (readInBase? 16 t).map ofNat
    else if u = 0x6F ∨ u = 0x4F then (readInBase? 8 t).map ofNat
    else if u = 0x62 ∨ u = 0x42 then (readInBase? 2 t).map ofNat
    else readUnsigned? false (0x30 :: u :: t)
  | t => readUnsigned? false t

/-- The number a text denotes, white space around it aside. Nothing at all denotes zero, and anything
that is no numeral is not a number. -/
def ofText (t : Text) : Binary64 :=
  if t.trim = [] then zero else (readTrimmed? t.trim).getD nan

end Binary64

end Calculator
