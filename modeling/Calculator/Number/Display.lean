import Calculator.Number.Shortest

/-!
How numbers are written: the shortest digits that read back, positional from one millionth up to
below `10 ^ 21` and with an exponent elsewhere. Rounding to a number of significant digits works on
the exact value, a tie going away from zero.
-/
namespace Calculator

/-- The decimal points, counted from the first digit, between which no exponent is written. -/
structure Positional where
  lowest : Int
  highest : Int

def Decimal.positional : Positional := ⟨-5, 21⟩

namespace Decimal

def zeros (n : Nat) : Text :=
  List.replicate n 0x30

/-- Lays out digits without trailing zeros; `point` is where the decimal point stands, counted from
the first digit. -/
def layout (digits : Text) (point : Int) : Text :=
  if point < positional.lowest ∨ positional.highest < point then
    let fraction : Text := if digits.length ≤ 1 then [] else 0x2E :: digits.drop 1
    let sign : Text := if 0 ≤ point - 1 then "+" else "-"
    digits.take 1 ++ fraction ++ "e" ++ sign ++ Text.ofNat (point - 1).natAbs
  else if point ≤ 0 then "0." ++ zeros (-point).toNat ++ digits
  else if digits.length ≤ point.toNat then digits ++ zeros (point.toNat - digits.length)
  else digits.take point.toNat ++ "." ++ digits.drop point.toNat

end Decimal

namespace Binary64

/-- The shortest text that reads back as the number; both zeros are `0`. -/
def toText : Binary64 → Text
  | nan => "NaN"
  | infinite s => if s then "-Infinity" else "Infinity"
  | finite s m _ =>
    if m = 0 then "0"
    else
      let d := Shortest.digits m
      let digits := Text.ofNat d.digits
      (if s then "-" else "") ++ Decimal.layout digits (d.exponent + digits.length)

/-- The decimal of `places` significant digits nearest to `m` units, a tie going up. -/
def significant (m places : Nat) : Decimal :=
  let step := Shortest.decimalPoint m - places
  let (num, den) := Shortest.onGrid m step
  ⟨(2 * num + den) / (2 * den), step⟩

inductive DisplayError where
  | places
  deriving DecidableEq

def DisplayError.message : DisplayError → Text
  | .places => "toPrecision() argument must be between 1 and 100"

/-- The number read back from its decimal of `places` significant digits. The number of places is
only looked at where there are digits to count. -/
def roundSignificant (places : Int) : Binary64 → Except DisplayError Binary64
  | nan => .ok nan
  | infinite s => .ok (infinite s)
  | finite s m fits =>
    if places < 1 ∨ 100 < places then .error .places
    else if m = 0 then .ok (finite s m fits)
    else .ok ((significant m places.toNat).toBinary64 s)

/-- A result as it is shown, rounded to `places` significant digits where given. -/
def display (x : Binary64) (places : Option Int) : Except DisplayError Text :=
  match places with
  | none => .ok x.toText
  | some p => (roundSignificant p x).map toText

/-- The decimal with two places after the point that is nearest to the number, a tie going up. -/
def toHundredths (x : Binary64) : Text :=
  match x with
  | finite s m _ =>
    let n := (2 * (m * 100) + one) / (2 * one)
    let cents := n % 100
    (if s && m ≠ 0 then "-" else "") ++ Text.ofNat (n / 100) ++ "."
      ++ (if cents < 10 then "0" else "") ++ Text.ofNat cents
  | x => x.toText

end Binary64

end Calculator
