import Calculator.Number.Arithmetic

/-!
Elementary functions. The platform's double-precision library computes them; this module is the border
to it, and states the cases at infinity that the calculator relies on itself.
-/
namespace Calculator.Binary64

/-- The 64-bit word of a number: sign, exponent field and fraction. -/
def toBits : Binary64 → UInt64
  | nan => 0x7FF8000000000000
  | infinite s => if s then 0xFFF0000000000000 else 0x7FF0000000000000
  | finite s m _ =>
    let shift := m.log2 - 52
    let hidden := Nat.pow 2 52
    let body := if m < hidden then m else (shift + 1) * hidden + (m / Nat.pow 2 shift - hidden)
    (if s then 0x8000000000000000 else 0) + body.toUInt64

def ofBits (word : UInt64) : Binary64 :=
  let negative := Nat.pow 2 63 ≤ word.toNat
  let field := word.toNat / Nat.pow 2 52 % Nat.pow 2 11
  let fraction := word.toNat % Nat.pow 2 52
  if field = 2047 then if fraction = 0 then infinite negative else nan
  else if field = 0 then round negative fraction 1
  else round negative ((Nat.pow 2 52 + fraction) * Nat.pow 2 (field - 1)) 1

/-- A function of the platform's library; what is not a number stays so. -/
def viaFloat (f : Float → Float) : Binary64 → Binary64
  | nan => nan
  | x => ofBits (f (Float.ofBits x.toBits)).toBits

/-- A periodic function has no value at infinity. -/
def periodic (f : Float → Float) : Binary64 → Binary64
  | infinite _ => nan
  | x => viaFloat f x

def sin (x : Binary64) : Binary64 := periodic Float.sin x
def cos (x : Binary64) : Binary64 := periodic Float.cos x
def tan (x : Binary64) : Binary64 := periodic Float.tan x
def asin (x : Binary64) : Binary64 := viaFloat Float.asin x
def acos (x : Binary64) : Binary64 := viaFloat Float.acos x
def atan (x : Binary64) : Binary64 := viaFloat Float.atan x
def sqrt (x : Binary64) : Binary64 := viaFloat Float.sqrt x
def log (x : Binary64) : Binary64 := viaFloat Float.log x
def log10 (x : Binary64) : Binary64 := viaFloat Float.log10 x

/-- The power function: anything to the zeroth power is one, and a base of magnitude one has no
infinite power. -/
def pow (base exponent : Binary64) : Binary64 :=
  match exponent with
  | nan => nan
  | infinite s =>
    if equal base.abs 1 then nan
    else ofBits (Float.pow (Float.ofBits base.toBits) (Float.ofBits (infinite s).toBits)).toBits
  | finite s m fits =>
    if m = 0 then 1
    else ofBits (Float.pow (Float.ofBits base.toBits) (Float.ofBits (finite s m fits).toBits)).toBits

/-- The ratio of a circle's circumference to its diameter, rounded. -/
def pi : Binary64 := round false (884279719003555 * one) (Nat.pow 2 48)

/-- The base of the natural logarithm, rounded. -/
def e : Binary64 := round false (6121026514868073 * one) (Nat.pow 2 51)

def tau : Binary64 := 2 * pi

end Calculator.Binary64
