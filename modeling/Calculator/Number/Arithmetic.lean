import Calculator.Number.Binary64

/-!
The field operations, remainder and integer parts. Each computes the exact result in natural numbers
and rounds it once.
-/
namespace Calculator.Binary64

def neg : Binary64 → Binary64
  | nan => nan
  | infinite s => infinite (!s)
  | finite s m fits => finite (!s) m fits

def abs : Binary64 → Binary64
  | nan => nan
  | infinite _ => infinite false
  | finite _ m fits => finite false m fits

/-- Opposite infinities have no sum; opposite equal magnitudes cancel to the positive zero. -/
def add : Binary64 → Binary64 → Binary64
  | nan, _ => nan
  | _, nan => nan
  | infinite s, infinite t => if s = t then infinite s else nan
  | infinite s, finite .. => infinite s
  | finite .., infinite t => infinite t
  | finite s a _, finite t b _ =>
    if s = t then round s (a + b) 1
    else if a = b then zero
    else if b < a then round s (a - b) 1
    else round t (b - a) 1

def sub (x y : Binary64) : Binary64 :=
  add x (neg y)

def mul : Binary64 → Binary64 → Binary64
  | nan, _ => nan
  | _, nan => nan
  | infinite s, infinite t => infinite (s ^^ t)
  | infinite s, finite t b _ => if b = 0 then nan else infinite (s ^^ t)
  | finite s a _, infinite t => if a = 0 then nan else infinite (s ^^ t)
  | finite s a _, finite t b _ => round (s ^^ t) (a * b) one

def div : Binary64 → Binary64 → Binary64
  | nan, _ => nan
  | _, nan => nan
  | infinite _, infinite _ => nan
  | infinite s, finite t _ _ => infinite (s ^^ t)
  | finite s _ _, infinite t => round (s ^^ t) 0 1
  | finite s a _, finite t b _ =>
    if b = 0 then if a = 0 then nan else infinite (s ^^ t)
    else round (s ^^ t) (a * one) b

/-- What truncating division leaves over; it has the sign of the dividend. -/
def rem : Binary64 → Binary64 → Binary64
  | nan, _ => nan
  | _, nan => nan
  | infinite _, _ => nan
  | finite s a fits, infinite _ => finite s a fits
  | finite s a _, finite _ b _ => if b = 0 then nan else round s (a % b) 1

/-- The integer towards zero; the sign stays, also on zero. -/
def truncate : Binary64 → Binary64
  | finite s m _ => round s (m / one * one) 1
  | x => x

/-- The whole number of ones that the magnitude begins, one more unless it is whole. -/
def awayFromZero : Binary64 → Binary64
  | finite s m fits => if m % one = 0 then finite s m fits else round s ((m / one + 1) * one) 1
  | x => x

def isNegative : Binary64 → Bool
  | nan => false
  | infinite s => s
  | finite s _ _ => s

def floor (x : Binary64) : Binary64 :=
  if x.isNegative then awayFromZero x else truncate x

def ceil (x : Binary64) : Binary64 :=
  if x.isNegative then truncate x else awayFromZero x

/-- Half of one. -/
def half : Binary64 := round false one 2

instance : Neg Binary64 := ⟨neg⟩
instance : Add Binary64 := ⟨add⟩
instance : Sub Binary64 := ⟨sub⟩
instance : Mul Binary64 := ⟨mul⟩
instance : Div Binary64 := ⟨div⟩

end Calculator.Binary64
