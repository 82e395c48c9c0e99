import Calculator.Number.Elementary

/-!
Rounding to decimal places, a half going to the even neighbour.
-/
namespace Calculator.Binary64

/-- The integer nearest to a number, seen from the integer below it. -/
def roundHalfEven (x : Binary64) : Binary64 :=
  let low := x.floor
  let excess := x - low
  if less half excess then low + 1
  else if less excess half then low
  else if (low.rem 2).isZero then low
  else low + 1

/-- Ten to a natural power. Its last place is the platform's; that it is positive, and in range up to the
308th power and no farther, does not depend on the platform. -/
def powerOfTen (n : Nat) : Binary64 :=
  if 308 < n then infinite false
  else
    let power := pow 10 (ofNat n)
    if power.isFinite && less 0 power then power else round false (Nat.pow 10 n * one) 1

/-- Rounds to `places` decimal places, or to a power of ten where `places` is negative. A power that
is out of range leaves the number as it is, or nothing of it; so does a product out of range. -/
def roundPlaces (x : Binary64) (places : Int) : Binary64 :=
  let factor := powerOfTen places.natAbs
  if !factor.isFinite then if 0 < places then x else zero
  else
    let scaled := if 0 ≤ places then x * factor else x / factor
    if !scaled.isFinite then x
    else
      let rounded := scaled.roundHalfEven
      let result := if 0 ≤ places then rounded / factor else rounded * factor
      if result.isZero then zero else result

end Calculator.Binary64
