import Calculator.Number.Decimal

/-!
The shortest decimal that reads back as a given number. On each grid of decimals only the two
neighbours of the value can be nearest to it, so these are the candidates; of two that read back the
nearer wins, and the even one on a tie.
-/
namespace Calculator.Shortest

/-- The least `e` for which a value of `m > 0` units is below `10 ^ e`. -/
def decimalPoint (m : Nat) : Int :=
  if Binary64.one ≤ m then Decimal.width (m / Binary64.one)
  else 1 - Decimal.width ((Binary64.one - 1) / m)

/-- The value of `m` units as a fraction of the grid step `10 ^ step`. -/
def onGrid (m : Nat) (step : Int) : Nat × Nat :=
  if 0 ≤ step then (m, Binary64.one * Nat.pow 10 step.toNat)
  else (m * Nat.pow 10 (-step).toNat, Binary64.one)

def readsBack (m : Nat) (d : Decimal) : Bool :=
  match d.toBinary64 false with
  | .finite _ n _ => n == m
  | _ => false

/-- The neighbour of the value on the grid `10 ^ step` that reads back, if one does. -/
def onGrid? (m : Nat) (step : Int) : Option Decimal :=
  let (num, den) := onGrid m step
  let lower := num / den
  let upper := lower + 1
  match readsBack m ⟨lower, step⟩, readsBack m ⟨upper, step⟩ with
  | true, true =>
    if 2 * (num % den) < den then some ⟨lower, step⟩
    else if den < 2 * (num % den) then some ⟨upper, step⟩
    else some ⟨if lower % 2 = 0 then lower else upper, step⟩
  | true, false => some ⟨lower, step⟩
  | false, true => some ⟨upper, step⟩
  | false, false => none

/-- All digits of the value, however many there are. -/
def exact (m : Nat) : Decimal :=
  ⟨m * Nat.pow 5 1074, -1074⟩

def stripZeros : Nat → Decimal → Decimal
  | 0, d => d
  | fuel + 1, d =>
    if d.digits ≠ 0 ∧ d.digits % 10 = 0 then stripZeros fuel ⟨d.digits / 10, d.exponent + 1⟩ else d

/-- The fewest digits that read back, without trailing zeros. -/
def digits (m : Nat) : Decimal :=
  let point := decimalPoint m
  let found := (List.range 17).findSome? fun (n : Nat) => onGrid? m (point - (n + 1))
  let d := found.getD (exact m)
  stripZeros (Decimal.width d.digits) d

end Calculator.Shortest
