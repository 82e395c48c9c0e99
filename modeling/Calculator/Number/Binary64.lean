/-!
Double-precision numbers as exact values. A finite number is a sign and a magnitude, counted in units
of the least positive number `2 ^ -1074`; results are rounded once, to the nearest representable
magnitude, ties to even. There is one not-a-number.
-/
namespace Calculator

namespace Binary64

/-- The number one, in units of the least positive number. -/
def one : Nat := Nat.pow 2 1074

/-- The first magnitude that is out of range. -/
def limit : Nat := Nat.pow 2 2098

/-- At most 53 significant bits. -/
def Granular (m : Nat) : Prop :=
  Nat.pow 2 (m.log2 - 52) ∣ m

def Representable (m : Nat) : Prop :=
  m < limit ∧ Granular m

instance (m : Nat) : Decidable (Representable m) :=
  inferInstanceAs (Decidable (m < limit ∧ Nat.pow 2 (m.log2 - 52) ∣ m))

end Binary64

inductive Binary64 where
  | nan
  | infinite (negative : Bool)
  | finite (negative : Bool) (magnitude : Nat) (fits : Binary64.Representable magnitude)
  deriving DecidableEq, Inhabited

namespace Binary64

/-- The integer nearest to `num / den`, a tie going to the even one. -/
def nearestEven (num den : Nat) : Nat :=
  if 2 * (num % den) < den then num / den
  else if den < 2 * (num % den) then num / den + 1
  else num / den + num / den % 2

/-- The magnitude of 53 significant bits nearest to `num / den`. -/
def roundRatio (num den : Nat) : Nat :=
  nearestEven num (den * Nat.pow 2 ((num / den).log2 - 52)) * Nat.pow 2 ((num / den).log2 - 52)

theorem nearestEven_le (num den : Nat) : nearestEven num den ≤ num / den + 1 := by
  unfold nearestEven
  split
  · omega
  · split <;> omega

theorem granular_mul_pow (n s : Nat) (bound : n ≤ Nat.pow 2 53) : Granular (n * Nat.pow 2 s) := by
  unfold Granular
  simp only [Nat.pow_eq] at bound ⊢
  by_cases zero : n = 0
  · simp [zero]
  have positive : n * 2 ^ s ≠ 0 := by
    have := Nat.two_pow_pos s
    exact Nat.mul_ne_zero zero (by omega)
  by_cases top : n = 2 ^ 53
  · have power : n * 2 ^ s = 2 ^ (53 + s) := by rw [top, Nat.pow_add]
    rw [power, Nat.log2_two_pow]
    exact Nat.pow_dvd_pow 2 (by omega)
  · have below : n * 2 ^ s < 2 ^ (53 + s) := by
      rw [Nat.pow_add]
      exact Nat.mul_lt_mul_of_pos_right (by omega) (Nat.two_pow_pos s)
    have short := (Nat.log2_lt positive).mpr below
    exact Nat.dvd_trans (Nat.pow_dvd_pow 2 (by omega)) (Nat.dvd_mul_left (2 ^ s) n)

theorem quotient_lt (num den : Nat) :
    num / (den * Nat.pow 2 ((num / den).log2 - 52)) < Nat.pow 2 53 := by
  simp only [Nat.pow_eq]
  rw [← Nat.div_div_eq_div_mul]
  apply (Nat.div_lt_iff_lt_mul (Nat.two_pow_pos _)).mpr
  rw [← Nat.pow_add]
  exact Nat.lt_of_lt_of_le Nat.lt_log2_self (Nat.pow_le_pow_right (by decide) (by omega))

theorem granular_roundRatio (num den : Nat) : Granular (roundRatio num den) :=
  granular_mul_pow _ _ (by
    have := nearestEven_le num (den * Nat.pow 2 ((num / den).log2 - 52))
    have := quotient_lt num den
    omega)

/-- The number nearest to `num / den` units, or an infinity where that is out of range. -/
def round (negative : Bool) (num den : Nat) : Binary64 :=
  if inRange : roundRatio num den < limit then
    .finite negative (roundRatio num den) ⟨inRange, granular_roundRatio num den⟩
  else .infinite negative

def zero : Binary64 := round false 0 1

def negativeZero : Binary64 := round true 0 1

def ofNat (n : Nat) : Binary64 :=
  round false (n * one) 1

instance (n : Nat) : OfNat Binary64 n := ⟨ofNat n⟩

def isNaN : Binary64 → Bool
  | nan => true
  | _ => false

def isFinite : Binary64 → Bool
  | finite .. => true
  | _ => false

def isZero : Binary64 → Bool
  | finite _ m _ => m == 0
  | _ => false

def isNegativeZero : Binary64 → Bool
  | finite s m _ => s && m == 0
  | _ => false

/-- The place of a number on the line, in units; an infinity stands at the first place out of range. -/
def position? : Binary64 → Option Int
  | nan => none
  | infinite s => some (if s then -(limit : Int) else limit)
  | finite s m _ => some (if s then -(m : Int) else m)

/-- Not-a-number is in no order with anything, and the two zeros are equal. -/
def less (x y : Binary64) : Bool :=
  match x.position?, y.position? with
  | some a, some b => decide (a < b)
  | _, _ => false

def equal (x y : Binary64) : Bool :=
  match x.position?, y.position? with
  | some a, some b => decide (a = b)
  | _, _ => false

def lessOrEqual (x y : Binary64) : Bool :=
  less x y || equal x y

def isInteger : Binary64 → Bool
  | finite _ m _ => m % one == 0
  | _ => false

/-- The integer towards zero; zero where there is none. -/
def toInt : Binary64 → Int
  | finite s m _ => if s then -((m / one : Nat) : Int) else (m / one : Nat)
  | _ => 0

end Binary64

end Calculator
