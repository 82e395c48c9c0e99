import Calculator.Text.Units

/-!
Reading bytes as UTF-8. A beginning of a character that does not go on becomes one U+FFFD, and so does
each byte that begins none.
-/
namespace Calculator.Utf8

/-- A character whose first bytes are read: its bits so far, how many bytes are missing, and the bounds of
the next one. -/
structure Pending where
  bits : Nat
  missing : Nat
  low : Nat := 0x80
  high : Nat := 0xBF

/-- The bounds of the second byte leave out longer forms than needed, halves of surrogate pairs and what
lies beyond U+10FFFF. -/
def pending? (first : Nat) : Option Pending :=
  if 0xC2 ≤ first ∧ first ≤ 0xDF then some { bits := first - 0xC0, missing := 1 }
  else if first = 0xE0 then some { bits := 0, missing := 2, low := 0xA0 }
  else if first = 0xED then some { bits := 0xD, missing := 2, high := 0x9F }
  else if 0xE1 ≤ first ∧ first ≤ 0xEF then some { bits := first - 0xE0, missing := 2 }
  else if first = 0xF0 then some { bits := 0, missing := 3, low := 0x90 }
  else if first = 0xF4 then some { bits := 4, missing := 3, high := 0x8F }
  else if 0xF1 ≤ first ∧ first ≤ 0xF3 then some { bits := first - 0xF0, missing := 3 }
  else none

/-- Reads a byte between characters. -/
def readFirst (b : Nat) : Text × Option Pending :=
  if b < 0x80 then ([b.toUInt16], none)
  else
    match pending? b with
    | some p => ([], some p)
    | none => ([0xFFFD], none)

/-- Reads a byte, and says what it completes and what stays open. -/
def readByte (open? : Option Pending) (b : Nat) : Text × Option Pending :=
  match open? with
  | none => readFirst b
  | some p =>
    if p.low ≤ b ∧ b ≤ p.high then
      let bits := p.bits * 0x40 + (b - 0x80)
      if p.missing = 1 then (Text.ofChar (Char.ofNat bits), none)
      else ([], some { bits := bits, missing := p.missing - 1 })
    else
      let (t, rest) := readFirst b
      (0xFFFD :: t, rest)

def decodeFrom (open? : Option Pending) : List UInt8 → Text
  | [] => if open?.isSome then [0xFFFD] else []
  | b :: rest =>
    let (t, next) := readByte open? b.toNat
    t ++ decodeFrom next rest

def decode (bytes : List UInt8) : Text :=
  decodeFrom none bytes

end Calculator.Utf8
