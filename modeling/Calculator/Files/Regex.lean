import Calculator.Text.Units

/-!
Regular expressions over code units, with assertions about what is before and after a position. An
expression is run from a position with a continuation that decides about the positions it may end at.
-/
namespace Calculator

/-- The units of some ranges, or all others. -/
structure UnitSet where
  negated : Bool
  ranges : List (CodeUnit × CodeUnit)
  deriving DecidableEq

namespace UnitSet

def contains (s : UnitSet) (u : CodeUnit) : Bool :=
  s.negated != s.ranges.any fun (low, high) => low ≤ u && u ≤ high

def single (u : CodeUnit) : UnitSet :=
  ⟨false, [(u, u)]⟩

def digits : UnitSet :=
  ⟨false, [(0x30, 0x39)]⟩

def wordUnits : UnitSet :=
  ⟨false, [(0x30, 0x39), (0x41, 0x5A), (0x5F, 0x5F), (0x61, 0x7A)]⟩

/-- White space and line ends. -/
def blanks : UnitSet :=
  ⟨false, [(0x09, 0x0D), (0x20, 0x20), (0xA0, 0xA0), (0x1680, 0x1680), (0x2000, 0x200A),
    (0x2028, 0x2029), (0x202F, 0x202F), (0x205F, 0x205F), (0x3000, 0x3000), (0xFEFF, 0xFEFF)]⟩

/-- All but line ends. -/
def withinLine : UnitSet :=
  ⟨true, [(0x0A, 0x0A), (0x0D, 0x0D), (0x2028, 0x2029)]⟩

end UnitSet

inductive Regex where
  /-- The empty text. -/
  | blank
  | unit (s : UnitSet)
  /-- The start of the whole text. -/
  | start
  /-- The end of the whole text. -/
  | finish
  /-- A place where a word begins or ends, or any other place. -/
  | wordEdge (negated : Bool)
  | append (r s : Regex)
  | either (r s : Regex)
  /-- At least `least` times, and at most `most` times if there is such a number. -/
  | repeated (least : Nat) (most : Option Nat) (r : Regex)
  /-- What follows begins with a match, or does not. -/
  | ahead (negated : Bool) (r : Regex)
  /-- What precedes ends with a match, or does not. -/
  | behind (negated : Bool) (r : Regex)
  deriving DecidableEq

namespace Regex

/-- Whether a word unit stands at a position. -/
def isWordAt (t : Text) (i : Nat) : Bool :=
  (t[i]?.map UnitSet.wordUnits.contains).getD false

/-- A word begins or ends between two units if one of them belongs to a word. -/
def isWordEdge (t : Text) (i : Nat) : Bool :=
  (0 < i && isWordAt t (i - 1)) != isWordAt t i

/-- One step after another: `least` of them in any case, and then up to `most` that lead on. -/
def runRepeated (step : Nat → (Nat → Bool) → Bool) :
    (least most : Nat) → Nat → (Nat → Bool) → Bool
  | least + 1, most, i, next => step i fun j => runRepeated step least most j next
  | 0, 0, i, next => next i
  | 0, most + 1, i, next => next i || step i fun j => i < j && runRepeated step 0 most j next

/-- Whether a match from a position may end at one that `next` accepts. Repetitions beyond the length of
the text lead nowhere, for each has to lead on. -/
def run (t : Text) : Regex → Nat → (Nat → Bool) → Bool
  | blank, i, next => next i
  | unit s, i, next => (t[i]?.map s.contains).getD false && next (i + 1)
  | start, i, next => i == 0 && next i
  | finish, i, next => i == t.length && next i
  | wordEdge negated, i, next => isWordEdge t i != negated && next i
  | append r s, i, next => run t r i fun j => run t s j next
  | either r s, i, next => run t r i next || run t s i next
  | repeated least most r, i, next =>
    let more := min t.length ((most.getD (least + t.length)) - least)
    runRepeated (run t r) least more i next
  | ahead negated r, i, next => (run t r i fun _ => true) != negated && next i
  | behind negated r, i, next =>
    ((List.range (i + 1)).any fun j => run t r j fun k => k == i) != negated && next i

/-- Whether some part of a text matches. -/
def isFound (r : Regex) (t : Text) : Bool :=
  (List.range (t.length + 1)).any fun i => r.run t i fun _ => true

end Regex

end Calculator
