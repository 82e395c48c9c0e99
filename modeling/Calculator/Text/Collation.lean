import Calculator.Text.Units

/-!
The alphabetical order of texts: punctuation and symbols before digits before letters. Letters are
compared without regard to accents and case first, then by accents, and a small letter comes before its
capital. A ligature stands where its two letters would.
-/
namespace Calculator.Text

/-- The three ranks of a unit: its letter, its accent and its case. -/
structure Rank where
  letter : Nat
  accent : Nat
  case : Nat
  deriving DecidableEq

namespace Rank

/-- ASCII units other than letters and digits, in order. -/
def punctuation : Text :=
  "\t\n\x0b\x0c\r _-,;:!?.'\"()[]\x7b\x7d@*/\\&#%\x60^+<=>|~$"

/-- Accents in order: none, acute, grave, circumflex, ring, diaeresis, tilde, stroke, cedilla. -/
def accents : List (Nat × Text) :=
  [ (1, "áéíóúý"),
    (2, "àèìòù"),
    (3, "âêîôû"),
    (4, "å"),
    (5, "äëïöüÿ"),
    (6, "ãñõ"),
    (7, "ø"),
    (8, "ç") ]

/-- Accented small letters of Latin-1 without their accents. -/
def bases : List (Text × Text) :=
  [ ("a", "áàâåäã"), ("c", "ç"), ("e", "éèêë"), ("i", "íìîï"), ("n", "ñ"), ("o", "óòôöõø"),
    ("u", "úùûü"), ("y", "ýÿ") ]

def small (u : CodeUnit) : CodeUnit :=
  if isUpper u || (0xC0 ≤ u && u ≤ 0xDE && u != 0xD7) then u + 0x20 else u

def base (u : CodeUnit) : CodeUnit :=
  ((bases.find? fun (_, accented) => accented.contains u).bind fun (t, _) => t.head?).getD u

def accentOf (u : CodeUnit) : Nat :=
  ((accents.find? fun (_, accented) => accented.contains u).map Prod.fst).getD 0

/-- Signs of Latin-1, general punctuation up to arrows and shapes, and the halves that begin a pictograph. -/
def isSymbol (u : CodeUnit) : Bool :=
  (0x80 ≤ u && u < 0xC0) || u == 0xD7 || u == 0xF7 || (0x2000 ≤ u && u < 0x2C00) ||
    (0xD83C ≤ u && u ≤ 0xD83E)

def letterOf (u : CodeUnit) : Nat :=
  match punctuation.findIdx? (· == u) with
  | some i => i
  | none => (if isSymbol u then 0x100 else 0x10100) + u.toNat

/-- A ligature ranks as two letters, after the same two written apart. -/
def ofUnit (u : CodeUnit) : List Rank :=
  let case := if small u = u then 0 else 1
  if u = 0xDF then [⟨letterOf 0x73, 0, 1⟩, ⟨letterOf 0x73, 0, 1⟩]
  else if small u = 0xE6 then [⟨letterOf 0x61, 9, case⟩, ⟨letterOf 0x65, 0, case⟩]
  else [⟨letterOf (base (small u)), accentOf (small u), case⟩]

end Rank

def compareRanks : List Nat → List Nat → Ordering
  | [], [] => .eq
  | [], _ :: _ => .lt
  | _ :: _, [] => .gt
  | m :: s, n :: t => (compare m n).then (compareRanks s t)

/-- The first of the three ranks that differs anywhere decides. -/
def collate (s t : Text) : Ordering :=
  let r := s.flatMap Rank.ofUnit
  let q := t.flatMap Rank.ofUnit
  ((compareRanks (r.map Rank.letter) (q.map Rank.letter)).then
    (compareRanks (r.map Rank.accent) (q.map Rank.accent))).then
    (compareRanks (r.map Rank.case) (q.map Rank.case))

/-- Sorts by a text; what the order does not tell apart stays in place. -/
def sortBy {α : Type} (key : α → Text) (items : List α) : List α :=
  items.mergeSort fun a b => (collate (key a) (key b)).isLE

end Calculator.Text
