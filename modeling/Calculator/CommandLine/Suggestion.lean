import Calculator.Text.Collation

/-!
Suggestions for misspelt words: the nearest of the known ones, by how many units have to be inserted,
removed, replaced or swapped with their neighbour.
-/
namespace Calculator.CommandLine.Suggestion

/-- Distances from one more unit of a word to every front part of another; `previous` and `earlier` are
the rows for one and for two units less. -/
def nextRow (other : Text) (row : Nat) (u : CodeUnit) (before : Option CodeUnit)
    (previous earlier : List Nat) : List Nat :=
  (List.range other.length).foldl (fun distances j =>
    let v := other[j]?
    let cost := if v = some u then 0 else 1
    let near := min (min (previous.getD (j + 1) 0 + 1) (distances.getLast?.getD 0 + 1))
      (previous.getD j 0 + cost)
    let isSwap := 0 < j ∧ before.isSome ∧ other[j - 1]? = some u ∧ before = v
    distances ++ [if isSwap then min near (earlier.getD (j - 1) 0 + 1) else near]) [row]

def distanceFrom (other : Text) :
    (row : Nat) → (before : Option CodeUnit) → (previous earlier : List Nat) → Text → Nat
  | _, _, previous, _, [] => previous.getLast?.getD 0
  | row, before, previous, earlier, u :: rest =>
    distanceFrom other (row + 1) (some u) (nextRow other row u before previous earlier) previous rest

/-- The distance of two words; no unit takes part in two changes. -/
def distance (word other : Text) : Nat :=
  distanceFrom other 1 none (List.range (other.length + 1)) [] word

/-- A word further away than this is no suggestion. -/
def maxDistance : Nat := 3

/-- Words of more than one unit that are near enough and share more than two fifths of the longer word. -/
def isSimilar (word candidate : Text) : Bool :=
  let longer := max word.length candidate.length
  let d := distance word candidate
  1 < candidate.length && d ≤ maxDistance && 2 * longer < 5 * (longer - d)

/-- The nearest of the candidates, in alphabetical order. -/
def nearest (word : Text) (candidates : List Text) : List Text :=
  let similar := candidates.eraseDups.filter (isSimilar word)
  let best := similar.foldl (fun best c => min best (distance word c)) maxDistance
  Text.sortBy id (similar.filter fun c => distance word c = best)

/-- The question that follows a message about an unknown word. -/
def question (suggestions : List Text) : Text :=
  match suggestions with
  | [] => []
  | [suggestion] => "\n(Did you mean " ++ suggestion ++ "?)"
  | _ => "\n(Did you mean one of " ++ Text.join ", " suggestions ++ "?)"

/-- A question about a word; the two dashes of an option are compared with nothing. -/
def forWord (word : Text) (known : List Text) : Text :=
  if ("--" : Text).isPrefixOf word then
    question ((nearest (word.drop 2) (known.map (·.drop 2))).map fun t => "--" ++ t)
  else question (nearest word known)

/-- A question about an option; short ones have none. -/
def forOption (flag : Text) (options : List Text) : Text :=
  if ("--" : Text).isPrefixOf flag then forWord flag options else []

end Calculator.CommandLine.Suggestion
