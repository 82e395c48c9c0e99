import Calculator.Text.Units

/-!
Paths: components between slashes. A path is resolved against a directory without a look at what exists.
-/
namespace Calculator.Path

def slash : CodeUnit := 0x2F

/-- The components of a path, empty ones kept. -/
def split : Text → List Text
  | [] => [[]]
  | u :: rest =>
    if u = slash then [] :: split rest
    else
      match split rest with
      | [] => [[u]]
      | component :: more => (u :: component) :: more

def join (components : List Text) : Text :=
  Text.join [slash] components

def isAbsolute (path : Text) : Bool :=
  path.head? == some slash

/-- Adds a component to those before it, the last one first: two dots take one away. -/
def descend (above : List Text) (component : Text) : List Text :=
  if component = [] ∨ component = "." then above
  else if component = ".." then above.drop 1
  else component :: above

/-- A path without empty and dotted components. -/
def normalize (path : Text) : Text :=
  let components := ((split path).foldl descend []).reverse
  (if isAbsolute path then [slash] else []) ++ join components

/-- The directory that a path ends in, by its components alone. -/
def parent (path : Text) : Text :=
  let above := ((path.drop 1).reverse.dropWhile (· == slash)).dropWhile (· != slash)
  if above = [] then (if isAbsolute path then [slash] else ".")
  else if isAbsolute path ∧ above.length = 1 then [slash, slash]
  else path.take above.length

/-- The last component of a path. -/
def lastName (path : Text) : Text :=
  ((split path).filter (· ≠ [])).getLast?.getD []

/-- The path as seen from a directory. -/
def resolve (directory path : Text) : Text :=
  normalize (if isAbsolute path then path else directory ++ [slash] ++ path)

/-- What is left of a path below a directory. -/
def below? (directory path : Text) : Option Text :=
  let start := directory ++ [slash]
  if start.isPrefixOf path then some (path.drop start.length) else none

/-- The directories that a relative path leads through, the outermost first. -/
def ancestors (path : Text) : List Text :=
  let components := split path
  (List.range (components.length - 1)).map fun i => join (components.take (i + 1))

end Calculator.Path
