import Calculator.Files.Braces
import Calculator.Files.Glob

/-!
What a pattern tells before any path is matched: whether it names one path only, the directory that all
its paths are in, and the directories that may lead to one of them.
-/
namespace Calculator.Pattern

/-- Whether some part of a text has a shape, which is given as a regular expression. -/
def hasShape (shape t : Text) : Bool :=
  ((RegexReader.read? shape).map fun r => r.isFound t).getD false

/-- An opening brace with a comma or two dots before the next closing one. -/
def hasChoice (t : Text) : Bool :=
  match t.dropWhile (· != 0x7B) with
  | [] => false
  | _ :: rest =>
    let inside := rest.takeWhile (· != 0x7D)
    inside.length < rest.length && hasShape ",|\\.\\." inside

/-- Whether a pattern may match more than one path: it has a star or a question mark, a set, alternatives
in brackets, a group, a choice in braces, or a backslash. -/
def isVarying (pattern : Text) : Bool :=
  pattern.contains 0x5C || hasShape "[*?]|^!" pattern || hasShape "\\[[^[]*]" pattern
    || hasShape "(?:^|[^!*+?@])\\([^(]*\\|[^|]*\\)" pattern
    || hasShape "[!*+?@]\\([^(]*\\)" pattern || hasChoice pattern

/-- A pattern that begins with an exclamation mark, which is no group, excludes. -/
def isExcluding (pattern : Text) : Bool :=
  pattern.head? == some 0x21 && pattern[1]? != some 0x28

/-- A pattern that leads out of the working directory. -/
def isOutside (pattern : Text) : Bool :=
  (".." : Text).isPrefixOf pattern || ("./.." : Text).isPrefixOf pattern

/-- Slashes in a row count as one, apart from the first two. -/
def mergeSlashes : Text → Text
  | [] => []
  | u :: rest => u :: merge rest
where
  merge : Text → Text
    | 0x2F :: 0x2F :: rest => merge (0x2F :: rest)
    | u :: rest => u :: merge rest
    | [] => []

/-- All patterns that some patterns stand for, or nothing if a range in one is too long. -/
def expand? (patterns : List Text) : Option (List Text) :=
  (patterns.mapM Braces.expand?).map fun expanded =>
    (expanded.flatten.filter (· ≠ [])).map mergeSlashes

/-! ### The directory of a pattern -/

/-- Whether a closing unit comes before any backslash. -/
def isClosed (closing : CodeUnit) (t : Text) : Bool :=
  (t.takeWhile fun u => u != closing && u != 0x5C).length
    < (t.takeWhile (· != 0x5C)).length

/-- The unit that closes a bracket. -/
def closingOf? (u : CodeUnit) : Option CodeUnit :=
  if u = 0x7B then some 0x7D
  else if u = 0x28 then some 0x29
  else if u = 0x5B then some 0x5D
  else none

/-- Whether a bracket that opens a text makes it vary. -/
def opensVariation (t : Text) : Bool :=
  match t with
  | 0x5B :: rest => rest.head? != some 0x5D && isClosed 0x5D t
  | 0x7B :: rest => rest.head? != some 0x7D && isClosed 0x7D t
  | 0x28 :: rest =>
    let isGroup := rest.head? == some 0x3F && Glob.Draft.isOneOf ":!=" rest[1]? && rest[2]? != some 0x29
      && isClosed 0x29 t
    let choice := t.dropWhile (· != 0x7C)
    isGroup || (rest.head? != some 0x7C && choice[1]? != some 0x29 && isClosed 0x29 choice)
  | _ => false

/-- Whether a path varies from some unit on: at a star, a question mark behind a bracket, a dot or a plus
sign, or a bracket with something to choose from. What is escaped does not count. -/
def variesFrom : Nat → Text → Bool
  | fuel + 1, 0x5C :: rest =>
    let behind := rest.drop 1
    let behind := match rest.head?.bind closingOf? with
      | some closing =>
        if behind.contains closing then (behind.dropWhile (· != closing)).drop 1 else behind
      | none => behind
    behind.head? == some 0x21 || variesFrom fuel behind
  | fuel + 1, u :: rest =>
    u == 0x2A || (rest.head? == some 0x3F && ("].+)" : Text).contains u) || opensVariation (u :: rest)
      || variesFrom fuel rest
  | _, _ => false

/-- Whether a path has a group of alternatives behind a sign. -/
def hasGroup : Nat → Text → Bool
  | fuel + 1, u :: rest =>
    let isSkipped := u == 0x5C && (rest.head?.map UnitSet.withinLine.contains).getD false
    let opens := ("@?!+*" : Text).contains u && rest.head? == some 0x28
      && (rest.takeWhile UnitSet.withinLine.contains).contains 0x29
    opens || hasGroup fuel (if isSkipped then rest.drop 1 else rest)
  | _, _ => false

/-- Whether a directory depends on what exists. -/
def isVaryingDirectory (path : Text) : Bool :=
  hasGroup path.length path || path.head? == some 0x21 || variesFrom path.length path
    || hasShape "(^|[^\\\\])([\\\x7b\\[]|\\([^\\)]+$)" path

/-- The first directory above a path that does not vary. -/
def fixedParent : Nat → Text → Text
  | 0, path => path
  | fuel + 1, path =>
    let parent := Path.parent path
    if isVaryingDirectory parent then fixedParent fuel parent else parent

/-- Takes backslashes away before units that have a meaning in patterns. -/
def unescape : Text → Text
  | 0x5C :: u :: rest =>
    if ("!*?|[]()" : Text).contains u ∨ u = 0x7B ∨ u = 0x7D then u :: unescape rest
    else 0x5C :: unescape (u :: rest)
  | u :: rest => u :: unescape rest
  | [] => []

/-- The directory that all paths of a pattern are in. -/
def base (pattern : Text) : Text :=
  let path := if hasShape "[\x7b\\[].*[\x7d\\]]$" pattern then pattern ++ [Path.slash] else pattern
  unescape (fixedParent (path.length + 1) (path ++ "a"))

/-! ### The components of a pattern -/

/-- Text in square brackets up to the closing one, and what follows. -/
def takeSet : Text → Text × Text
  | [] => ([], [])
  | [u] => ([u], [])
  | u :: v :: rest =>
    if u = 0x5C then
      let (taken, behind) := takeSet rest
      (u :: v :: taken, behind)
    else if u = 0x5D then ([u], v :: rest)
    else
      let (taken, behind) := takeSet (v :: rest)
      (u :: taken, behind)

/-- Text in round brackets up to the first closing one, and what follows. The unit behind one that skips
has no meaning. -/
def takeRound (skips : CodeUnit) : Text → Text × Text
  | [] => ([], [])
  | [u] => ([u], [])
  | u :: v :: rest =>
    if u = skips then
      let (taken, behind) := takeRound skips rest
      (u :: v :: taken, behind)
    else if u = 0x29 then ([u], v :: rest)
    else
      let (taken, behind) := takeRound skips (v :: rest)
      (u :: taken, behind)

/-- Text in braces up to the closing one, what follows, and whether there is a closing one. -/
def takeBraces (isEscaped : Bool) : Nat → (depth : Nat) → Text → Text × Text × Bool
  | 0, _, t => (t, [], false)
  | fuel + 1, depth, t =>
    let go (taken : Text) (depth : Nat) (rest : Text) : Text × Text × Bool :=
      let (more, behind, isClosed) := takeBraces isEscaped fuel depth rest
      (taken ++ more, behind, isClosed)
    match t with
    | [] => ([], [], false)
    | 0x5C :: rest => go (0x5C :: rest.take 1) depth (rest.drop 1)
    | 0x7B :: rest => go [0x7B] (depth + 1) rest
    | 0x7D :: rest => if depth ≤ 1 then ([0x7D], rest, true) else go [0x7D] (depth - 1) rest
    | 0x2E :: 0x7D :: rest =>
      if isEscaped then go [0x2E] depth (0x7D :: rest)
      else if depth ≤ 1 then ([0x2E, 0x7D], rest, true)
      else go [0x2E, 0x7D] (depth - 1) rest
    | 0x2E :: u :: rest => if isEscaped then go [0x2E] depth (u :: rest) else go [0x2E, u] depth rest
    | u :: rest => go [u] depth rest

/-- The components of a pattern. A slash in brackets or braces parts nothing. -/
def splitFrom : Nat → (isEscaped : Bool) → (component : Text) → Text → List Text
  | fuel + 1, isEscaped, component, u :: rest =>
    if u = 0x5C then
      splitFrom fuel (isEscaped || rest.head? == some 0x7B) (component ++ u :: rest.take 1) (rest.drop 1)
    else if isEscaped ∨ u = 0x7B then
      let (taken, behind, isClosed) := takeBraces isEscaped (rest.length + 1) 1 rest
      splitFrom fuel (isEscaped && !isClosed) (component ++ u :: taken) behind
    else if u = Path.slash then component :: splitFrom fuel isEscaped [] rest
    else
      let (taken, behind) :=
        if ("+@*?!" : Text).contains u ∧ rest.head? = some 0x28 then takeRound 0x5C rest
        else if u = 0x5B then takeSet rest
        else if u = 0x28 then takeRound 0x28 rest
        else ([], rest)
      splitFrom fuel isEscaped (component ++ u :: taken) behind
  | _, _, component, _ => [component]

/-- The components of a pattern, without a dot at the front and without an empty one at the end. -/
def components (pattern : Text) : List Text :=
  let all := splitFrom pattern.length false [] pattern
  let all := if all.head? = some (".": Text) ∧ 1 < all.length then all.drop 1 else all
  if 1 < all.length ∧ all.getLast? = some [] then all.dropLast else all

/-- What one component of a path has to be. -/
inductive Segment where
  | fixed (name : Text)
  /-- Any name that matches; `isDeep` if it may also stand for several components. -/
  | varying (isDeep : Bool) (r : Option Regex)

namespace Segment

def ofText (component : Text) : Segment :=
  if isVarying component then
    .varying (hasShape "\\*\\*" component) (Glob.expression? false component)
  else .fixed component

def isDeep : Segment → Bool
  | .varying isDeep _ => isDeep
  | .fixed _ => false

def accepts (s : Segment) (name : Text) : Bool :=
  match s with
  | .fixed t => t == name
  | .varying _ r => (r.map fun r => r.isFound name).getD false

/-- Whether a directory with the given components may lead to a path of a pattern: as far as the first
segment that stands for several components, each component has to match. -/
def leadOn (segments : List Segment) (directory : List Text) : Bool :=
  let ahead := segments.takeWhile fun s => !s.isDeep
  if ahead.length = segments.length ∧ segments.length ≤ directory.length then false
  else if ahead.length < segments.length ∧ ahead.length < directory.length then true
  else (segments.zip directory).all fun (s, name) => s.accepts name

end Segment

end Calculator.Pattern
