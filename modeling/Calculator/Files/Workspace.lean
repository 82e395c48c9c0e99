import Calculator.Files.Pattern
import Calculator.Session.Batch
import Calculator.Text.Collation

/-!
The files a run can see, and which of them a list of patterns selects. A pattern that begins with an
exclamation mark takes files away; nothing below a `node_modules` directory is ever selected.
-/
namespace Calculator

structure Workspace where
  /-- The working directory. -/
  directory : Text
  /-- Files by their resolved paths, with their contents. -/
  files : List (Text × Text)

structure SelectedFile where
  path : Text
  contents : Text

namespace Workspace

def contents? (w : Workspace) (path : Text) : Option Text :=
  w.files.lookup path

def isDirectory (w : Workspace) (path : Text) : Bool :=
  path == w.directory || w.files.any fun (file, _) => (Path.below? path file).isSome

/-- A path as seen from the working directory. -/
def relative (w : Workspace) (path : Text) : Text :=
  (Path.below? w.directory path).getD path

end Workspace

inductive SelectionError where
  | emptyPattern
  | emptyExclusion
  | longRange
  /-- A file stands where the path needs a directory; the action is what was tried. -/
  | notDirectory (action path : Text)
  | missing (path : Text)
  deriving DecidableEq

def SelectionError.message : SelectionError → Text
  | emptyPattern => "Patterns must be a string (non empty) or an array of strings"
  | emptyExclusion => "Expected a non-empty string"
  | longRange =>
    "expanded array length exceeds range limit. Use options.rangeLimit to increase or disable the limit."
  | notDirectory action path => "ENOTDIR: not a directory, " ++ action ++ " '" ++ path ++ "'"
  | missing path => "ENOENT: no such file or directory, open '" ++ path ++ "'"

namespace Selection

open Pattern

/-- Whether any of the regular expressions matches. -/
def matchesAny (rs : List Regex) (path : Text) : Bool :=
  rs.any fun r => r.isFound path

/-- Patterns that no selected file matches. -/
structure Exclusions where
  /-- For paths as they are found. -/
  relative : List Regex
  /-- For resolved paths. -/
  absolute : List Regex
  /-- For directories that need no look inside. -/
  closing : List Regex

/-- A pattern closes the directories that it matches if it ends with a name or with two stars. -/
def closes (pattern : Text) : Bool :=
  ("/**" : Text).isSuffixOf pattern || !isVarying (Path.lastName pattern)

def Exclusions.ofPatterns (patterns : List Text) : Exclusions :=
  { relative := (patterns.filter fun p => !Path.isAbsolute p).filterMap (Glob.expression? true)
    absolute := (patterns.filter Path.isAbsolute).filterMap (Glob.expression? true)
    closing := (patterns.filter closes).filterMap (Glob.expression? false) }

/-- Patterns that are looked for below one directory. -/
structure Task where
  base : Text
  patterns : List Text

/-- A task for each directory of a pattern. -/
def tasksByBase (patterns : List Text) : List Task :=
  (patterns.map base).eraseDups.map fun b => ⟨b, patterns.filter fun p => base p == b⟩

/-- The tasks of patterns. One that begins at the working directory does for all others in it. -/
def tasks (patterns : List Text) : List Task :=
  let inside := patterns.filter fun p => !isOutside p
  tasksByBase (patterns.filter isOutside)
    ++ (if (inside.map base).contains "." then [⟨".", inside⟩] else tasksByBase inside)

/-- A path below a base as it is found. -/
def foundPath (base path : Text) : Text :=
  if base = "." then path
  else if base.getLast? = some Path.slash then base ++ path
  else base ++ [Path.slash] ++ path

/-- Whether a path that is found is selected. -/
def isSelected (w : Workspace) (including : List Regex) (excluding : Exclusions) (path : Text) : Bool :=
  matchesAny including path && !matchesAny excluding.relative path
    && !matchesAny excluding.absolute (Path.resolve w.directory path)

/-- Whether a path has a file where it needs a directory. -/
def leadsThroughFile (w : Workspace) (path : Text) : Bool :=
  w.files.any fun (file, _) => (Path.below? file path).isSome

/-- The files that a pattern without choice names. -/
def named (w : Workspace) (excluding : Exclusions) (including : List Regex) :
    List Text → Except SelectionError (List (Text × Text))
  | [] => .ok []
  | pattern :: rest =>
    let path := Path.resolve w.directory pattern
    if leadsThroughFile w path then .error (.notDirectory "lstat" path)
    else
      let found := Glob.dropDot pattern
      let isFound := (w.contents? path).isSome && isSelected w including excluding found
      (named w excluding including rest).map fun more => if isFound then (found, path) :: more else more

/-- The files below a base that a task selects. No way to one leads through a directory that is closed or
leads nowhere. -/
def below (w : Workspace) (excluding : Exclusions) (task : Task) :
    Except SelectionError (List (Text × Text)) :=
  let root := Path.resolve w.directory task.base
  if (w.contents? root).isSome ∨ leadsThroughFile w root then .error (.notDirectory "scandir" root)
  else
    let including := task.patterns.filterMap (Glob.expression? false)
    let segments := task.patterns.map fun p => (components p).map Segment.ofText
    let isOpen (directory : Text) : Bool :=
      let directory := Glob.dropDot (foundPath task.base directory)
      segments.any (fun s => Segment.leadOn s (Path.split directory))
        && !matchesAny excluding.closing directory
    .ok (w.files.filterMap fun (file, _) =>
      match Path.below? root file with
      | none => none
      | some path =>
        let found := Glob.dropDot (foundPath task.base path)
        if isSelected w including excluding found && (Path.ancestors path).all isOpen then
          some (found, Path.resolve w.directory found)
        else none)

/-- The selected files, each with the path it was found by. -/
def found (w : Workspace) (patterns : List Text) : Except SelectionError (List (Text × Text)) :=
  match expand? patterns with
  | none => .error .longRange
  | some patterns =>
    let excluded := (patterns.filter isExcluding).map (·.drop 1) ++ [("**/node_modules/**" : Text)]
    let including := patterns.filter fun p => !isExcluding p
    if including ≠ [] ∧ excluded.contains [] then .error .emptyExclusion
    else
      let excluding := Exclusions.ofPatterns excluded
      let literal := (tasks (including.filter fun p => !isVarying p)).mapM fun task =>
        named w excluding (task.patterns.filterMap (Glob.expression? false)) task.patterns
      let varying := (tasks (including.filter isVarying)).mapM (below w excluding)
      match literal, varying with
      | .ok s, .ok t => .ok (s.flatten ++ t.flatten)
      | .error e, _ => .error e
      | _, .error e => .error e

/-- Keeps the first of the entries with the same key. -/
def distinct : List (Text × Text) → List (Text × Text)
  | [] => []
  | entry :: rest => entry :: (distinct rest).filter fun other => other.1 ≠ entry.1

/-- Backslashes in the path of a file are taken for slashes. -/
def flipBackslashes (path : Text) : Text :=
  path.map fun u => if u = 0x5C then Path.slash else u

/-- A file that was found, with its contents. -/
def load (w : Workspace) (path : Text) : Except SelectionError SelectedFile :=
  match w.contents? path with
  | some contents => .ok ⟨path, contents⟩
  | none => .error (.missing path)

end Selection

/-- The files that match a pattern, in alphabetical order. -/
def Workspace.select (w : Workspace) (patterns : List Text) :
    Except SelectionError (List SelectedFile) :=
  if patterns.contains [] then .error .emptyPattern
  else
    match Selection.found w patterns with
    | .error e => .error e
    | .ok found =>
      let paths := (Selection.distinct found).map fun entry => Selection.flipBackslashes entry.2
      (Text.sortBy id paths).mapM (Selection.load w)

/-- The expressions of files, one after the other. -/
def SelectedFile.expressions (files : List SelectedFile) : List Text :=
  files.flatMap fun file => splitExpressions file.contents

end Calculator
