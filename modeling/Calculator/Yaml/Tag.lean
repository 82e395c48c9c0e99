import Calculator.Yaml.Checked
import Calculator.Yaml.Version

/-!
Tags: how the spelling of a tag resolves to a name, and what a scalar with a tag means.
-/
namespace Calculator.Yaml

/-- The handles that tags may begin with, and what they stand for. -/
abbrev Handles := List (Text × Text)

def standardTag : Text := "tag:yaml.org,2002:"

def Handles.default : Handles := [("!!", standardTag)]

/-- What the directives in front of a document say. -/
structure Directives where
  version : Version := .v12
  handles : Handles := .default

namespace Tag

/-- Splits behind the last exclamation mark. -/
def splitHandle (source : Text) : Text × Text :=
  let suffix := (source.reverse.takeWhile (· != Text.code '!')).reverse
  (source.take (source.length - suffix.length), suffix)

/-- Replaces escaped bytes. Each run of them must form characters. -/
def unescape? (t : Text) : Option Text :=
  go [] t
where
  /-- The characters of a run, which is held with its last byte first. -/
  flush (run : List UInt8) : Option Text :=
    (String.fromUTF8? ⟨run.reverse.toArray⟩).map Text.ofString
  go (run : List UInt8) : Text → Option Text
    | [] => flush run
    | 0x25 :: a :: b :: rest =>
      match Binary64.readInBase? 16 [a, b] with
      | some n => go (n.toUInt8 :: run) rest
      | none => none
    | u :: rest =>
      if u = 0x25 then none
      else
        match flush run, go [] rest with
        | some before, some after => some (before ++ u :: after)
        | _, _ => none

/-- The name that a tag resolves to, if it does. -/
def name? (handles : Handles) (m : Mark) : Checked (Option Text) := do
  if m.source = "!" then return some "!"
  else if ("!<" : Text).isPrefixOf m.source then
    let verbatim := (m.source.drop 2).dropLast
    if verbatim = "!" ∨ verbatim = "!!" then
      Checked.wrongMark m
      return none
    else
      if m.source.getLast? ≠ some (Text.code '>') then Checked.wrongMark m
      return if verbatim = [] then none else some verbatim
  else
    let (handle, suffix) := splitHandle m.source
    if suffix = [] then Checked.wrongMark m
    match handles.lookup handle with
    | some start =>
      match unescape? suffix with
      | some suffix => return some (start ++ suffix)
      | none =>
        Checked.wrongMark m
        return none
    | none =>
      if handle = "!" then return some m.source
      else
        Checked.wrongMark m
        return none

/-- The part of a name behind the standard beginning, if it has that. -/
def kind? (name : Text) : Option Text :=
  if standardTag.isPrefixOf name then some (name.drop standardTag.length) else none

/-- What a scalar with a tag means: its text, where the tag is unknown or does not fit. In the newer
version a point in time has to fit. -/
def apply (version : Version) (m : Mark) (name t : Text) : Checked Scalar :=
  match kind? name with
  | none => pure (.text t)
  | some kind =>
    match version.ofTagged? kind t with
    | some s => pure s
    | none => do
      if version = .v12 ∧ kind = "timestamp" then Checked.wrongMark m
      return .text t

end Tag

end Calculator.Yaml
