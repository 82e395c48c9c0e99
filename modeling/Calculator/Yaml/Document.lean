import Calculator.Yaml.Builder
import Calculator.Yaml.Node
import Calculator.Yaml.Scanner

/-!
Documents. A text holds one document; the tree is meaningful only if no place was found wrong.
-/
namespace Calculator.Yaml

/-- What a text reads as: the root of its first document, if it has one, the places found wrong, and the
offsets at which its lines start. -/
structure Document where
  root : Option Node
  mistakes : List Span
  lineStarts : List Nat

namespace Document

/-- The parameters of a directive, its name first. -/
def directiveParts (source : Text) : List Text :=
  source.trim.foldr (fun u parts =>
    match parts, isSpaceOrTab u with
    | [] :: _, true => parts
    | _, true => [] :: parts
    | part :: rest, false => (u :: part) :: rest
    | [], false => [[u]]) [[]]

/-- A version is two numbers with a point between them. -/
def isVersion (t : Text) : Bool :=
  let whole := t.takeWhile Text.isDigit
  match t.dropWhile Text.isDigit with
  | 0x2E :: rest => whole != [] && rest != [] && rest.all Text.isDigit
  | _ => false

/-- Reads a directive: one for tags adds a handle, and one for the version sets it, if that is known. -/
def readDirective (directives : Directives) (offset : Nat) (source : Text) : Checked Directives := do
  let place : Span := ⟨offset, offset + source.length⟩
  match directiveParts source with
  | name :: parameters =>
    if name = "%TAG" then
      if parameters.length ≠ 2 then Checked.wrong place
      match parameters with
      | handle :: start :: _ => return { directives with handles := (handle, start) :: directives.handles }
      | _ => return directives
    else if name = "%YAML" then
      match parameters with
      | [version] =>
        if version = "1.1" then return { directives with version := .v11 }
        if version = "1.2" then return { directives with version := .v12 }
        if !isVersion version then Checked.wrong { place with start := offset + 6 }
      | _ => Checked.wrong place
      return directives
    else return directives
  | [] => return directives

/-- The properties of a document as a whole. -/
def properties (d : DocumentOutline) : Checked Properties :=
  Properties.ofMarks
    { inFlow := false
      indicator := .documentStart
      next := (d.value.map Outline.following).or ((d.tail.bind List.head?).map Mark.following)
      offset := d.offset
      parentIndent := 0
      onNewLine := true } d.start

/-- Reads a document, and says whether it has a marker. -/
def readOutline (directives : Directives) (d : DocumentOutline) : Checked (Node × Bool) := do
  let props ← properties d
  let isBlock := (d.value.map Outline.isBlockCollection).getD false
  if props.indicator.isSome && isBlock && !props.hasNewline then Checked.wrongAt props.stop
  let node ← match d.value with
    | some o => Node.ofOutline directives .root props o
    | none => Node.ofNothing directives .root props props.stop d.start
  let _ ← checkTail false node.extent.after (d.tail.getD [])
  pure (node, props.indicator.isSome)

/-- Where the reading of a text has got to. -/
structure Progress where
  directives : Directives := {}
  /-- A directive was read that belongs to a document still to come. -/
  afterDirective : Bool := false
  root : Option Node := none
  /-- Mistakes, the last one first, and those among them that wait for the next document or the end of
  this one. -/
  mistakes : List Span := []
  waiting : List Span := []
  /-- The place of a second document. -/
  second : Option Span := none

/-- Reads a part with the mistakes that it makes. -/
def Progress.read (p : Progress) (part : Part) : Progress :=
  if p.second.isSome then p
  else
    match part with
    | .directive offset source =>
      let (directives, waiting) := (readDirective p.directives offset source).run p.waiting
      { p with directives := directives, waiting := waiting, afterDirective := true }
    | .document d =>
      let ((node, hasMarker), waiting) := (readOutline p.directives d).run p.waiting
      match p.root with
      | some _ => { p with second := some ⟨d.offset, node.extent.after⟩ }
      | none =>
        let waiting :=
          if p.afterDirective && !hasMarker then ⟨d.offset, d.offset + 1⟩ :: waiting else waiting
        { p with
          root := some node
          mistakes := waiting ++ p.mistakes
          waiting := []
          afterDirective := false }
    | .documentEnd offset source tail =>
      match p.root with
      | none => { p with waiting := ⟨offset, offset + source.length⟩ :: p.waiting }
      | some _ =>
        let (_, waiting) := (checkTail true (offset + source.length) (tail.getD [])).run p.waiting
        { p with mistakes := waiting ++ p.mistakes, waiting := [] }
    | .stray offset source =>
      let place : Span := ⟨offset, offset + source.length⟩
      if p.afterDirective || p.root.isNone then { p with waiting := place :: p.waiting }
      else { p with mistakes := place :: p.mistakes }

/-- The end of a text of the given length. -/
def Progress.finish (length : Nat) (p : Progress) : List Span :=
  match p.second, p.root with
  | some place, _ => (place :: p.mistakes).reverse
  | none, some _ => (p.waiting ++ p.mistakes).reverse
  | none, none =>
    let waiting := if p.afterDirective then ⟨length, length + 1⟩ :: p.waiting else p.waiting
    waiting.reverse

def read (t : Text) : Document :=
  let (parts, lineStarts) := outline (scan t)
  let p := parts.foldl Progress.read {}
  ⟨p.root, p.finish t.length, lineStarts⟩

end Document

end Calculator.Yaml
