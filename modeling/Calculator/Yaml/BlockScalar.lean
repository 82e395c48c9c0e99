import Calculator.Yaml.Quoted

/-!
The text of block scalars: literal ones keep their line ends, folded ones join lines of the same
indentation with a space.
-/
namespace Calculator.Yaml

/-- What happens to the line ends at the end of the text. -/
inductive Chomping where
  | clip
  | strip
  | keep
  deriving DecidableEq

structure BlockHeader where
  folded : Bool
  /-- How much more than its parent the text is indented, if that is given. -/
  indent : Option Nat
  chomping : Option Chomping
  /-- The offset of the first unit that does not belong there. -/
  extra : Option Nat

namespace BlockHeader

/-- Reads one unit of a header. -/
def readUnit (h : BlockHeader) (offset : Nat) (u : CodeUnit) : BlockHeader :=
  if h.chomping.isNone && u == Text.code '-' then { h with chomping := some .strip }
  else if h.chomping.isNone && u == Text.code '+' then { h with chomping := some .keep }
  else if h.indent.isNone && Text.isDigit u && u != 0x30 then
    { h with indent := some (u.toNat - 0x30) }
  else { h with extra := h.extra.or (some offset) }

def read (offset : Nat) (source : Text) : BlockHeader :=
  let start : BlockHeader := ⟨source.head? == some (Text.code '>'), none, none, none⟩
  (source.drop 1).zipIdx.foldl (fun h (u, i) => h.readUnit (offset + 1 + i) u) start

end BlockHeader

/-- What stands on the line of the header, which gives the length of it all. -/
def checkHeaderLine (marks : List Mark) : Checked Nat := do
  let (length, _) ← marks.foldlM (fun (length, spaced) m => do
    match m.kind with
    | .space => pure (length + m.source.length, true)
    | .newline => pure (length + m.source.length, spaced)
    | .comment =>
      if !spaced then Checked.wrongMark m
      pure (length + m.source.length, spaced)
    | _ =>
      Checked.wrongMark m
      pure (length + m.source.length, spaced)) (0, false)
  pure length

/-- A line as its leading spaces and the rest. -/
structure BlockLine where
  indent : Nat
  content : Text

namespace BlockLine

def isEmpty (l : BlockLine) : Bool :=
  l.content == [] || l.content == [0x0D]

/-- The units of a line with its line feed. -/
def size (l : BlockLine) : Nat :=
  l.indent + l.content.length + 1

def endsInReturn (l : BlockLine) : Bool :=
  l.content.getLast? == some 0x0D

/-- The spaces beyond the given indentation. -/
def spacesBeyond (indent : Nat) (l : BlockLine) : Text :=
  List.replicate (l.indent - indent) 0x20

def ofText (t : Text) : BlockLine :=
  let content := t.dropWhile (· == 0x20)
  ⟨t.length - content.length, content⟩

/-- The lines of a source, which end at line feeds. -/
def split (source : Text) : List BlockLine :=
  (go source).map ofText
where
  go : Text → List Text
    | [] => [[]]
    | u :: rest =>
      if u = 0x0A then [] :: go rest
      else
        match go rest with
        | [] => [[u]]
        | line :: lines => (u :: line) :: lines

end BlockLine

/-- How far the lines are indented, how many empty ones come first, and where the text begins. -/
structure BlockStart where
  indent : Nat
  leading : Nat
  offset : Nat

/-- Looks for the first line with content, which sets the indentation if the header does not. -/
def findStart (atRoot explicit : Bool) : List BlockLine → BlockStart → Checked BlockStart
  | [], s => pure s
  | l :: rest, s =>
    if l.isEmpty then
      findStart atRoot explicit rest
        { indent := if explicit then s.indent else max s.indent l.indent
          leading := s.leading + 1
          offset := s.offset + l.size }
    else do
      if l.indent < s.indent then Checked.wrongAt (s.offset + l.indent)
      let indent := if explicit then s.indent else l.indent
      if indent = 0 ∧ ¬ atRoot then Checked.wrongAt s.offset
      pure { s with indent := indent }

/-- The text so far, what the next line needs before it, and whether the last line was indented more. -/
structure Folding where
  text : Text
  separator : Text
  afterIndented : Bool
  offset : Nat

def foldBlockLine (folded : Bool) (indent : Nat) (f : Folding) (l : BlockLine) : Checked Folding := do
  let offset := f.offset + l.size
  let content := if l.endsInReturn then l.content.dropLast else l.content
  let outdented := content ≠ [] ∧ l.indent < indent
  if outdented then
    Checked.wrongAt (offset - content.length - (if l.endsInReturn then 2 else 1))
  let spaces := if outdented then [] else l.spacesBeyond indent
  let lineIndent := if outdented then 0 else l.indent
  if ¬ folded then
    pure ⟨f.text ++ f.separator ++ spaces ++ content, "\n", f.afterIndented, offset⟩
  else if indent < lineIndent ∨ content.head? = some 0x09 then
    let separator : Text :=
      if f.separator = " " then "\n"
      else if ¬ f.afterIndented ∧ f.separator = "\n" then "\n\n"
      else f.separator
    pure ⟨f.text ++ separator ++ spaces ++ content, "\n", true, offset⟩
  else if content = [] then
    if f.separator = "\n" then pure { f with text := f.text ++ "\n", offset := offset }
    else pure { f with separator := "\n", offset := offset }
  else pure ⟨f.text ++ f.separator ++ content, " ", false, offset⟩

/-- The line ends that the text keeps at its end. -/
def chomp (chomping : Option Chomping) (indent : Nat) (trailing : List BlockLine) (t : Text) : Text :=
  match chomping with
  | some .strip => t
  | some .keep =>
    let t := t ++ trailing.flatMap fun l => 0x0A :: l.spacesBeyond indent
    if t.getLast? = some 0x0A then t else t ++ "\n"
  | _ => t ++ "\n"

/-- How many lines belong to the text: up to the last one with content, and beyond it up to the last one
with more spaces than the indentation. -/
def contentLines (indent : Nat) (lines : List BlockLine) : Nat :=
  let content := (lines.reverse.dropWhile BlockLine.isEmpty).length
  let spaced := ((lines.drop content).reverse.dropWhile fun l => l.indent ≤ indent).length
  content + spaced

/-- The text of a block scalar, and the offset at which it ends. -/
def blockText (atRoot : Bool) (offset indent : Nat) (header : List Mark) (source : Text) :
    Checked (Text × Nat) := do
  let headerSource := (header.head?.map Mark.source).getD []
  let h := BlockHeader.read offset headerSource
  match h.extra with
  | some i => Checked.wrongAt i
  | none => pure ()
  let start := offset + headerSource.length + (← checkHeaderLine (header.drop 1))
  let stop := start + source.length
  let lines := if source = [] then [] else BlockLine.split source
  if lines.all BlockLine.isEmpty then
    let kept := if h.chomping = some .keep ∧ lines ≠ [] then max 1 (lines.length - 1) else 0
    return (List.replicate kept 0x0A, stop)
  else
    let filled := lines.take (lines.reverse.dropWhile BlockLine.isEmpty).length
    let s ← findStart atRoot h.indent.isSome filled ⟨indent + h.indent.getD 0, 0, start⟩
    let count := contentLines s.indent lines
    let leading := (lines.take s.leading).flatMap fun l => l.spacesBeyond s.indent ++ [0x0A]
    let f ← ((lines.take count).drop s.leading).foldlM (foldBlockLine h.folded s.indent)
      ⟨leading, [], false, s.offset⟩
    return (chomp h.chomping s.indent (lines.drop count) f.text, stop)

end Calculator.Yaml
