import Calculator.Text.Span
import Calculator.Yaml.Outline

/-!
Reading that goes on after a mistake. A result comes with the places that were found wrong on the way to
it; what is wrong with them is not kept.
-/
namespace Calculator.Yaml

/-- The places found wrong, the last one first. -/
abbrev Checked := StateM (List Span)

namespace Checked

def wrong (place : Span) : Checked Unit :=
  modify (place :: ·)

/-- A mistake at one unit. -/
def wrongAt (offset : Nat) : Checked Unit :=
  wrong ⟨offset, offset + 1⟩

def wrongMark (m : Mark) : Checked Unit :=
  wrong ⟨m.offset, m.stop⟩

def wrongIf (condition : Bool) (place : Span) : Checked Unit :=
  if condition then wrong place else pure ()

end Checked

/-- The place that stands for a value in a mistake: all of a scalar, the first unit of a collection. -/
def Outline.place : Outline → Span
  | flat _ offset _ source _ => ⟨offset, offset + source.length⟩
  | block offset _ _ source => ⟨offset, offset + source.length⟩
  | map offset .. => ⟨offset, offset + 1⟩
  | sequence offset .. => ⟨offset, offset + 1⟩
  | flow opening _ _ => ⟨opening.offset, opening.offset + 1⟩
  | stray m => ⟨m.offset, m.stop⟩

/-- What is left on a line behind a value: white space and comments, and in the strict reading a comment
needs a space before it. Gives the offset behind it all. -/
def checkTail (strict : Bool) (offset : Nat) (marks : List Mark) : Checked Nat := do
  let (offset, _) ← marks.foldlM (fun (offset, spaced) m => do
    match m.kind with
    | .space => pure (offset + m.source.length, true)
    | .newline => pure (offset + m.source.length, true)
    | .comment =>
      if strict && !spaced then Checked.wrongMark m
      pure (offset + m.source.length, spaced)
    | _ =>
      Checked.wrongMark m
      pure (offset + m.source.length, spaced)) (offset, false)
  pure offset

end Calculator.Yaml
