import Calculator.Yaml.Lexeme

/-!
The outline of a document: which piece belongs to which key or value, before scalars are read and before
anything is checked.
-/
namespace Calculator.Yaml

/-- A key with its value, or an element of a sequence. `start` holds what stands before the key,
`separator` what stands between key and value. -/
structure Item (α : Type) where
  start : List Mark
  explicitKey : Bool := false
  key : Option α := none
  separator : Option (List Mark) := none
  value : Option α := none

inductive Outline where
  /-- A plain or quoted scalar or an alias; `tail` is what follows on its line. -/
  | flat (kind : Kind) (offset indent : Nat) (source : Text) (tail : Option (List Mark))
  | block (offset indent : Nat) (header : List Mark) (source : Text)
  | map (offset indent : Nat) (items : List (Item Outline))
  | sequence (offset indent : Nat) (items : List (Item Outline))
  | flow (opening : Mark) (items : List (Item Outline)) (tail : List Mark)
  /-- A piece that has no place in the outline. -/
  | stray (mark : Mark)
  deriving Inhabited

structure DocumentOutline where
  offset : Nat
  start : List Mark
  value : Option Outline := none
  tail : Option (List Mark) := none

/-- What a text consists of at its top level. -/
inductive Part where
  | directive (offset : Nat) (source : Text)
  | document (d : DocumentOutline)
  | documentEnd (offset : Nat) (source : Text) (tail : Option (List Mark))
  | stray (offset : Nat) (source : Text)

namespace Outline

def indent? : Outline → Option Nat
  | flat _ _ i _ _ => some i
  | block _ i _ _ => some i
  | map _ i _ => some i
  | sequence _ i _ => some i
  | flow opening _ _ => some opening.indent
  | stray _ => none

/-- Scalars, aliases and flow collections. -/
def isFlow : Outline → Bool
  | flat .. => true
  | flow .. => true
  | _ => false

def isBlockCollection : Outline → Bool
  | map .. => true
  | sequence .. => true
  | _ => false

/-- What follows a value on its line, where it keeps that at all. -/
def tail? : Outline → Option (List Mark)
  | flat _ _ _ _ tail => tail
  | flow _ _ tail => some tail
  | _ => none

/-- Adds to what follows a value on its line. -/
def extendTail (more : List Mark) : Outline → Outline
  | flat kind offset indent source tail => flat kind offset indent source (some (tail.getD [] ++ more))
  | flow opening items tail => flow opening items (tail ++ more)
  | o => o

end Outline

def includes (kind : Kind) (marks : List Mark) : Bool :=
  marks.any fun m => m.kind == kind

/-- White space, comments and line ends. -/
def Kind.isEmpty : Kind → Bool
  | .space => true
  | .comment => true
  | .newline => true
  | _ => false

def allEmpty (marks : List Mark) : Bool :=
  marks.all fun m => m.kind.isEmpty

end Calculator.Yaml
