import Calculator.Text.Units

/-!
The pieces a document text is cut into. What a piece is can be told from its text alone, except for
the content of plain and block scalars, which the scanner marks.
-/
namespace Calculator.Yaml

inductive Kind where
  | byteOrderMark
  | documentStart
  | documentEnd
  | newline
  | sequenceItem
  | explicitKey
  | mapValue
  | mapOpen
  | mapClose
  | sequenceOpen
  | sequenceClose
  | comma
  | space
  | comment
  | directive
  | reference
  | anchor
  | tag
  | singleQuoted
  | doubleQuoted
  | blockHeader
  | scalar
  | flowBroken
  | stray
  deriving DecidableEq

inductive Lexeme where
  /-- A document begins here, with or without a marker. -/
  | content
  /-- A flow collection ends here because its lines are not indented enough. -/
  | flowBroken
  /-- The content of a plain or block scalar. -/
  | scalar (source : Text)
  | piece (source : Text)

/-- What a piece is, told by its whole text or else by its first unit. -/
def Kind.ofPiece (source : Text) : Kind :=
  if source = [0xFEFF] then byteOrderMark
  else if source = "---" then documentStart
  else if source = "..." then documentEnd
  else if source = "" ∨ source = "\n" ∨ source = "\r\n" then newline
  else if source = "-" then sequenceItem
  else if source = "?" then explicitKey
  else if source = ":" then mapValue
  else if source = "\x7b" then mapOpen
  else if source = "\x7d" then mapClose
  else if source = "[" then sequenceOpen
  else if source = "]" then sequenceClose
  else if source = "," then comma
  else
    let first := source.headD 0
    if first = 0x20 ∨ first = 0x09 then space
    else if first = Text.code '#' then comment
    else if first = Text.code '%' then directive
    else if first = Text.code '*' then reference
    else if first = Text.code '&' then anchor
    else if first = Text.code '!' then tag
    else if first = Text.code '\'' then singleQuoted
    else if first = Text.code '"' then doubleQuoted
    else if first = Text.code '|' ∨ first = Text.code '>' then blockHeader
    else stray

/-- A piece in its place, with the indentation of the line up to it. -/
structure Mark where
  kind : Kind
  offset : Nat
  indent : Nat
  source : Text
  deriving DecidableEq

def Mark.stop (m : Mark) : Nat :=
  m.offset + m.source.length

end Calculator.Yaml
