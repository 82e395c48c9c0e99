import Calculator.Number.Decimal
import Calculator.Yaml.Checked

/-!
The text of plain and quoted scalars. A line end within one is a space, and every further line end in a
row is kept.
-/
namespace Calculator.Yaml

def isSpaceOrTab (u : CodeUnit) : Bool :=
  u == 0x20 || u == 0x09

def dropSpaces (t : Text) : Text :=
  t.dropWhile isSpaceOrTab

def dropLastSpaces (t : Text) : Text :=
  (t.reverse.dropWhile isSpaceOrTab).reverse

/-- The part before the first line end, and the part behind it. -/
def splitLine? : Text → Option (Text × Text)
  | [] => none
  | 0x0A :: rest => some ([], rest)
  | 0x0D :: 0x0A :: rest => some ([], rest)
  | u :: rest => (splitLine? rest).map fun (line, after) => (u :: line, after)

/-- Joins the lines behind the first: `separator` is what the next line that is not empty needs. -/
def foldRest : Nat → (separator : Text) → Text → Text
  | 0, separator, t => separator ++ dropSpaces t
  | fuel + 1, separator, t =>
    match splitLine? t with
    | none => separator ++ dropSpaces t
    | some (line, rest) =>
      let line := dropLastSpaces (dropSpaces line)
      if line = [] then
        if separator = "\n" then separator ++ foldRest fuel separator rest
        else foldRest fuel "\n" rest
      else separator ++ line ++ foldRest fuel " " rest

/-- Joins the lines of a plain or single-quoted scalar. -/
def foldLines (t : Text) : Text :=
  match splitLine? t with
  | none => t
  | some (line, rest) => dropLastSpaces line ++ foldRest t.length " " rest

/-- Units that no plain scalar begins with. -/
def isReservedStart (u : CodeUnit) : Bool :=
  u == 0x09 || (",%|>@" : Text).contains u || u == 0x60

def plainText (offset : Nat) (source : Text) : Checked Text := do
  if (source.head?.map isReservedStart).getD false then Checked.wrongAt offset
  pure (foldLines source)

/-- Whether a quoted source ends in its quote, and not with the opening one. -/
def isClosed (quote : Char) (source : Text) : Bool :=
  source.length != 1 && source.getLast? == some (Text.code quote)

/-- What stands between the first unit and the last. -/
def inner (source : Text) : Text :=
  (source.drop 1).dropLast

/-- A doubled quote stands for one. -/
def undoubleQuotes : Text → Text
  | 0x27 :: 0x27 :: rest => 0x27 :: undoubleQuotes rest
  | u :: rest => u :: undoubleQuotes rest
  | [] => []

def singleQuotedText (offset : Nat) (source : Text) : Checked Text := do
  if !isClosed '\'' source then Checked.wrongAt (offset + source.length)
  pure (undoubleQuotes (foldLines (inner source)))

/-- What one unit behind a backslash stands for. -/
def simpleEscape? (u : CodeUnit) : Option CodeUnit :=
  (([('0', 0x00), ('a', 0x07), ('b', 0x08), ('e', 0x1B), ('f', 0x0C), ('n', 0x0A), ('r', 0x0D),
    ('t', 0x09), ('v', 0x0B), ('N', 0x85), ('_', 0xA0), ('L', 0x2028), ('P', 0x2029), (' ', 0x20),
    ('"', 0x22), ('/', 0x2F), ('\\', 0x5C), ('\t', 0x09)] : List (Char × CodeUnit)).find?
      fun (c, _) => Text.code c == u).map Prod.snd

/-- How many hexadecimal digits follow, for the escapes that have any. -/
def escapeLength? (u : CodeUnit) : Option Nat :=
  if u = Text.code 'x' then some 2
  else if u = Text.code 'u' then some 4
  else if u = Text.code 'U' then some 8
  else none

/-- The text of a code point; halves of a surrogate pair stand for themselves. -/
def ofCodePoint? (n : Nat) : Option Text :=
  if n < 0x10000 then some [n.toUInt16]
  else if n < 0x110000 then some (Text.ofChar (Char.ofNat n))
  else none

def ofHexEscape? (length : Nat) (digits : Text) : Option Text :=
  if digits.length = length then
    (Binary64.readInBase? 16 digits).bind ofCodePoint?
  else none

/-- The line ends that follow a line end, white space left out, and what comes behind them. -/
def foldNewlines : Text → Text × Text
  | [] => ([], [])
  | 0x0D :: 0x0A :: rest =>
    let (fold, after) := foldNewlines rest
    (0x0A :: fold, after)
  | u :: rest =>
    if u = 0x0A then
      let (fold, after) := foldNewlines rest
      (0x0A :: fold, after)
    else if isSpaceOrTab u then foldNewlines rest
    else ([], u :: rest)

def startsWithNewline : Text → Bool
  | 0x0A :: _ => true
  | 0x0D :: 0x0A :: _ => true
  | _ => false

/-- The text of a double-quoted scalar behind its opening quote. The last unit is looked at but is no
part of the text. -/
def unescape (stop : Nat) : Nat → Text → Checked Text
  | 0, _ => pure []
  | fuel + 1, t =>
    match t with
    | [] => pure []
    | [_] => pure []
    | u :: v :: rest =>
      if u = 0x0D ∧ v = 0x0A then unescape stop fuel (v :: rest)
      else if u = 0x0A then do
        let (fold, after) := foldNewlines (v :: rest)
        return (if fold = [] then [0x20] else fold) ++ (← unescape stop fuel after)
      else if u = Text.code '\\' then
        match simpleEscape? v, escapeLength? v with
        | some w, _ => return w :: (← unescape stop fuel rest)
        | none, some length => do
          let digits := rest.take length
          let text ← match ofHexEscape? length digits with
            | some text => pure text
            | none => do
              Checked.wrongAt (stop - t.length)
              pure (u :: v :: digits)
          return text ++ (← unescape stop fuel (rest.drop length))
        | none, none => do
          if v = 0x0A then unescape stop fuel (dropSpaces rest)
          else if v = 0x0D ∧ rest.head? = some 0x0A then unescape stop fuel (dropSpaces (rest.drop 1))
          else
            Checked.wrongAt (stop - t.length)
            return u :: v :: (← unescape stop fuel rest)
      else if isSpaceOrTab u then do
        let spaces := t.takeWhile isSpaceOrTab
        let after := t.dropWhile isSpaceOrTab
        if startsWithNewline after then unescape stop fuel after
        else return spaces ++ (← unescape stop fuel after)
      else return u :: (← unescape stop fuel (v :: rest))

def doubleQuotedText (offset : Nat) (source : Text) : Checked Text := do
  let text ← unescape (offset + source.length) source.length (source.drop 1)
  if !isClosed '"' source then Checked.wrongAt (offset + source.length)
  pure text

end Calculator.Yaml
