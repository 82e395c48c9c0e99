import Calculator.Yaml.Lexeme

/-!
Cutting a document text into pieces. The scanner knows as much of the structure as it needs to see where
a scalar ends: how deep it stands in flow collections and which indentation the next line must have.
-/
namespace Calculator.Yaml

abbrev Source := Array CodeUnit

namespace Source

def slice (src : Source) (start stop : Nat) : Text :=
  (src.extract start stop).toList

def is (src : Source) (i : Nat) (c : Char) : Bool :=
  src[i]? == some (Text.code c)

/-- The first position from `i` on where the test fails or the text ends. -/
def skipWhile (src : Source) (test : CodeUnit → Bool) (i : Nat) : Nat :=
  if h : i < src.size then
    if test src[i] then skipWhile src test (i + 1) else i
  else i
termination_by src.size - i

/-- The first position from `i` on that holds the given unit. -/
def find? (src : Source) (u : CodeUnit) (i : Nat) : Option Nat :=
  let j := src.skipWhile (· != u) i
  if j < src.size then some j else none

/-- The last position up to `i` that holds no space, or the first position. -/
def backOverSpaces (src : Source) : Nat → Nat
  | 0 => 0
  | i + 1 => if src.is (i + 1) ' ' then backOverSpaces src i else i + 1

/-- How many times a unit stands immediately before a position. -/
def countBefore (src : Source) (u : CodeUnit) : Nat → Nat
  | 0 => 0
  | i + 1 => if src[i]? == some u then countBefore src u i + 1 else 0

end Source

/-- White space and the end of the text. -/
def isGap : Option CodeUnit → Bool
  | none => true
  | some u => u == 0x20 || u == 0x0A || u == 0x0D || u == 0x09

def isFlowIndicator (u : CodeUnit) : Bool :=
  u == Text.code ',' || u == Text.code '[' || u == Text.code ']' || u == 0x7B || u == 0x7D

def isFlowIndicator? : Option CodeUnit → Bool
  | none => false
  | some u => isFlowIndicator u

def endsAnchor (u : CodeUnit) : Bool :=
  isGap (some u) || isFlowIndicator u

def isHexDigit (u : CodeUnit) : Bool :=
  Text.isDigit u || (0x41 ≤ u && u ≤ 0x46) || (0x61 ≤ u && u ≤ 0x66)

def isTagUnit (u : CodeUnit) : Bool :=
  Text.isDigit u || Text.isLetter u || ("-#;/?:@&=+$_.!~*'()" : Text).contains u

structure Scan where
  pos : Nat
  /-- The indentation that a further line of the current value needs. -/
  indentNext : Nat
  indentValue : Nat
  flowLevel : Nat
  /-- Whether the last thing in a flow collection can be a key without space behind its colon. -/
  flowKey : Bool
  /-- The pieces so far, the last one first. -/
  pieces : List Lexeme

inductive ScanMode where
  | stream
  | content
  | flow

namespace Scan

variable (src : Source)

def emit (lexeme : Lexeme) (s : Scan) : Scan :=
  { s with pieces := lexeme :: s.pieces }

/-- Cuts a piece up to a position, if there is anything in it. -/
def cutTo (stop : Nat) (s : Scan) : Scan :=
  let stop := min stop src.size
  if s.pos < stop then { s with pos := stop, pieces := .piece (src.slice s.pos stop) :: s.pieces } else s

def cut (count : Nat) (s : Scan) : Scan :=
  cutTo src (s.pos + count) s

/-- Cuts the content of a scalar, also an empty one. -/
def cutScalar (stop : Nat) (s : Scan) : Scan :=
  let stop := min stop src.size
  { s with pos := max s.pos stop, pieces := .scalar (src.slice s.pos stop) :: s.pieces }

def cutNewline (s : Scan) : Scan :=
  if src.is s.pos '\n' then cut src 1 s
  else if src.is s.pos '\r' && src.is (s.pos + 1) '\n' then cut src 2 s
  else s

def isSpaceUnit (tabs : Bool) (u : CodeUnit) : Bool :=
  u == 0x20 || (tabs && u == 0x09)

def cutSpaces (tabs : Bool) (s : Scan) : Scan :=
  cutTo src (src.skipWhile (isSpaceUnit tabs) s.pos) s

/-- Where the line at the current position ends, its line end not counted. -/
def lineStop (s : Scan) : Nat :=
  match src.find? 0x0A s.pos with
  | none => src.size
  | some i => if s.pos < i && src.is (i - 1) '\r' then i - 1 else i

/-- Where a scalar goes on from the start of a further line, if it does. -/
def continuation? (s : Scan) (offset : Nat) : Option Nat :=
  if 0 < s.indentNext then
    let i := src.skipWhile (isSpaceUnit false) offset
    if src.is i '\r' && src.is (i + 1) '\n' then some (i + 1)
    else if src.is i '\n' || s.indentNext ≤ i - offset then some i
    else none
  else
    let dots := src.slice offset (offset + 3)
    if (dots = "---" ∨ dots = "...") ∧ isGap src[offset + 3]? then none else some offset

/-- Whether only white space and a comment are left on the line. -/
def atLineEnd (s : Scan) : Bool :=
  let i := src.skipWhile (isSpaceUnit true) s.pos
  match src[i]? with
  | none => true
  | some u => u == Text.code '#' || u == 0x0A || (u == 0x0D && src.is (i + 1) '\n')

/-- Indicators of block structure at the front of a line, each with the spaces behind it. -/
def blockStart : Nat → Scan → Scan
  | 0, s => s
  | fuel + 1, s =>
    if (src.is s.pos '-' || src.is s.pos '?' || src.is s.pos ':') && isGap src[s.pos + 1]? then
      let t := cutSpaces src true (cut src 1 s)
      blockStart fuel
        { t with indentNext := s.indentValue + 1, indentValue := s.indentValue + (t.pos - s.pos) }
    else s

def lineStart (s : Scan) : Scan × ScanMode :=
  let dots := src.slice s.pos (s.pos + 3)
  if (dots = "---" ∨ dots = "...") ∧ isGap src[s.pos + 3]? then
    ({ cut src 3 s with indentValue := 0, indentNext := 0 }, if dots = "---" then .content else .stream)
  else
    let t := cutSpaces src false s
    let indent := t.pos - s.pos
    let next := if indent < t.indentNext && !isGap src[t.pos + 1]? then indent else t.indentNext
    (blockStart src src.size { t with indentValue := indent, indentNext := next }, .content)

/-- Where the parameters of a directive end: before a comment and the spaces around. -/
def directiveStop (s : Scan) : Nat :=
  let stop := lineStop src s
  let comment := (List.range (stop - s.pos)).find? fun i =>
    src.is (s.pos + i) '#' && 0 < i && (src.is (s.pos + i - 1) ' ' || src.is (s.pos + i - 1) '\t')
  let stop := match comment with
    | some i => s.pos + i
    | none => stop
  let length := ((src.slice s.pos stop).reverse.dropWhile (isSpaceUnit true)).length
  s.pos + length

def stream (s : Scan) : Scan × ScanMode :=
  let s := if src[s.pos]? == some 0xFEFF then cut src 1 s else s
  if src.is s.pos '%' then
    let stop := lineStop src s
    (cutTo src stop (cutSpaces src true (cutTo src (directiveStop src s) s)), .stream)
  else if atLineEnd src s then
    let stop := lineStop src s
    (cutNewline src (cutTo src stop (cutSpaces src true s)), .stream)
  else lineStart src (s.emit .content)

def tagStop (s : Scan) : Nat :=
  if src.is (s.pos + 1) '<' then
    let i := src.skipWhile (fun u => !isGap (some u) && u != Text.code '>') (s.pos + 2)
    if src.is i '>' then i + 1 else i
  else go src.size (s.pos + 1)
where
  go : Nat → Nat → Nat
    | 0, i => i
    | fuel + 1, i =>
      match src[i]? with
      | none => i
      | some u =>
        if isTagUnit u then go fuel (i + 1)
        else if u = Text.code '%' ∧ (src[i + 1]?.map isHexDigit).getD false
            ∧ (src[i + 2]?.map isHexDigit).getD false then go fuel (i + 3)
        else i

/-- Tags, anchors and indicators in front of a value, each with the spaces behind it. -/
def indicators : Nat → Scan → Scan
  | 0, s => s
  | fuel + 1, s =>
    if src.is s.pos '!' then indicators fuel (cutSpaces src true (cutTo src (tagStop src s) s))
    else if src.is s.pos '&' then
      indicators fuel (cutSpaces src true (cutTo src (src.skipWhile (!endsAnchor ·) s.pos) s))
    else if src.is s.pos '-' || src.is s.pos '?' || src.is s.pos ':' then
      let inFlow := 0 < s.flowLevel
      let next := src[s.pos + 1]?
      if isGap next || (inFlow && isFlowIndicator? next) then
        let t := if inFlow then { s with flowKey := false } else { s with indentNext := s.indentValue + 1 }
        indicators fuel (cutSpaces src true (cut src 1 t))
      else s
    else s

/-- The mode that reading goes on in after a value. -/
def modeAfterValue (s : Scan) : ScanMode :=
  if 0 < s.flowLevel then .flow else .content

/-- The quote that closes a single-quoted scalar; a doubled quote does not. -/
def singleQuoteStop? : Nat → Nat → Option Nat
  | 0, _ => none
  | fuel + 1, i =>
    match src.find? (Text.code '\'') i with
    | none => none
    | some j => if src.is (j + 1) '\'' then singleQuoteStop? fuel (j + 2) else some j

/-- The quote that closes a double-quoted scalar; one behind an odd number of backslashes does not. -/
def doubleQuoteStop? : Nat → Nat → Option Nat
  | 0, _ => none
  | fuel + 1, i =>
    match src.find? (Text.code '"') i with
    | none => none
    | some j =>
      if src.countBefore (Text.code '\\') j % 2 = 0 then some j else doubleQuoteStop? fuel (j + 1)

/-- The first line end before `stop` behind which a quoted scalar does not go on. -/
def unindented? (s : Scan) (stop : Nat) : Nat → Nat → Option Nat
  | 0, _ => none
  | fuel + 1, i =>
    match src.find? 0x0A i with
    | none => none
    | some j =>
      if stop ≤ j then none
      else
        match continuation? src s (j + 1) with
        | none => some j
        | some k => unindented? s stop fuel k

def quoted (s : Scan) : Scan × ScanMode :=
  let close := if src.is s.pos '\'' then singleQuoteStop? src src.size (s.pos + 1)
    else doubleQuoteStop? src src.size (s.pos + 1)
  let stop := match close with
    | none => src.size
    | some stop =>
      match unindented? src s stop src.size s.pos with
      | none => stop + 1
      | some j => if src.is (j - 1) '\r' then j - 1 else j
  (cutTo src stop s, modeAfterValue s)

/-- Where a plain scalar ends: `stop` is behind its last unit so far, `i` the next unit looked at. -/
def plainStop (s : Scan) : Nat → Nat → Nat → Nat
  | 0, stop, _ => stop
  | fuel + 1, stop, i =>
    match src[i]? with
    | none => stop
    | some u =>
      let inFlow := 0 < s.flowLevel
      if u = Text.code ':' then
        let next := src[i + 1]?
        if isGap next || (inFlow && isFlowIndicator? next) then stop
        else plainStop s fuel (i + 1) (i + 1)
      else if isGap (some u) then
        let lineEnd := u = 0x0D ∧ src.is (i + 1) '\n'
        let stop := if u = 0x0D ∧ ¬ lineEnd then i + 1 else stop
        let i := if lineEnd then i + 1 else i
        let next := src[i + 1]?
        if next == some (Text.code '#') || (inFlow && isFlowIndicator? next) then stop
        else if src.is i '\n' then
          match continuation? src s (i + 1) with
          | none => stop
          | some k => plainStop s fuel stop (max i (k - 2) + 1)
        else plainStop s fuel stop (i + 1)
      else if inFlow && isFlowIndicator u then stop
      else plainStop s fuel (i + 1) (i + 1)

def plain (s : Scan) : Scan × ScanMode :=
  (cutScalar src (plainStop src s (src.size + 1) s.pos s.pos) s, modeAfterValue s)

/-- What the header of a block scalar says: its own indentation, if given, and whether trailing empty
lines are kept. -/
structure Header where
  indent : Option Nat
  keep : Bool

def readHeader : Nat → Nat → Header → Header
  | 0, _, h => h
  | fuel + 1, i, h =>
    match src[i]? with
    | none => h
    | some u =>
      if u = Text.code '+' then readHeader fuel (i + 1) { h with keep := true }
      else if Text.isDigit u && u != 0x30 then
        readHeader fuel (i + 1) { h with indent := some (u.toNat - 0x31) }
      else if u = Text.code '-' then readHeader fuel (i + 1) h
      else h

/-- The empty lines a block scalar begins with: the last line end among them, and the indentation of the
line after it. -/
def leadingLines : Nat → (i lineEnd indent : Nat) → Nat × Nat
  | 0, _, lineEnd, indent => (lineEnd, indent)
  | fuel + 1, i, lineEnd, indent =>
    if src.is i ' ' then leadingLines fuel (i + 1) lineEnd (indent + 1)
    else if src.is i '\n' then leadingLines fuel (i + 1) i 0
    else if src.is i '\r' && src.is (i + 1) '\n' then leadingLines fuel (i + 1) lineEnd indent
    else (lineEnd, indent)

/-- The line end of the last line that is indented enough, or the end of the text. -/
def lastIndented (s : Scan) : Nat → Nat → Nat
  | 0, lineEnd => lineEnd
  | fuel + 1, lineEnd =>
    match continuation? src s (lineEnd + 1) with
    | none => lineEnd
    | some k =>
      match src.find? 0x0A k with
      | none => src.size
      | some j => lastIndented s fuel j

/-- Drops trailing empty lines that are not more indented. -/
def dropEmptyLines (s : Scan) (indent : Nat) : Nat → Nat → Nat
  | 0, lineEnd => lineEnd
  | fuel + 1, lineEnd =>
    let last := lineEnd - 1
    let last := if src.is last '\r' then last - 1 else last
    let i := src.backOverSpaces last
    if src.is i '\n' && s.pos ≤ i && last < i + 1 + indent then dropEmptyLines s indent fuel i
    else lineEnd

def blockScalar (h : Header) (s : Scan) : Scan × ScanMode :=
  let (lineEnd, indent) := leadingLines src (src.size + 1) s.pos (s.pos - 1) 0
  let indented := s.indentNext ≤ indent
  let s :=
    if indented then
      { s with indentNext := match h.indent with
        | none => indent
        | some n => n + (if s.indentNext = 0 then 1 else s.indentNext) }
    else s
  let lineEnd := if indented then lastIndented src s src.size lineEnd else lineEnd
  let i := src.skipWhile (isSpaceUnit false) (lineEnd + 1)
  let lineEnd :=
    if src.is i '\t' then src.skipWhile (fun u => isGap (some u)) i - 1
    else if h.keep then lineEnd
    else dropEmptyLines src s indent src.size lineEnd
  lineStart src (cutScalar src (lineEnd + 1) s)

/-- A block scalar with its header and the rest of the header's line. -/
def block (s : Scan) : Scan × ScanMode :=
  let stop := lineStop src s
  let header := readHeader src src.size (s.pos + 1) ⟨none, false⟩
  let afterHeader := src.skipWhile (fun u => !isGap (some u) && u != Text.code '#') s.pos
  let s := cutSpaces src true (cutTo src afterHeader s)
  blockScalar src header (cutNewline src (cutTo src stop s))

/-- A value of block structure, or what is left of the line. -/
def content (s : Scan) : Scan × ScanMode :=
  let s := cutSpaces src true s
  let stop := lineStop src s
  let s := indicators src src.size s
  if stop ≤ s.pos then lineStart src (cutNewline src s)
  else if src.is s.pos '#' then lineStart src (cutNewline src (cutTo src stop s))
  else
    match src[s.pos]? with
    | none => (s, .content)
    | some u =>
      if u = 0x7B ∨ u = Text.code '[' then ({ cut src 1 s with flowKey := false, flowLevel := 1 }, .flow)
      else if u = 0x7D ∨ u = Text.code ']' then (cut src 1 s, .content)
      else if u = Text.code '*' then (cutTo src (src.skipWhile (!endsAnchor ·) s.pos) s, .content)
      else if u = Text.code '"' ∨ u = Text.code '\'' then quoted src s
      else if u = Text.code '|' ∨ u = Text.code '>' then block src s
      else plain src s

/-- Line ends and spaces within a flow collection, and the indentation of the last line if one ended. -/
def flowSpace : Nat → Option Nat → Scan → Scan × Option Nat
  | 0, indent, s => (s, indent)
  | fuel + 1, indent, s =>
    let t := cutNewline src s
    if s.pos < t.pos then
      let u := cutSpaces src false t
      let indent := u.pos - t.pos
      flowSpace fuel (some indent) (cutSpaces src true { u with indentValue := indent })
    else
      let u := cutSpaces src true s
      if s.pos < u.pos then flowSpace fuel indent u else (s, indent)

def commas : Nat → Scan → Scan
  | 0, s => s
  | fuel + 1, s =>
    if src.is s.pos ',' then commas fuel { cutSpaces src true (cut src 1 s) with flowKey := false } else s

/-- Whether the line breaks a flow collection off: it is not indented enough or marks a document. The
closing bracket itself may stand one column less. -/
def breaksFlow (s : Scan) (indent : Nat) : Bool :=
  let dots := src.slice s.pos (s.pos + 3)
  let outside := indent < s.indentNext && !src.is s.pos '#'
  let marker := indent == 0 && decide (dots = "---" ∨ dots = "...") && isGap src[s.pos + 3]?
  let closing := indent + 1 == s.indentNext && s.flowLevel == 1
    && (src.is s.pos ']' || src[s.pos]? == some 0x7D)
  (outside || marker) && !closing

def flow (s : Scan) : Scan × ScanMode :=
  let (s, indent) := flowSpace src (src.size + 1) none s
  if (indent.map (breaksFlow src s)).getD false then
    lineStart src ({ s with flowLevel := 0 }.emit .flowBroken)
  else
    let stop := lineStop src s
    let s := indicators src src.size (commas src src.size s)
    if stop ≤ s.pos then (s, .flow)
    else
      match src[s.pos]? with
      | none => (s, .flow)
      | some u =>
        if u = Text.code '#' then (cutTo src stop s, .flow)
        else if u = 0x7B ∨ u = Text.code '[' then
          ({ cut src 1 s with flowKey := false, flowLevel := s.flowLevel + 1 }, .flow)
        else if u = 0x7D ∨ u = Text.code ']' then
          let t := { cut src 1 s with flowKey := true, flowLevel := s.flowLevel - 1 }
          (t, modeAfterValue t)
        else if u = Text.code '*' then (cutTo src (src.skipWhile (!endsAnchor ·) s.pos) s, .flow)
        else if u = Text.code '"' ∨ u = Text.code '\'' then quoted src { s with flowKey := true }
        else
          let next := src[s.pos + 1]?
          if u = Text.code ':' ∧ (s.flowKey ∨ isGap next ∨ next = some (Text.code ',')) then
            (cutSpaces src true (cut src 1 { s with flowKey := false }), .flow)
          else plain src { s with flowKey := false }

def run : Nat → ScanMode → Scan → Scan
  | 0, _, s => s
  | fuel + 1, mode, s =>
    if s.pos < src.size then
      let (t, next) := match mode with
        | .stream => stream src s
        | .content => content src s
        | .flow => flow src s
      run fuel next t
    else s

end Scan

/-- The pieces of a text, in order. -/
def scan (t : Text) : List Lexeme :=
  let src : Source := t.toArray
  (Scan.run src (4 * src.size + 4) .stream ⟨0, 0, 0, 0, false, []⟩).pieces.reverse

end Calculator.Yaml
