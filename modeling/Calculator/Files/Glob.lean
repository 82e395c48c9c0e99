import Calculator.Files.Path
import Calculator.Files.RegexReader

/-!
Patterns for paths. A star stands for any part of a component and two stars for any number of
components; neither begins with a dot unless hidden names are allowed. A pattern is written as a regular
expression from left to right, and what is no regular expression in the end matches nothing.
-/
namespace Calculator.Glob

/-! ### Pieces of regular expressions -/

def slash : Text := "\\/"

def literalDot : Text := "\\."

/-- Anything follows. -/
def something : Text := "(?=.)"

/-- One unit of a component. -/
def anyUnit : Text := "[^/]"

/-- Any part of a component. -/
def star : Text := "[^/]*?"

/-- No dot follows. -/
def noDot : Text := "(?!\\.)"

/-- One or two dots that are a whole component. -/
def dotsOnly : Text := "\\.\x7b1,2\x7d(?:\\/|$)"

/-- Neither the end of the component nor a dot that ends it follows. -/
def noDotEnd : Text := "(?!\\.\x7b0,1\x7d(?:\\/|$))"

/-- What a name must not begin with, at the front of a name. -/
def noHidden (hidden : Bool) : Text :=
  if hidden then "(?!" ++ dotsOnly ++ ")" else noDot

/-- One unit where a name begins. -/
def firstUnit (hidden : Bool) : Text :=
  if hidden then anyUnit else "[^.\\/]"

/-- Any part of a path that enters no hidden name. -/
def globstar (hidden : Bool) : Text :=
  "(?:(?:(?!(?:^|\\/)" ++ (if hidden then dotsOnly else literalDot) ++ ").)*?)"

/-- Units with a meaning in regular expressions. -/
def isSpecial (u : CodeUnit) : Bool :=
  ("-*+?.^$(|)[]" : Text).contains u || u == 0x7B || u == 0x7D

/-- A text that stands for itself. -/
def escape (t : Text) : Text :=
  t.flatMap fun u => if isSpecial u then [0x5C, u] else [u]

/-- The members of the classes of units that have a name. -/
def namedClass? (name : Text) : Option Text :=
  ([ ("alnum", "a-zA-Z0-9"),
    ("alpha", "a-zA-Z"),
    ("ascii", "\\x00-\\x7F"),
    ("blank", " \\t"),
    ("cntrl", "\\x00-\\x1F\\x7F"),
    ("digit", "0-9"),
    ("graph", "\\x21-\\x7E"),
    ("lower", "a-z"),
    ("print", "\\x20-\\x7E "),
    ("punct", "\\-!\"#$%&'()\\*+,./:;<=>?@[\\]^_\x60\x7b|\x7d~"),
    ("space", " \\t\\r\\n\\v\\f"),
    ("upper", "A-Z"),
    ("word", "A-Za-z0-9_"),
    ("xdigit", "A-Fa-f0-9") ] : List (Text × Text)).lookup name

/-! ### Drafts -/

inductive Kind where
  /-- Before everything else. -/
  | front
  | text
  | star
  | globstar
  | slash
  | dot
  | dots
  | round
  | square
  | brace
  | comma
  | at
  | other
  deriving DecidableEq

structure Token where
  kind : Kind
  /-- As it is in the pattern. -/
  value : Text
  /-- As it is in the regular expression, if that is different. -/
  output : Option Text
  /-- Stars in a row that stand for one. -/
  isRun : Bool
  /-- A set that may hold a class with a name. -/
  isNamed : Bool

namespace Token

def front : Token := ⟨.front, [], some [], false, false⟩

def plain (kind : Kind) (value : Text) : Token := ⟨kind, value, none, false, false⟩

def written (kind : Kind) (value output : Text) : Token := ⟨kind, value, some output, false, false⟩

/-- What stands in the regular expression. -/
def shown (t : Token) : Text := t.output.getD t.value

def addOutput (t : Token) (more : Text) : Token :=
  { t with output := some (t.output.getD [] ++ more) }

end Token

/-- A group of alternatives that is open. -/
structure Group where
  isExcluding : Bool
  /-- What ends it. -/
  closing : Text
  /-- The text within it. -/
  inner : Text
  /-- How many round brackets are open before it. -/
  depth : Int

/-- A brace that is open. -/
structure OpenBrace where
  /-- The length of the output before it. -/
  outputLength : Nat
  /-- The number of tokens before it. -/
  tokenCount : Nat
  hasComma : Bool
  hasDots : Bool

structure Draft where
  /-- The newest token first. -/
  tokens : List Token
  output : Text
  /-- The output no longer agrees with the tokens, which then decide. -/
  isStale : Bool
  isNegated : Bool
  inSquare : Bool
  inQuotes : Bool
  /-- Open round brackets; below zero if too many are closed. -/
  depth : Int
  /-- The kinds of all that is open, the innermost first. -/
  opened : List Kind
  groups : List Group
  braces : List OpenBrace
  /-- Where the pattern begins, signs before it aside. -/
  start : Nat

namespace Draft

def empty : Draft := ⟨[.front], [], false, false, false, false, 0, [], [], [], 0⟩

def last (d : Draft) : Token :=
  d.tokens.head?.getD .front

def updateLast (d : Draft) (change : Token → Token) : Draft :=
  match d.tokens with
  | [] => d
  | t :: rest => { d with tokens := change t :: rest }

def addOutput (d : Draft) (more : Text) : Draft :=
  { d with output := d.output ++ more }

/-- Takes so many units away from the end of the output. -/
def dropOutput (d : Draft) (count : Nat) : Draft :=
  { d with output := d.output.take (d.output.length - count) }

/-- Two stars are only more than one where a component ends behind them. -/
def settleGlobstar (d : Draft) (next : Token) : Draft :=
  let staysOpen := next.kind = .slash ∨ next.kind = .round ∨ next.kind = .at
    ∨ (d.braces ≠ [] ∧ (next.kind = .comma ∨ next.kind = .brace))
  if d.last.kind = .globstar ∧ ¬ staysOpen then
    ((d.dropOutput (d.last.output.getD []).length).updateLast fun t =>
      { t with kind := .star, value := "*", output := some star }).addOutput star
  else d

/-- The innermost group keeps the text within it. -/
def addInner (d : Draft) (next : Token) : Draft :=
  match d.groups with
  | [] => d
  | g :: rest =>
    if next.kind = .round then d else { d with groups := { g with inner := g.inner ++ next.value } :: rest }

/-- Adds a token. Text is joined with text before it. -/
def push (d : Draft) (token : Token) : Draft :=
  let d := ((d.settleGlobstar token).addInner token).addOutput token.shown
  if d.last.kind = .text ∧ token.kind = .text then
    d.updateLast fun t => { t.addOutput token.value with value := t.value ++ token.value }
  else { d with tokens := token :: d.tokens }

def openKind (d : Draft) (kind : Kind) : Draft :=
  { d with opened := kind :: d.opened }

def closeKind (d : Draft) : Draft :=
  { d with opened := d.opened.drop 1 }

/-! ### Escapes and sets -/

/-- Adds to the set that is being read. -/
def addToSquare (d : Draft) (value : Text) : Draft :=
  (d.updateLast fun t => { t with value := t.value ++ value }).addOutput value

/-- A backslash. It is dropped before a slash, a dot and a semicolon. -/
def stepEscape (d : Draft) (rest : Text) : Draft × Text :=
  match rest with
  | [] => (d.push (.plain .text "\\\\"), [])
  | next :: _ =>
    if next = 0x2F ∨ next = 0x2E ∨ next = 0x3B then (d, rest)
    else
      let count := (rest.takeWhile (· == 0x5C)).length
      let isLong := 2 < count
      let rest := if isLong then rest.drop count else rest
      let value := (if isLong ∧ count % 2 = 1 then "\\\\" else "\\") ++ rest.take 1
      (if d.inSquare then d.addToSquare value else d.push (.plain .text value), rest.drop 1)

/-- Nothing is in the set yet. -/
def isSquareEmpty (d : Draft) : Bool :=
  d.last.value == ("[" : Text) || d.last.value == ("[^" : Text)

/-- The name of a class that a colon ends, with what is before it in the set. -/
def className? (value : Text) : Option (Text × Text) :=
  let inner := value.drop 1
  if inner.contains 0x5B ∧ inner.contains 0x3A then
    let behind := (value.reverse.takeWhile (· != 0x5B)).reverse
    (namedClass? (behind.drop 1)).map fun members =>
      (value.take (value.length - behind.length - 1), members)
  else none

/-- One unit within a set. -/
def stepInSquare (d : Draft) (u : CodeUnit) (rest : Text) : Draft × Text :=
  let d := if u = 0x3A ∧ (d.last.value.drop 1).contains 0x5B then
      d.updateLast fun t => { t with isNamed := true }
    else d
  match if u = 0x3A then className? d.last.value else none with
  | some (before, members) =>
    let d := d.updateLast fun t => { t with value := before ++ members }
    let tokens := match d.tokens with
      | [t, first] => if first.output = some [] then [t, { first with output := some something }]
        else [t, first]
      | tokens => tokens
    ({ d with isStale := true, tokens := tokens }, rest.drop 1)
  | none =>
    let next := rest.head?
    let value : Text :=
      if (u = 0x5B ∧ next ≠ some 0x3A) ∨ (u = 0x2D ∧ next = some 0x5D)
        ∨ (u = 0x5D ∧ d.isSquareEmpty) then [0x5C, u]
      else if u = 0x21 ∧ d.last.value = "[" then "^"
      else [u]
    (d.addToSquare value, rest)

/-- The end of a set. Where nothing in it is special, the brackets may also stand for themselves. -/
def closeSquare (d : Draft) : Draft :=
  let d := { d.closeKind with inSquare := false }
  let inside := d.last.value.drop 1
  let isNegated := !d.last.isNamed && inside.head? == some 0x5E && !inside.contains 0x2F
  let d := d.addToSquare (if isNegated then "/]" else "]")
  if inside.any isSpecial then d
  else
    let set := d.last.value
    let value := "(?:" ++ escape set ++ "|" ++ set ++ ")"
    ((d.dropOutput set.length).updateLast fun t => { t with value := value }).addOutput value

/-! ### Groups -/

/-- Opens a group of alternatives behind its sign. -/
def openGroup (d : Draft) (sign : CodeUnit) (opening closing : Text) : Draft :=
  let group : Group := ⟨sign == 0x21, closing, [], d.depth⟩
  let d := { d.openKind .round with depth := d.depth + 1 }
  let d := d.push (.written .other [sign] (if d.output = [] then something else []))
  let d := d.push (.written .round "(" opening)
  { d with groups := group :: d.groups }

/-- What ends a group, given what follows it. A group that excludes and is followed by a plain ending
excludes its alternatives with this ending only; `nested` writes the ending. -/
def groupClosing (hidden : Bool) (nested : Text → Text) (g : Group) (rest : Text) : Text :=
  if !g.isExcluding then g.closing
  else
    let any := if 1 < g.inner.length ∧ g.inner.contains 0x2F then globstar hidden else star
    let isEnding := rest.head? == some 0x2E && 1 < rest.length
      && (rest.drop 1).all fun u => u != 0x5C && u != 0x2F && u != 0x2E
    if g.inner.contains 0x2A ∧ isEnding then ")" ++ nested rest ++ ")" ++ any ++ ")"
    else if any ≠ star ∨ rest.all (· == 0x29) then ")$))" ++ any
    else g.closing

/-- A closing round bracket. -/
def closeRound (hidden : Bool) (nested : Text → Text) (d : Draft) (rest : Text) : Draft :=
  let plain := d.push (.written .round ")" (if d.depth = 0 then "\\)" else ")"))
  let d := match d.groups with
    | g :: outer =>
      if d.depth = g.depth + 1 then
        ({ d with groups := outer }).push (.written .round ")" (groupClosing hidden nested g rest))
      else plain
    | [] => plain
  { d.closeKind with depth := d.depth - 1 }

/-! ### Braces -/

def openBrace (d : Draft) : Draft :=
  let brace : OpenBrace := ⟨d.output.length, d.tokens.length, false, false⟩
  ({ d.openKind .brace with braces := brace :: d.braces }).push (.written .brace [0x7B] "(")

/-- A set from the least to the greatest of some texts, if that is a set. -/
def rangeSet (bounds : List Text) : Text :=
  let bounds := bounds.mergeSort Text.lessOrEqual
  let set := "[" ++ Text.join "-" bounds ++ "]"
  if (RegexReader.read? set).isSome then set else Text.join ".." (bounds.map escape)

/-- Ends a brace around dots: the tokens in it are bounds. -/
def closeRange (d : Draft) : Draft × Text :=
  let inside := d.tokens.takeWhile (·.kind != .brace)
  let bounds := ((inside.filter (·.kind != .dots)).map (·.value)).reverse
  ({ d with tokens := d.tokens.drop (inside.length + 1), isStale := true }, rangeSet bounds)

/-- Ends a brace that is neither list nor range, and stands for itself. -/
def closeLiteral (d : Draft) (brace : OpenBrace) : Draft :=
  let inside := d.tokens.take (d.tokens.length - brace.tokenCount)
  let inside := (inside.take (inside.length - 1))
    ++ (inside.drop (inside.length - 1)).map fun t =>
      { t with value := [0x5C, 0x7B], output := some [0x5C, 0x7B] }
  let written := inside.reverse.flatMap fun t => if t.shown = [] then t.value else t.shown
  { d with
    tokens := inside ++ d.tokens.drop inside.length
    output := d.output.take brace.outputLength ++ written }

def closeBrace (d : Draft) : Draft :=
  match d.braces with
  | [] => d.push (.written .text [0x7D] [0x7D])
  | brace :: outer =>
    let d :=
      if brace.hasDots then
        let (d, set) := d.closeRange
        d.push (.written .brace [0x7D] set)
      else if brace.hasComma then d.push (.written .brace [0x7D] ")")
      else (d.closeLiteral brace).push (.plain .brace [0x5C, 0x7D])
    { d.closeKind with braces := outer }

def updateBrace (d : Draft) (change : OpenBrace → OpenBrace) : Draft :=
  match d.braces with
  | [] => d
  | brace :: outer => { d with braces := change brace :: outer }

/-- A comma, which parts alternatives directly within a brace. -/
def stepComma (d : Draft) : Draft :=
  if d.braces ≠ [] ∧ d.opened.head? = some .brace then
    (d.updateBrace fun b => { b with hasComma := true }).push (.written .comma "," "|")
  else d.push (.plain .comma ",")

/-! ### Slashes, dots and marks -/

/-- A slash. One behind a dot at the very front goes with the dot. -/
def stepSlash (d : Draft) (place : Nat) : Draft :=
  if d.last.kind = .dot ∧ place = d.start + 1 then
    { d with start := place + 1, output := [], tokens := d.tokens.drop 1 }
  else d.push (.written .slash "/" slash)

def stepDot (d : Draft) : Draft :=
  if d.braces ≠ [] ∧ d.last.kind = .dot then
    let d := d.updateLast fun t =>
      let t := if t.value = "." then { t with output := some literalDot } else t
      { t.addOutput "." with kind := .dots, value := t.value ++ "." }
    d.updateBrace fun b => { b with hasDots := true }
  else
    let beginsName := d.last.kind = .front ∨ d.last.kind = .slash
    let isPlain := (d.braces.length : Int) + d.depth = 0 ∧ ¬ beginsName
    d.push (.written (if isPlain then .text else .dot) "." literalDot)

/-- Whether some part of a text opens a group that looks back or has a name. -/
def opensBehind (t : Text) : Bool :=
  (List.range t.length).any fun i =>
    match t.drop i with
    | 0x3C :: rest =>
      let name := rest.takeWhile Text.isWordUnit
      rest.head? = some 0x21 ∨ rest.head? = some 0x3D
        ∨ (name ≠ [] ∧ (rest.drop name.length).head? = some 0x3E)
    | _ => false

def isOneOf (units : Text) (u : Option CodeUnit) : Bool :=
  (u.map units.contains).getD false

/-- A question mark: the sign of a group, a sign of a regular expression, or any unit. -/
def stepMark (hidden : Bool) (d : Draft) (rest : Text) : Draft × Text :=
  let next := rest.head?
  let isBehindOpening := d.last.value == ("(" : Text)
  if !isBehindOpening ∧ next = some 0x28 ∧ rest[1]? ≠ some 0x3F then
    (d.openGroup 0x3F "(?:" ")?", rest.drop 1)
  else if d.last.kind = .round then
    let isLiteral := (isBehindOpening && !isOneOf "!=<:" next) || (next == some 0x3C && !opensBehind rest)
    (d.push (.written .text "?" (if isLiteral then "\\?" else "?")), rest)
  else
    let beginsName := d.last.kind = .slash ∨ d.last.kind = .front
    (d.push (.written .other "?" (if beginsName then firstUnit hidden else anyUnit)), rest)

/-- A plus sign, which repeats what is before it if that is in brackets. -/
def stepPlus (d : Draft) (rest : Text) : Draft × Text :=
  if rest.head? = some 0x28 ∧ rest[1]? ≠ some 0x3F then (d.openGroup 0x2B "(?:" ")+", rest.drop 1)
  else if d.last.value = "(" then (d.push (.written .other "+" "\\+"), rest)
  else if d.last.kind = .square ∨ d.last.kind = .round ∨ d.last.kind = .brace ∨ 0 < d.depth then
    (d.push (.plain .other "+"), rest)
  else (d.push (.plain .other "\\+"), rest)

/-- So many exclamation marks at the very front. An odd number of them negates the pattern. -/
def negate (d : Draft) (count : Nat) : Draft :=
  if count % 2 = 0 then { d with start := count - 1 }
  else { d with start := count, isNegated := true }

/-- Counts exclamation marks, the sign of a group aside. -/
def stepNegation (d : Draft) : (count : Nat) → Text → Draft × Text
  | count, 0x21 :: rest =>
    if rest.head? ≠ some 0x28 ∨ rest[1]? = some 0x3F then d.stepNegation (count + 1) rest
    else (d.negate count, 0x21 :: rest)
  | count, rest => (d.negate count, rest)

/-- Units that end a run of plain text. -/
def endsText (u : CodeUnit) : Bool :=
  ("@![].,$*+?^()|\\/" : Text).contains u || u == 0x7B || u == 0x7D

/-- Plain text. -/
def stepText (d : Draft) (u : CodeUnit) (rest : Text) : Draft × Text :=
  let more := rest.takeWhile fun v => !endsText v
  let first : Text := if u = 0x24 ∨ u = 0x5E then [0x5C, u] else [u]
  (d.push (.plain .text (first ++ more)), rest.drop more.length)

/-! ### Stars -/

/-- Components of two stars in a row count as one. -/
def dropGlobstars : Nat → Text → Text
  | fuel + 1, 0x2F :: 0x2A :: 0x2A :: rest =>
    if rest = [] ∨ rest.head? = some 0x2F then dropGlobstars fuel rest
    else 0x2F :: 0x2A :: 0x2A :: rest
  | _, t => t

/-- Makes a globstar of the star read last. -/
def setGlobstar (d : Draft) (output : Text) : Draft :=
  d.updateLast fun t => { t with kind := .globstar, value := t.value ++ "*", output := some output }

/-- Writes the slash before the star read last and the globstar as one piece. -/
def joinGlobstar (d : Draft) (output : Text) : Draft :=
  match d.tokens with
  | t :: before :: rest =>
    let d := d.dropOutput ((before.output.getD []).length + (t.output.getD []).length)
    let before := { before with output := some ("(?:" ++ before.output.getD []) }
    ({ d with tokens := t :: before :: rest }.setGlobstar output).addOutput (before.shown ++ output)
  | _ => d

/-- The slash behind a globstar, which the globstar has written already. -/
def pushCovered (d : Draft) : Draft :=
  d.push (.written .slash "/" [])

/-- The second of two stars. -/
def stepSecondStar (hidden : Bool) (d : Draft) (rest : Text) : Draft × Text :=
  match d.tokens with
  | t :: before :: earlier =>
    let isStart := before.kind = .slash ∨ before.kind = .front
    let isBraced := d.braces ≠ [] ∧ (before.kind = .comma ∨ before.kind = .brace)
    if ¬ isStart ∧ before.kind ≠ .round ∧ ¬ isBraced then (d.push (.written .star "*" []), rest)
    else
      let rest := dropGlobstars rest.length rest
      let first := earlier.head?.getD .front
      let isInner := before.kind = .slash ∧ first.kind ≠ .front
      let any := globstar hidden
      if before.kind = .front ∧ rest = [] then
        ({ d.setGlobstar any with output := any }, [])
      else if isInner ∧ first.kind ≠ .star ∧ first.kind ≠ .globstar ∧ rest = [] then
        (d.joinGlobstar (any ++ "|$)"), [])
      else if isInner ∧ rest.head? = some 0x2F then
        let tail : Text := if rest.length = 1 then ")" else "|$)"
        ((d.joinGlobstar (any ++ slash ++ "|" ++ slash ++ tail)).pushCovered, rest.drop 1)
      else if before.kind = .front ∧ rest.head? = some 0x2F then
        let output := "(?:^|" ++ slash ++ "|" ++ any ++ slash ++ ")"
        ({ d.setGlobstar output with output := output }.pushCovered, rest.drop 1)
      else
        (((d.dropOutput (t.output.getD []).length).setGlobstar any).addOutput any, rest)
  | _ => (d, rest)

/-- A star. More than two in a row are as one. -/
def stepStar (hidden : Bool) (d : Draft) (place : Nat) (rest : Text) : Draft × Text :=
  if d.last.kind = .globstar ∨ d.last.isRun then
    let d := d.updateLast fun t =>
      { t with kind := .star, isRun := true, value := t.value ++ "*", output := some star }
    ({ d with isStale := true }, rest)
  else if rest.head? = some 0x28 ∧ 1 < rest.length ∧ rest[1]? ≠ some 0x3F then
    (d.openGroup 0x2A "(?:" ")*", rest.drop 1)
  else if d.last.kind = .star then stepSecondStar hidden d rest
  else
    let d :=
      if place = d.start ∨ d.last.kind = .slash ∨ d.last.kind = .dot then
        let guard := (if d.last.kind = .dot then noDotEnd else noHidden hidden)
          ++ (if rest.head? = some 0x2A then [] else something)
        (d.updateLast fun t => t.addOutput guard).addOutput guard
      else d
    (d.push (.written .star "*" star), rest)

/-! ### Whole patterns -/

/-- Reads one unit, or several that belong together. -/
def step (hidden : Bool) (nested : Text → Text) (place : Nat) (d : Draft) (u : CodeUnit) (rest : Text) :
    Draft × Text :=
  let opensGroup := rest.head? = some 0x28 ∧ rest[1]? ≠ some 0x3F
  if u = 0 then (d, rest)
  else if u = 0x5C then d.stepEscape rest
  else if d.inSquare ∧ (u ≠ 0x5D ∨ d.isSquareEmpty) then d.stepInSquare u rest
  else if d.inQuotes ∧ u ≠ 0x22 then (d.addToSquare (escape [u]), rest)
  else if u = 0x22 then ({ d with inQuotes := !d.inQuotes }, rest)
  else if u = 0x28 then
    (({ d.openKind .round with depth := d.depth + 1 }).push (.plain .round "("), rest)
  else if u = 0x29 then (d.closeRound hidden nested rest, rest)
  else if u = 0x5B then
    if rest.contains 0x5D then
      (({ d.openKind .square with inSquare := true }).push (.plain .square "["), rest)
    else (d.push (.plain .square "\\["), rest)
  else if u = 0x5D then
    (if d.inSquare then d.closeSquare else d.push (.written .text "]" "\\]"), rest)
  else if u = 0x7B then (d.openBrace, rest)
  else if u = 0x7D then (d.closeBrace, rest)
  else if u = 0x7C then (d.push (.plain .text "|"), rest)
  else if u = 0x2C then (d.stepComma, rest)
  else if u = 0x2F then (d.stepSlash place, rest)
  else if u = 0x2E then (d.stepDot, rest)
  else if u = 0x3F then d.stepMark hidden rest
  else if u = 0x21 ∧ rest.head? = some 0x28 ∧ (rest[1]? ≠ some 0x3F ∨ !isOneOf "!=<:" rest[2]?) then
    (d.openGroup 0x21 "(?:(?!(?:" ("))" ++ star ++ ")"), rest.drop 1)
  else if u = 0x21 ∧ place = 0 then d.stepNegation 1 rest
  else if u = 0x2B then d.stepPlus rest
  else if u = 0x40 then
    (if opensGroup then d.push (.written .at "@" []) else d.push (.plain .text "@"), rest)
  else if u ≠ 0x2A then d.stepText u rest
  else d.stepStar hidden place rest

/-- Reads a pattern of the given size; the fuel is that size. -/
def readFrom (hidden : Bool) (nested : Text → Text) (size : Nat) : Nat → Draft → Text → Draft
  | fuel + 1, d, u :: rest =>
    let (d, rest) := d.step hidden nested (size - (rest.length + 1)) u rest
    readFrom hidden nested size fuel d rest
  | _, d, _ => d

/-- Puts a backslash before the first unit of the given kind that has none; the text is read backwards. -/
def escapeBackwards (u : CodeUnit) : Text → Text
  | [] => []
  | v :: rest =>
    if v = u ∧ rest.head? ≠ some 0x5C then v :: 0x5C :: rest else v :: escapeBackwards u rest

/-- Takes their meaning from the last so many units of the given kind. -/
def escapeLast (u : CodeUnit) (count : Nat) (t : Text) : Text :=
  (Nat.repeat (escapeBackwards u) count t.reverse).reverse

/-- What is still open at the end stands for itself. A slash may follow a star or a set. -/
def finish (d : Draft) : Text :=
  let output := escapeLast 0x5B (if d.inSquare then 1 else 0) d.output
  let output := escapeLast 0x7B d.braces.length (escapeLast 0x28 d.depth.toNat output)
  let d := { d with output := output }
  let d := if d.last.kind = .star ∨ d.last.kind = .square then
      d.push (.written .other [] (slash ++ "?"))
    else d
  if d.isStale then d.tokens.reverse.flatMap Token.shown else d.output

end Draft

/-- The text without a leading dot component. -/
def dropDot (t : Text) : Text :=
  if ("./" : Text).isPrefixOf t then t.drop 2 else t

/-- The regular expression of a pattern, and whether it is negated. -/
def write (hidden : Bool) : Nat → Text → Text × Bool
  | 0, _ => ([], false)
  | fuel + 1, pattern =>
    let pattern := dropDot pattern
    let nested (rest : Text) : Text := (write hidden fuel rest).1
    let d := Draft.readFrom hidden nested pattern.length pattern.length .empty pattern
    (d.finish, d.isNegated)

/-! ### Shorter ways -/

/-- Components of two stars only are one. -/
def simplify (pattern : Text) : Text :=
  if pattern = "***" then "*"
  else if pattern = "**/**" ∨ pattern = "**/**/**" then "**"
  else pattern

/-- Patterns made of stars, dots and one ending that have a form of their own. -/
def shortForm? (hidden : Bool) : Nat → Text → Option Text
  | 0, _ => none
  | fuel + 1, pattern =>
    let noName : Text := if hidden then "(?!(?:^|\\/)" ++ dotsOnly ++ ")" else noDot
    let folders := "(?:" ++ noName ++ globstar hidden ++ slash ++ ")?"
    if pattern = "*" then some (noName ++ something ++ star)
    else if pattern = ".*" then some (literalDot ++ something ++ star)
    else if pattern = "*.*" then some (noName ++ star ++ literalDot ++ something ++ star)
    else if pattern = "*/*" then
      some (noName ++ star ++ slash ++ something ++ noHidden hidden ++ star)
    else if pattern = "**" then some (noName ++ globstar hidden)
    else if pattern = "**/*" then some (folders ++ noHidden hidden ++ something ++ star)
    else if pattern = "**/*.*" then
      some (folders ++ noHidden hidden ++ star ++ literalDot ++ something ++ star)
    else if pattern = "**/.*" then some (folders ++ literalDot ++ something ++ star)
    else
      let ending := (pattern.reverse.takeWhile (· != 0x2E)).reverse
      if ending = [] ∨ ending.length = pattern.length ∨ !ending.all Text.isWordUnit then none
      else
        (shortForm? hidden fuel (pattern.take (pattern.length - ending.length - 1))).map fun stem =>
          stem ++ literalDot ++ ending

/-- Whether a pattern has units that keep it from being read unit by unit. -/
def isStructured (pattern : Text) : Bool :=
  pattern.head? == some 0x2A || pattern.head? == some 0x21
    || pattern.any fun u => ("/()[]\"" : Text).contains u || u == 0x7B || u == 0x7D

/-- So many copies of a text. -/
def copies (count : Nat) (t : Text) : Text :=
  (List.replicate count t).flatten

/-- A run of one unit that belongs to no word, as it stands in the regular expression. -/
def writeRun (hidden isFront isEscaped : Bool) (u : CodeUnit) (count : Nat) : Text :=
  if u = 0x3F then
    if isEscaped then [0x5C, u] ++ copies (count - 1) anyUnit
    else if isFront then firstUnit hidden ++ copies (count - 1) anyUnit
    else copies count anyUnit
  else if u = 0x2E then copies count literalDot
  else if u = 0x2A then
    if isEscaped then [0x5C, u] ++ (if 1 < count then star else []) else star
  else if u = 0x5C ∧ !isEscaped then List.replicate count u
  else 0x5C :: List.replicate count u

/-- Writes a pattern unit by unit, and tells whether a backslash in it stands for itself. -/
def writeUnits (hidden : Bool) : Nat → (isFront : Bool) → Text → Text × Bool
  | fuel + 1, isFront, u :: rest =>
    if Text.isWordUnit u then
      let (more, keeps) := writeUnits hidden fuel false rest
      (u :: more, keeps)
    else
      let isEscaped := u == 0x5C && (rest.head?.map fun v => !Text.isWordUnit v).getD false
      let t := if isEscaped then rest else u :: rest
      let v := t.head?.getD u
      let count := (t.takeWhile (· == v)).length
      let (more, keeps) := writeUnits hidden fuel false (t.drop count)
      (writeRun hidden isFront isEscaped v count ++ more, keeps || v == 0x5C)
  | _, _, _ => ([], false)

/-- Backslashes in a row come to one or two. -/
def mergeBackslashes : Nat → Text → Text
  | fuel + 1, 0x5C :: rest =>
    let count := (rest.takeWhile (· == 0x5C)).length + 1
    (if count % 2 = 0 then [0x5C, 0x5C] else [0x5C]) ++ mergeBackslashes fuel (rest.drop (count - 1))
  | fuel + 1, u :: rest => u :: mergeBackslashes fuel rest
  | _, _ => []

/-- The regular expression of a pattern without structure. -/
def writePlain (hidden : Bool) (pattern : Text) : Text :=
  let (output, keeps) := writeUnits hidden pattern.length true pattern
  let output := if keeps then mergeBackslashes output.length output else output
  "^(?:" ++ output ++ ")$"

/-- The regular expression that whole paths match. -/
def notationOf (hidden : Bool) (pattern : Text) : Text :=
  let pattern := simplify pattern
  let whole (t : Text) : Text := "^(?:" ++ t ++ ")$"
  let hasShortForm := pattern.head? == some 0x2A || pattern.head? == some 0x2E
  match if hasShortForm then shortForm? hidden pattern.length (dropDot pattern) else none with
  | some output => whole (output ++ slash ++ "?")
  | none =>
    if !isStructured (dropDot pattern) then whole (writePlain hidden (dropDot pattern))
    else
      let (output, isNegated) := write hidden pattern.length pattern
      if isNegated then "^(?!" ++ whole output ++ ").*$" else whole output

/-- The regular expression of a pattern, if there is one. -/
def expression? (hidden : Bool) (pattern : Text) : Option Regex :=
  RegexReader.read? (notationOf hidden pattern)

end Calculator.Glob
