import Calculator.Number.Decimal

/-!
Braces in patterns: a list of alternatives, or a range of numbers or letters, stands for each of its
members in turn. Braces that are neither stand for themselves, and so do all braces behind a dollar.
-/
namespace Calculator.Braces

/-- What is between two commas of a brace, or outside of all braces. -/
inductive Node where
  | text (t : Text)
  | comma
  /-- One dot that stands alone so far. -/
  | dot
  /-- Two dots between the bounds of a range. -/
  | dots
  /-- Text in round brackets, together with what follows them directly. -/
  | round (nodes : List Node)
  /-- A closed brace. A literal one stands for itself, whatever is in it. -/
  | brace (isLiteral : Bool) (commas ranges : Nat) (nodes : List Node)

mutual

/-- A node as it is written. -/
def source : Node → Text
  | .text t => t
  | .comma => ","
  | .dot => "."
  | .dots => ".."
  | .round nodes => sources nodes
  | .brace _ _ _ nodes => [0x7B] ++ sources nodes ++ [0x7D]

def sources : List Node → Text
  | [] => []
  | node :: rest => source node ++ sources rest

end

/-! ### Ranges -/

/-- The whole number that a bound stands for. -/
def readBound? (t : Text) : Option Int :=
  let x := Binary64.ofText t
  if t ≠ [] ∧ x.isInteger then some x.toInt else none

/-- From one number to another in steps, upwards or downwards. -/
def steps (start stop : Int) (step : Nat) : List Int :=
  (List.range ((stop - start).natAbs / step + 1)).map fun i =>
    if start ≤ stop then start + (i * step : Nat) else start - (i * step : Nat)

/-- A bound that begins with a zero asks for numbers of equal width. -/
def isPadded (t : Text) : Bool :=
  let digits := if t.head? = some 0x2D then t.drop 1 else t
  digits.head? == some 0x30 && 1 < digits.length

/-- A number with zeros up to a width, which counts the sign. -/
def padded (width : Nat) (n : Int) : Text :=
  let sign : Text := if n < 0 then [0x2D] else []
  let digits := Text.ofNat n.natAbs
  sign ++ List.replicate (width - sign.length - digits.length) 0x30 ++ digits

/-- The members of a range between the given bounds, with the given step if there is one. A range
without members stands for itself. -/
def rangeMembers : List Text → List Text
  | start :: stop :: more =>
    let step := (more.head?.filter (· ≠ [])).getD "1"
    match readBound? step, readBound? start, readBound? stop with
    | some n, some a, some b =>
      let bounds := [start, stop, step]
      let width := if bounds.any isPadded then (bounds.map List.length).foldl max 0 else 0
      (steps a b (max n.natAbs 1)).map (padded width)
    | some n, a, b =>
      match start, stop with
      | u :: us, v :: vs =>
        if (a.isNone ∧ us ≠ []) ∨ (b.isNone ∧ vs ≠ []) then []
        else (steps u.toNat v.toNat (max n.natAbs 1)).map fun n => [n.toNat.toUInt16]
      | _, _ => []
    | none, _, _ => []
  | _ => []

/-- The bounds of a range, and its step. -/
def bounds (nodes : List Node) : List Text :=
  nodes.filterMap fun
    | .text t => some t
    | _ => none

/-- An upward range of numbers without a step has fewer than a thousand steps. -/
def isTooLong : List Text → Bool
  | [start, stop] =>
    match readBound? start, readBound? stop with
    | some a, some b => decide (1000 ≤ b - a)
    | _, _ => false
  | _ => false

/-! ### Reading -/

inductive Kind where
  | outermost
  | round
  | brace
  deriving DecidableEq

/-- What has been read of a part that is still open. -/
structure Open where
  kind : Kind
  /-- A dollar is before it or before one around it. -/
  hasDollar : Bool
  /-- Two dots stand where no range can have them. -/
  isBroken : Bool
  commas : Nat
  ranges : Nat
  /-- The newest node first. -/
  nodes : List Node

namespace Open

def outermost : Open := ⟨.outermost, false, false, 0, 0, []⟩

/-- Adds text to nodes, the newest of which is first. -/
def addTextTo (t : Text) : List Node → List Node
  | .text s :: rest => .text (s ++ t) :: rest
  | .dot :: rest => .text ([0x2E] ++ t) :: rest
  | .round nodes :: rest => .round (nodes ++ [.text t]) :: rest
  | nodes => .text t :: nodes

def addText (o : Open) (t : Text) : Open :=
  { o with nodes := addTextTo t o.nodes }

/-- A dot next to another makes a range, provided it is at a place for one. A third dot undoes it. -/
def addDot (o : Open) : Open :=
  match o.nodes with
  | .dot :: rest =>
    if rest.length = 1 ∨ rest.length = 3 then
      { o with ranges := o.ranges + 1, nodes := .dots :: rest }
    else { o with isBroken := true, ranges := 0, nodes := .text ".." :: rest }
  | .dots :: rest => { o with ranges := o.ranges - 1, nodes := addTextTo "..." rest }
  | nodes => { o with nodes := .dot :: nodes }

/-- A comma makes a list of what would have been a range. -/
def addComma (o : Open) : Open :=
  let nodes := if 0 < o.ranges then [.text (sources o.nodes.reverse)] else o.nodes
  { o with commas := o.commas + 1, ranges := 0, nodes := .comma :: nodes }

/-- Whether the text read last ends with a dollar. -/
def endsWithDollar (o : Open) : Bool :=
  let text := match o.nodes with
    | .text t :: _ => t
    | .round nodes :: _ => sources nodes
    | _ => []
  text.getLast? == some 0x24

end Open

/-- The parts that are open, the innermost first; the outermost part is apart. -/
structure State where
  inner : List Open
  outer : Open

namespace State

def top (s : State) : Open :=
  s.inner.head?.getD s.outer

def update (s : State) (change : Open → Open) : State :=
  match s.inner with
  | [] => { s with outer := change s.outer }
  | o :: rest => { s with inner := change o :: rest }

def addText (s : State) (t : Text) : State :=
  s.update (·.addText t)

def openBrace (s : State) : State :=
  let hasDollar := s.top.endsWithDollar || s.top.hasDollar
  { s with inner := ⟨.brace, hasDollar, false, 0, 0, []⟩ :: s.inner }

def openRound (s : State) : State :=
  { s with inner := ⟨.round, false, false, 0, 0, [.text "("]⟩ :: s.inner }

def addNode (s : State) (node : Node) : State :=
  s.update fun o => { o with nodes := node :: o.nodes }

def close (s : State) (kind : Kind) (written : Text) : State :=
  match s.inner with
  | o :: rest =>
    if o.kind ≠ kind then s.addText written
    else
      let node := match kind with
        | .brace => .brace (o.hasDollar || o.isBroken) o.commas o.ranges o.nodes.reverse
        | _ => .round (o.addText written).nodes.reverse
      { s with inner := rest }.addNode node
  | [] => s.addText written

/-- A comma or a dot has a meaning directly within a brace only; behind a comma no dot has. -/
def comma (s : State) : State :=
  if s.top.kind = .brace then s.update Open.addComma else s.addText ","

def dot (s : State) : State :=
  if s.top.kind = .brace ∧ s.top.commas = 0 then s.update Open.addDot else s.addText "."

/-- All nodes at the end. Parts that are still open are text around closed ones. -/
def finish (s : State) : List Node :=
  let plain : Node → Node
    | .comma => .text ","
    | .dot => .text "."
    | .dots => .text ".."
    | node => node
  let unclosed := s.inner.reverse.flatMap fun o =>
    (if o.kind = .brace then [.text [0x7B]] else []) ++ o.nodes.reverse.map plain
  s.outer.nodes.reverse.map plain ++ unclosed

end State

/-- Text in square brackets from behind the opening one on, and what follows. -/
def takeSquare : (depth : Nat) → Text → Text × Text
  | _, [] => ([], [])
  | _, [u] => ([u], [])
  | depth, u :: v :: rest =>
    if u = 0x5C then
      let (taken, behind) := takeSquare depth rest
      (u :: v :: taken, behind)
    else if u = 0x5D ∧ depth = 1 then ([u], v :: rest)
    else
      let depth := if u = 0x5B then depth + 1 else if u = 0x5D then depth - 1 else depth
      let (taken, behind) := takeSquare depth (v :: rest)
      (u :: taken, behind)

/-- Text in quotation marks from behind the opening one on, without the closing one, and what follows. -/
def takeQuoted (mark : CodeUnit) : Text → Text × Text
  | [] => ([], [])
  | [u] => if u = mark then ([], []) else ([u], [])
  | u :: v :: rest =>
    if u = mark then ([], v :: rest)
    else if u = 0x5C then
      let (taken, behind) := takeQuoted mark rest
      (u :: v :: taken, behind)
    else
      let (taken, behind) := takeQuoted mark (v :: rest)
      (u :: taken, behind)

/-- Marks that take text together; they are no part of it. -/
def isQuotationMark (u : CodeUnit) : Bool :=
  u == 0x22 || u == 0x27 || u == 0x60

/-- Reads one unit or a group of units that belong together. -/
def step (s : State) (u : CodeUnit) (rest : Text) : State × Text :=
  if u = 0xFEFF ∨ u = 0xA0 then (s, rest)
  else if u = 0x5C then (s.addText (u :: rest.take 1), rest.drop 1)
  else if u = 0x5D then (s.addText [0x5C, u], rest)
  else if u = 0x5B then
    let (taken, behind) := takeSquare 1 rest
    (s.addText (u :: taken), behind)
  else if isQuotationMark u then
    let (taken, behind) := takeQuoted u rest
    (s.addText taken, behind)
  else if u = 0x28 then (s.openRound, rest)
  else if u = 0x29 then (s.close .round [u], rest)
  else if u = 0x7B then (s.openBrace, rest)
  else if u = 0x7D then (s.close .brace [u], rest)
  else if u = 0x2C then (s.comma, rest)
  else if u = 0x2E then (s.dot, rest)
  else (s.addText [u], rest)

/-- Reads a text; the fuel is its length. -/
def readFrom : Nat → State → Text → List Node
  | fuel + 1, s, u :: rest =>
    let (s, rest) := step s u rest
    readFrom fuel s rest
  | _, s, _ => s.finish

def read (t : Text) : List Node :=
  readFrom t.length ⟨[], .outermost⟩ t

/-! ### Expanding -/

mutual

/-- Whether a range that would be expanded is too long. -/
def hasLongRange : Node → Bool
  | .round nodes => haveLongRange nodes
  | .brace isLiteral _ ranges nodes =>
    !isLiteral && (if 0 < ranges then isTooLong (bounds nodes) else haveLongRange nodes)
  | _ => false

def haveLongRange : List Node → Bool
  | [] => false
  | node :: rest => hasLongRange node || haveLongRange rest

end

/-- Every text before every text behind. -/
def product (before behind : List Text) : List Text :=
  before.flatMap fun s => behind.map fun t => s ++ t

/-- Continues the newest alternative, which is first. -/
def continueWith (alternatives : List (List Text)) (behind : List Text) : List (List Text) :=
  match alternatives with
  | [] => [behind]
  | newest :: rest => product newest behind :: rest

mutual

/-- What a node adds to the alternatives before it; `isFirst` where nothing is before it in its brace. -/
def addTo (alternatives : List (List Text)) (isFirst : Bool) : Node → List (List Text)
  | .text t => if t = [] then alternatives else continueWith alternatives [t]
  | .dot => continueWith alternatives ["."]
  | .dots => continueWith alternatives [".."]
  | .comma => [[]] :: (if isFirst then [[]] :: alternatives else alternatives)
  | .round nodes => addAllTo alternatives false nodes
  | .brace isLiteral commas ranges nodes =>
    let written : Text := [0x7B] ++ sources nodes ++ [0x7D]
    if isLiteral ∨ nodes.isEmpty then continueWith alternatives [written]
    else if 0 < ranges then
      let members := rangeMembers (bounds nodes)
      continueWith alternatives (if members = [] then [written] else members)
    else
      let members := (addAllTo [] true nodes).reverse.flatten
      if members = [] then continueWith alternatives [[]]
      else if 0 < commas then continueWith alternatives members
      else continueWith alternatives (members.map fun t => [0x7B] ++ t ++ [0x7D])

def addAllTo (alternatives : List (List Text)) (isFirst : Bool) : List Node → List (List Text)
  | [] => alternatives
  | node :: rest => addAllTo (addTo alternatives isFirst node) false rest

end

/-- Whether a text has an opening brace and a closing one behind it. -/
def hasBraces (t : Text) : Bool :=
  (t.dropWhile (· != 0x7B)).contains 0x7D

/-- All that a pattern stands for, or nothing if a range in it is too long. -/
def expand? (t : Text) : Option (List Text) :=
  if !hasBraces t ∨ t.length < 3 then some [t]
  else
    let nodes := read t
    if haveLongRange nodes then none else some (addAllTo [] true nodes).reverse.flatten

end Calculator.Braces
