import Calculator.Yaml.Checked

/-!
What stands in front of a key or a value: indicators, white space, comments, an anchor and a tag.
-/
namespace Calculator.Yaml

/-- What follows the marks in front of it, as far as their rules ask. -/
structure Following where
  offset : Nat
  /-- It may stand directly behind an anchor or a tag. -/
  needsNoSpace : Bool
  isFlowCollection : Bool
  isBlockCollection : Bool

def Outline.following (o : Outline) : Following :=
  match o with
  | flat kind offset _ source _ => ⟨offset, kind == .scalar && source == [], false, false⟩
  | flow opening _ _ => ⟨opening.offset, false, true, false⟩
  | map offset .. => ⟨offset, false, false, true⟩
  | sequence offset .. => ⟨offset, false, false, true⟩
  | o => ⟨o.place.start, false, false, false⟩

/-- Marks that part an anchor or a tag from what follows it. -/
def Kind.parts : Kind → Bool
  | .space => true
  | .newline => true
  | .comma => true
  | _ => false

def Mark.following (m : Mark) : Following :=
  ⟨m.offset, m.kind.parts, false, false⟩

/-- Where marks stand: in a flow collection or not, before which indicator, and before what. -/
structure Position where
  inFlow : Bool
  indicator : Kind
  next : Option Following
  offset : Nat
  parentIndent : Nat
  onNewLine : Bool

structure Properties where
  onNewLine : Bool
  hasSpace : Bool
  hasNewline : Bool := false
  hasComment : Bool := false
  /-- The last mark was an anchor or a tag. -/
  needsSpace : Bool := false
  /-- White space with a tab in it that may turn out to be indentation. -/
  tab : Option Mark := none
  anchor : Option Mark := none
  tag : Option Mark := none
  /-- The last line end behind an anchor or a tag. -/
  newlineBehind : Option Mark := none
  comma : Option Mark := none
  indicator : Option Mark := none
  start : Nat := 0
  stop : Nat := 0

namespace Properties

def hasAny (p : Properties) : Bool :=
  p.anchor.isSome || p.tag.isSome

/-- An anchor or a tag: the first one says where the properties start. -/
def behindProperty (p : Properties) (m : Mark) : Properties :=
  { p with
    start := if p.hasAny then p.start else m.offset
    onNewLine := false
    hasSpace := false
    needsSpace := true }

/-- Checks one mark and takes note of it. -/
def read (position : Position) (p : Properties) (m : Mark) : Checked Properties := do
  if p.needsSpace && !m.kind.parts then Checked.wrongAt m.offset
  match p.tab with
  | some tab =>
    if p.onNewLine && m.kind != .comment && m.kind != .newline then Checked.wrongMark tab
  | none => pure ()
  let p := { p with needsSpace := false, tab := none }
  match m.kind with
  | .space =>
    let mayIndent := !position.inFlow && m.source.contains 0x09
      && (position.indicator != .documentStart
        || !((position.next.map Following.isFlowCollection).getD false))
    pure { p with tab := if mayIndent then some m else none, hasSpace := true }
  | .comment =>
    if !p.hasSpace then Checked.wrongMark m
    pure { p with hasComment := true, onNewLine := false }
  | .newline =>
    pure { p with
      onNewLine := true
      hasNewline := true
      hasSpace := true
      newlineBehind := if p.hasAny then some m else p.newlineBehind }
  | .anchor =>
    if p.anchor.isSome then Checked.wrongMark m
    pure { p.behindProperty m with anchor := some m }
  | .tag =>
    if p.tag.isSome then Checked.wrongMark m
    pure { p.behindProperty m with tag := some m }
  | kind =>
    if kind = position.indicator then
      if p.hasAny then Checked.wrongMark m
      if p.indicator.isSome then Checked.wrongMark m
      pure { p with
        indicator := some m
        onNewLine := kind == .sequenceItem || kind == .explicitKey
        hasSpace := false }
    else if position.inFlow && kind == .comma then
      if p.comma.isSome then Checked.wrongMark m
      pure { p with comma := some m, onNewLine := false, hasSpace := false }
    else
      Checked.wrongMark m
      pure { p with onNewLine := false, hasSpace := false }

/-- Checks the marks in front of a key or a value. -/
def ofMarks (position : Position) (marks : List Mark) : Checked Properties := do
  let p ← marks.foldlM (read position)
    { onNewLine := position.onNewLine, hasSpace := position.onNewLine }
  let stop := (marks.getLast?.map Mark.stop).getD position.offset
  match position.next with
  | some next => if p.needsSpace && !next.needsNoSpace then Checked.wrongAt next.offset
  | none => pure ()
  match p.tab with
  | some tab =>
    if (p.onNewLine && tab.indent ≤ position.parentIndent)
        || (position.next.map Following.isBlockCollection).getD false then
      Checked.wrongMark tab
  | none => pure ()
  pure { p with start := if p.hasAny then p.start else stop, stop := stop }

end Properties

end Calculator.Yaml
