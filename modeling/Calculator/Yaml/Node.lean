import Calculator.Yaml.BlockScalar
import Calculator.Yaml.Properties
import Calculator.Yaml.Tag

/-!
The tree of a document. Values come from the outline; everything that breaks a rule of the format is
noted on the way.
-/
namespace Calculator.Yaml

/-- Where a value stands: it ends at `stop`, and what belongs to it on its line ends at `after`. -/
structure Extent where
  start : Nat
  stop : Nat
  after : Nat

def Extent.span (e : Extent) : Span :=
  ⟨e.start, e.stop⟩

/-- Where a value stands in the tree. -/
inductive Role where
  | root
  | key
  | value
  deriving DecidableEq

inductive Node where
  /-- `isBare` says that it has neither a tag that resolves nor a comment. -/
  | scalar (extent : Extent) (value : Scalar) (isBare : Bool)
  | reference (extent : Extent)
  | map (extent : Extent) (pairs : List (Node × Option Node))
  /-- A mapping whose keys alone count. -/
  | set (extent : Extent) (pairs : List (Node × Option Node))
  | sequence (extent : Extent) (elements : List Node)

namespace Node

def extent : Node → Extent
  | scalar e _ _ => e
  | reference e => e
  | map e _ => e
  | set e _ => e
  | sequence e _ => e

/-- The pairs of a mapping or a set. -/
def pairs? : Node → Option (List (Node × Option Node))
  | map _ pairs => some pairs
  | set _ pairs => some pairs
  | _ => none

/-- Nothing at all: no tag and no comment either. -/
def isBareNull : Node → Bool
  | scalar _ .null isBare => isBare
  | _ => false

/-- Notes a comment that belongs to a scalar. -/
def withComment : Node → Node
  | scalar e s _ => scalar e s false
  | node => node

/-- Only scalars are ever equal as keys. -/
def sameKey : Node → Node → Bool
  | scalar _ s _, scalar _ t _ => s.sameKey t
  | _, _ => false

def hasKey (key : Node) (pairs : List (Node × Option Node)) : Bool :=
  pairs.any fun (k, _) => k.sameKey key

/-- The name of a tag, if there is one that resolves. -/
def tagName (directives : Directives) : Option Mark → Checked (Option Text)
  | some m => Tag.name? directives.handles m
  | none => pure none

/-- What is known of a scalar besides its text: its role, whether it is a plain one, and whether a comment
belongs to it. -/
structure Setting where
  role : Role
  isPlain : Bool
  hasComment : Bool

/-- A value at the given place, its scalar read as its tag says. -/
def ofScalar (directives : Directives) (tag : Option Mark) (setting : Setting) (extent : Extent)
    (t : Text) : Checked Node := do
  let version := directives.version
  match tag, ← tagName directives tag with
  | some m, some name => return .scalar extent (← Tag.apply version m name t) false
  | _, _ =>
    let value := if setting.isPlain then version.ofPlain (setting.role == .key) t else .text t
    return .scalar extent value (!setting.hasComment)

/-- An anchor needs a name. -/
def checkAnchor (props : Properties) : Checked Unit :=
  match props.anchor with
  | some m => if m.source.length = 1 then Checked.wrongMark m else pure ()
  | none => pure ()

/-- How long marks are together. -/
def totalLength (marks : List Mark) : Nat :=
  marks.foldl (fun n m => n + m.source.length) 0

/-- Where a value that is left out stands: behind the last mark that is not empty and its spaces. -/
def emptyOffset (offset : Nat) (before : List Mark) : Nat :=
  let trailing := (before.reverse.takeWhile fun m => m.kind.isEmpty).reverse
  let start := offset - totalLength trailing
  if trailing.length = before.length then start
  else start + totalLength (trailing.takeWhile fun m => m.kind == .space)

/-- A value that is left out. -/
def ofNothing (directives : Directives) (role : Role) (props : Properties) (offset : Nat)
    (before : List Mark) : Checked Node := do
  let start := emptyOffset offset before
  let after := if props.hasComment then props.stop else start
  let node ← ofScalar directives props.tag ⟨role, true, props.hasComment⟩ ⟨start, start, after⟩ []
  checkAnchor props
  pure node

/-- A plain or quoted scalar or an alias. -/
def ofFlat (directives : Directives) (role : Role) (props : Properties) (kind : Kind) (offset : Nat)
    (source : Text) (tail : List Mark) : Checked Node := do
  let stop := offset + source.length
  if kind = .reference then
    if source.length = 1 then Checked.wrongAt offset
    let after ← checkTail true stop tail
    if props.hasAny then Checked.wrong ⟨offset, stop⟩
    pure (.reference ⟨offset, stop, after⟩)
  else
    let t ←
      if kind = .singleQuoted then singleQuotedText offset source
      else if kind = .doubleQuoted then doubleQuotedText offset source
      else plainText offset source
    let after ← checkTail true stop tail
    let hasComment := props.hasComment || includes .comment tail
    let node ← ofScalar directives props.tag ⟨role, kind == .scalar, hasComment⟩
      ⟨offset, stop, after⟩ t
    checkAnchor props
    pure node

/-- Whether a key reaches over the end of a line. Keys of block structure always count as such. -/
def spansLines : Outline → Bool
  | .flat _ _ _ source tail => source.contains 0x0A || includes .newline (tail.getD [])
  | .flow _ items _ => spansLinesItems items
  | _ => true
where
  spansLinesItems : List (Item Outline) → Bool
    | [] => false
    | ⟨start, _, key, separator, value⟩ :: rest =>
      includes .newline start || includes .newline (separator.getD []) || spansLinesOption key
        || spansLinesOption value || spansLinesItems rest
  spansLinesOption : Option Outline → Bool
    | none => false
    | some o => spansLines o

/-- Whether the properties of a block sequence share its first line; the last of them is at fault. -/
def checkSequenceProperties (props : Properties) : Checked Unit :=
  let last := match props.anchor, props.tag with
    | some a, some t => some (if t.offset < a.offset then a else t)
    | a, t => a.or t
  match last with
  | none => pure ()
  | some m =>
    if (props.newlineBehind.map fun n => decide (n.offset < m.offset)).getD true then
      Checked.wrongMark m
    else pure ()

/-- The keys of a sequence of pairs: an element that is no mapping is a key itself, and an empty mapping
has nothing for its key. -/
def pairKey (element : Node) : Node :=
  match element.pairs? with
  | none => element
  | some [] => .scalar element.extent .null true
  | some ((key, _) :: _) => key

/-- The scalar that a key is, if it is one. -/
def scalar? : Node → Option Scalar
  | scalar _ s _ => some s
  | _ => none

/-- How many keys are there a second time. -/
def countRepeated : (seen : List Scalar) → List Scalar → Nat
  | _, [] => 0
  | seen, s :: rest =>
    if seen.any s.repeats then countRepeated seen rest + 1 else countRepeated (seen ++ [s]) rest

/-- The same mistake several times. -/
def wrongTimes (place : Span) : Nat → Checked Unit
  | 0 => pure ()
  | n + 1 => do
    Checked.wrong place
    wrongTimes place n

/-- Sets, ordered mappings and sequences of pairs have rules of their own: nothing but keys in a set, one
pair in each element of the other two, and no key twice in an ordered mapping. -/
def applyTag (props : Properties) (name : Option Text) (node : Node) : Checked Node := do
  let kind := name.bind Tag.kind?
  let place : Span := (props.tag.map fun m => ⟨m.offset, m.stop⟩).getD node.extent.span
  match node with
  | map extent pairs =>
    if kind = some "set" then
      if pairs.all fun (_, value) => (value.map isBareNull).getD true then return .set extent pairs
      Checked.wrong place
    return node
  | sequence _ elements =>
    if kind = some "omap" ∨ kind = some "pairs" then
      wrongTimes place (elements.countP fun e => 1 < ((e.pairs?.map List.length).getD 0))
    if kind = some "omap" then
      wrongTimes place (countRepeated [] (elements.filterMap fun e => (pairKey e).scalar?))
    return node
  | _ => return node

/-- The properties of a key in a block mapping. -/
def blockKeyProperties (indent offset : Nat) (start : List Mark) (key : Option Outline)
    (separator : Option (List Mark)) : Checked Properties :=
  Properties.ofMarks
    { inFlow := false
      indicator := .explicitKey
      next := (key.map Outline.following).or ((separator.bind List.head?).map Mark.following)
      offset := offset
      parentIndent := indent
      onNewLine := true } start

/-- Whether an item of a block mapping holds nothing but empty lines and comments. Its indentation is
checked on the way. -/
def isBlockGap (indent offset : Nat) (props : Properties) (key : Option Outline)
    (separator : Option (List Mark)) : Checked Bool := do
  if props.indicator.isSome then pure false
  else
    match key with
    | some (.sequence ..) => Checked.wrongAt offset
    | some o => if (o.indent?.map (· != indent)).getD false then Checked.wrongAt offset
    | none => pure ()
    pure (!props.hasAny && separator.isNone)

/-- The rules for the place of a key in a block mapping. -/
def checkBlockKey (indent offset : Nat) (props : Properties) (start : List Mark)
    (key : Option Outline) : Checked Unit :=
  match props.indicator with
  | some m => if m.indent = indent then pure () else Checked.wrongAt offset
  | none =>
    if props.newlineBehind.isSome || (key.map spansLines).getD false then
      match key, start.getLast? with
      | some o, _ => Checked.wrong o.place
      | none, some m => Checked.wrongMark m
      | none, none => pure ()
    else pure ()

def blockValueProperties (indent : Nat) (keyNode : Node) (key : Option Outline)
    (separator : List Mark) (value : Option Outline) : Checked Properties :=
  let isBlockScalar := match key with
    | some (.block ..) => true
    | _ => false
  Properties.ofMarks
    { inFlow := false
      indicator := .mapValue
      next := value.map Outline.following
      offset := keyNode.extent.after
      parentIndent := indent
      onNewLine := key.isNone || isBlockScalar } separator

/-- The rules between a key without an indicator and its value: no mapping on the same line, and no more
than 1024 units from the start of the key to the colon. -/
def checkBlockValue (keyProps valueProps : Properties) (keyNode : Node) (value : Option Outline) :
    Checked Unit := do
  if keyProps.indicator.isNone then
    match value with
    | some (.map ..) => if !valueProps.hasNewline then Checked.wrongAt valueProps.stop
    | _ => pure ()
    match valueProps.indicator with
    | some m => if keyProps.start + 1024 < m.offset then Checked.wrong keyNode.extent.span
    | none => pure ()

/-- The state of reading a collection: where it has got to, where a comment behind the last item ends,
and what it holds so far. -/
structure Progress (α : Type) where
  offset : Nat
  commentStop : Option Nat := none
  found : List α := []

/-- Nothing between two commas, or before the first one. -/
def checkFlowGap (first last : Bool) (props : Properties) : Checked Unit :=
  match first, props.comma with
  | true, some m => Checked.wrongMark m
  | _, _ => if last then pure () else Checked.wrongAt props.start

/-- The rules for the properties of an item in a flow collection. -/
def checkFlowItem (isMap : Bool) (first : Bool) (props : Properties) (key : Option Outline) :
    Checked Unit := do
  if props.indicator.isNone && !isMap && (key.map spansLines).getD false then
    match key with
    | some o => Checked.wrong o.place
    | none => pure ()
  match props.comma with
  | some m => if first then Checked.wrongMark m
  | none => if !first then Checked.wrongAt props.start

def flowProperties (indicator : Kind) (indent offset : Nat) (next : Option Following)
    (marks : List Mark) : Checked Properties :=
  Properties.ofMarks
    { inFlow := true
      indicator := indicator
      next := next
      offset := offset
      parentIndent := indent
      onNewLine := false } marks

/-- Whether a comment stands directly behind a comma, and has more in it than its sign. -/
def startsWithComment (marks : List Mark) : Bool :=
  match marks.dropWhile fun m => m.kind == .comma || m.kind == .space with
  | m :: _ => m.kind == .comment && 1 < m.source.length
  | [] => false

/-- Such a comment belongs to the value before it. -/
def noteComment (start : List Mark) (pairs : List (Node × Option Node)) :
    List (Node × Option Node) :=
  match pairs.getLast? with
  | some (key, some value) =>
    if startsWithComment start then pairs.dropLast ++ [(key, some value.withComment)] else pairs
  | _ => pairs

/-- Block collections have no place in flow collections. -/
def checkNoBlock (o : Option Outline) (node : Node) : Checked Unit :=
  Checked.wrongIf ((o.map Outline.isBlockCollection).getD false) node.extent.span

/-- A value without a colon before it. -/
def checkFlowValue (props : Properties) : Option Outline → Checked Unit
  | none => pure ()
  | some o =>
    let source := match o with
      | .flat _ _ _ source _ => source
      | .block _ _ _ source => source
      | .stray m => m.source
      | _ => []
    if source.head? = some (Text.code ':') then Checked.wrong o.place else Checked.wrongAt props.start

/-- The rules for a pair within a flow sequence: its key stays on one line and within 1024 units. -/
def checkFlowPair (props : Properties) (separator : List Mark) (colon : Mark) :
    Checked Unit := do
  match (separator.takeWhile (· != colon)).find? fun m => m.kind == .newline with
  | some m => Checked.wrongMark m
  | none => pure ()
  if props.start + 1024 < colon.offset then Checked.wrongMark colon

/-- The end of a flow collection: its bracket, and what is left on the line. -/
def closeFlow (opening : Mark) (offset : Nat) (tail : List Mark) : Checked Extent := do
  let bracket : Text := if opening.kind = .mapOpen then [0x7D] else [0x5D]
  let (stop, rest) ← match tail with
    | m :: rest =>
      if m.source = bracket then pure (m.stop, rest)
      else do
        Checked.wrongAt offset
        pure (offset, if m.source.length = 1 then rest else m :: rest)
    | [] => do
      Checked.wrongAt offset
      pure (offset, [])
  return ⟨opening.offset, stop, ← checkTail true stop rest⟩

mutual

/-- A value with its properties. -/
def ofOutline (directives : Directives) (role : Role) (props : Properties) : Outline → Checked Node
  | .flat kind offset _ source tail => ofFlat directives role props kind offset source (tail.getD [])
  | .block offset indent header source => do
    let (t, stop) ← blockText (role == .root) offset indent header source
    let hasComment := props.hasComment || includes .comment header
    let node ← ofScalar directives props.tag ⟨role, false, hasComment⟩ ⟨offset, stop, stop⟩ t
    checkAnchor props
    pure node
  | .map offset indent items => do
    let name ← tagName directives props.tag
    let p ← ofMapItems directives indent items { offset := offset }
    match p.commentStop with
    | some stop => if stop < p.offset then Checked.wrongAt stop
    | none => pure ()
    let node ← applyTag props name (.map ⟨offset, p.offset, p.commentStop.getD p.offset⟩ p.found)
    checkAnchor props
    pure node
  | .sequence offset indent items => do
    let name ← tagName directives props.tag
    checkSequenceProperties props
    let p ← ofSequenceItems directives indent items { offset := offset }
    let node ← applyTag props name (.sequence ⟨offset, p.offset, p.commentStop.getD p.offset⟩ p.found)
    checkAnchor props
    pure node
  | .flow opening items tail => do
    let name ← tagName directives props.tag
    let start := opening.offset + opening.source.length
    if opening.kind = .mapOpen then
      let p ← ofFlowMapItems directives opening.indent true items { offset := start }
      let node ← applyTag props name (.map (← closeFlow opening p.offset tail) p.found)
      checkAnchor props
      pure node
    else
      let p ← ofFlowSequenceItems directives opening.indent true items { offset := start }
      let node ← applyTag props name (.sequence (← closeFlow opening p.offset tail) p.found)
      checkAnchor props
      pure node
  | .stray m => do
    Checked.wrongMark m
    let node ← ofNothing directives role props m.offset []
    checkAnchor props
    pure node

/-- A value, or the one left out after the given marks. -/
def ofOption (directives : Directives) (role : Role) (props : Properties) (offset : Nat)
    (before : List Mark) : Option Outline → Checked Node
  | some o => ofOutline directives role props o
  | none => ofNothing directives role props offset before

def ofMapItems (directives : Directives) (indent : Nat) :
    List (Item Outline) → Progress (Node × Option Node) → Checked (Progress (Node × Option Node))
  | [], p => pure p
  | ⟨start, _, key, separator, value⟩ :: rest, p => do
    let props ← blockKeyProperties indent p.offset start key separator
    if ← isBlockGap indent p.offset props key separator then
      ofMapItems directives indent rest { p with commentStop := some props.stop }
    else
      checkBlockKey indent p.offset props start key
      let keyNode ← ofOption directives .key props props.stop start key
      Checked.wrongIf (hasKey keyNode p.found) ⟨props.stop, props.stop + 1⟩
      let valueProps ← blockValueProperties indent keyNode key (separator.getD []) value
      if valueProps.indicator.isSome then
        checkBlockValue props valueProps keyNode value
        let valueNode ← ofOption directives .value valueProps valueProps.stop (separator.getD []) value
        ofMapItems directives indent rest
          { p with offset := valueNode.extent.after, found := p.found ++ [(keyNode, some valueNode)] }
      else
        Checked.wrongIf props.indicator.isNone keyNode.extent.span
        ofMapItems directives indent rest
          { p with offset := valueProps.stop, found := p.found ++ [(keyNode, none)] }

def ofSequenceItems (directives : Directives) (indent : Nat) :
    List (Item Outline) → Progress Node → Checked (Progress Node)
  | [], p => pure p
  | ⟨start, _, _, _, value⟩ :: rest, p => do
    let props ← Properties.ofMarks
      { inFlow := false
        indicator := .sequenceItem
        next := value.map Outline.following
        offset := p.offset
        parentIndent := indent
        onNewLine := true } start
    if props.indicator.isNone && !props.hasAny && value.isNone then
      ofSequenceItems directives indent rest { p with commentStop := some props.stop }
    else
      if props.indicator.isNone then
        match value with
        | some (.sequence ..) => Checked.wrongAt props.stop
        | _ => Checked.wrongAt p.offset
      let node ← ofOption directives .value props props.stop start value
      ofSequenceItems directives indent rest
        { p with offset := node.extent.after, found := p.found ++ [node] }

/-- The pairs of a flow mapping. -/
def ofFlowMapItems (directives : Directives) (indent : Nat) (first : Bool) :
    List (Item Outline) → Progress (Node × Option Node) → Checked (Progress (Node × Option Node))
  | [], p => pure p
  | ⟨start, _, key, separator, value⟩ :: rest, p => do
    let next := (key.map Outline.following).or ((separator.bind List.head?).map Mark.following)
    let props ← flowProperties .explicitKey indent p.offset next start
    if props.indicator.isNone && !props.hasAny && separator.isNone && value.isNone then
      checkFlowGap first rest.isEmpty props
      ofFlowMapItems directives indent false rest { p with offset := props.stop }
    else
      checkFlowItem true first props key
      let found := noteComment start p.found
      let keyNode ← ofOption directives .key props props.stop start key
      checkNoBlock key keyNode
      let valueProps ← flowProperties .mapValue indent keyNode.extent.after
        (value.map Outline.following) (separator.getD [])
      if valueProps.indicator.isNone then checkFlowValue valueProps value
      if valueProps.indicator.isSome || value.isSome then
        let valueNode ← ofOption directives .value valueProps valueProps.stop (separator.getD []) value
        checkNoBlock value valueNode
        Checked.wrongIf (hasKey keyNode found) ⟨props.stop, props.stop + 1⟩
        ofFlowMapItems directives indent false rest
          { p with offset := valueNode.extent.after, found := found ++ [(keyNode, some valueNode)] }
      else
        Checked.wrongIf (hasKey keyNode found) ⟨props.stop, props.stop + 1⟩
        ofFlowMapItems directives indent false rest
          { p with offset := valueProps.stop, found := found ++ [(keyNode, none)] }

/-- The elements of a flow sequence. A pair among them is a mapping of its own. -/
def ofFlowSequenceItems (directives : Directives) (indent : Nat) (first : Bool) :
    List (Item Outline) → Progress Node → Checked (Progress Node)
  | [], p => pure p
  | ⟨start, _, key, separator, value⟩ :: rest, p => do
    let next := (key.map Outline.following).or ((separator.bind List.head?).map Mark.following)
    let props ← flowProperties .explicitKey indent p.offset next start
    if props.indicator.isNone && !props.hasAny && separator.isNone && value.isNone then
      checkFlowGap first rest.isEmpty props
      ofFlowSequenceItems directives indent false rest { p with offset := props.stop }
    else
      checkFlowItem false first props key
      if separator.isNone && props.indicator.isNone then
        let node ← ofOption directives .value props props.stop [] value
        checkNoBlock value node
        ofFlowSequenceItems directives indent false rest
          { p with offset := node.extent.after, found := p.found ++ [node] }
      else
        let keyNode ← ofOption directives .key props props.stop start key
        checkNoBlock key keyNode
        let valueProps ← flowProperties .mapValue indent keyNode.extent.after
          (value.map Outline.following) (separator.getD [])
        match valueProps.indicator with
        | some colon =>
          if props.indicator.isNone then checkFlowPair props (separator.getD []) colon
        | none => checkFlowValue valueProps value
        if valueProps.indicator.isSome || value.isSome then
          let valueNode ← ofOption directives .value valueProps valueProps.stop (separator.getD []) value
          checkNoBlock value valueNode
          let extent := { valueNode.extent with start := keyNode.extent.start }
          ofFlowSequenceItems directives indent false rest
            { p with
              offset := valueNode.extent.after
              found := p.found ++ [.map extent [(keyNode, some valueNode)]] }
        else
          ofFlowSequenceItems directives indent false rest
            { p with
              offset := valueProps.stop
              found := p.found ++ [.map keyNode.extent [(keyNode, none)]] }

end

end Node

end Calculator.Yaml
