import Calculator.Yaml.Outline

/-!
Building the outline from the pieces of a text. The open collections stand on a stack, the innermost
first; each piece is handed to the innermost one, which takes it or closes itself and hands it on.
-/
namespace Calculator.Yaml

inductive Frame where
  | document (d : DocumentOutline)
  | documentEnd (offset : Nat) (source : Text) (tail : Option (List Mark))
  | value (o : Outline)

structure Builder where
  stack : List Frame
  offset : Nat
  indent : Nat
  /-- Nothing but white space and indicators stands before the piece on its line. -/
  atNewLine : Bool
  /-- A key of a block mapping stands on this line. -/
  onKeyLine : Bool
  /-- The finished parts, the last one first. -/
  parts : List Part
  /-- Offsets of line starts, the last one first. -/
  lineStarts : List Nat

namespace Builder

def emit (p : Part) (b : Builder) : Builder :=
  { b with parts := p :: b.parts }

def push (f : Frame) (b : Builder) : Builder :=
  { b with stack := f :: b.stack }

/-- Replaces the innermost frame. -/
def setTop (f : Frame) (b : Builder) : Builder :=
  { b with stack := f :: b.stack.drop 1 }

def updateLast {α : Type} (f : α → α) : List α → List α
  | [] => []
  | [a] => [f a]
  | a :: rest => a :: updateLast f rest

/-- In a flow sequence what was taken for a key without a value is an element. -/
def fixSequenceItem (item : Item Outline) : Item Outline :=
  match item.separator with
  | none => item
  | some separator =>
    if item.value.isSome || includes .explicitKey item.start || includes .mapValue separator then item
    else
      match item.key with
      | none => { item with start := item.start ++ separator, separator := none }
      | some key =>
        if key.isFlow then
          { item with key := none, separator := none, value := some (key.extendTail separator) }
        else
          { item with start := item.start ++ separator, key := none, separator := none, value := some key }

def fixFlow : Outline → Outline
  | .flow opening items tail =>
    if opening.kind = .sequenceOpen then .flow opening (items.map fixSequenceItem) tail
    else .flow opening items tail
  | o => o

/-- A value that is handed to its parent: a block scalar takes the parent's indentation, and so much as
none counts for a flow collection at the top. -/
def adjust (parent : Frame) (o : Outline) : Outline :=
  match o, parent with
  | .block offset _ header source, .value p => .block offset ((p.indent?).getD 0) header source
  | .block offset _ header source, _ => .block offset 0 header source
  | .flow opening items tail, .document _ => fixFlow (.flow { opening with indent := 0 } items tail)
  | .flow opening items tail, _ => fixFlow (.flow opening items tail)
  | o, _ => o

/-- Trailing white space and comments that are indented no more than the collection they stand in do not
belong to it. -/
def splitTrailing (o : Outline) : Outline × List Mark :=
  let movable (indent : Nat) (items : List (Item Outline)) : List Mark :=
    match items.getLast? with
    | none => []
    | some last =>
      if last.separator.isNone && last.value.isNone && allEmpty last.start
          && (indent == 0 || last.start.all fun m => m.kind != .comment || m.indent < indent)
      then last.start else []
  match o with
  | .map offset indent items =>
    match movable indent items with
    | [] => (o, [])
    | marks => (.map offset indent items.dropLast, marks)
  | .sequence offset indent items =>
    match movable indent items with
    | [] => (o, [])
    | marks => (.sequence offset indent items.dropLast, marks)
  | o => (o, [])

/-- Adds an item with what a closed collection left over. -/
def withRest (rest : List Mark) (items : List (Item Outline)) : List (Item Outline) :=
  if rest = [] then items else items ++ [{ start := rest }]

/-- Whether the last item of a mapping has a key but waits for its value. -/
def placeInMap (o : Outline) (items : List (Item Outline)) : List (Item Outline) × Option Bool :=
  match items.getLast? with
  | none => (items ++ [{ start := [], key := some o, separator := some [] }], some true)
  | some last =>
    if last.value.isSome then
      (items ++ [{ start := [], key := some o, separator := some [] }], some true)
    else if last.separator.isSome then (updateLast (fun i => { i with value := some o }) items, none)
    else
      (updateLast (fun i => { i with key := some o, separator := some [] }) items,
        some (!last.explicitKey))

def placeInFlow (o : Outline) (items : List (Item Outline)) : List (Item Outline) :=
  match items.getLast? with
  | none => items ++ [{ start := [], key := some o, separator := some [] }]
  | some last =>
    if last.value.isSome then items ++ [{ start := [], key := some o, separator := some [] }]
    else if last.separator.isSome then updateLast (fun i => { i with value := some o }) items
    else updateLast (fun i => { i with key := some o, separator := some [] }) items

def placeInSequence (o : Outline) (items : List (Item Outline)) : List (Item Outline) :=
  match items.getLast? with
  | none => items ++ [{ start := [], value := some o }]
  | some last =>
    if last.value.isSome then items ++ [{ start := [], value := some o }]
    else updateLast (fun i => { i with value := some o }) items

/-- Turns the bottom of the stack into a part. -/
def finish (f : Frame) (b : Builder) : Builder :=
  match f with
  | .document d => b.emit (.document d)
  | .documentEnd offset source tail => b.emit (.documentEnd offset source tail)
  | .value (.stray m) => b.emit (.stray m.offset m.source)
  | .value _ => b

/-- Hands a finished value to the innermost frame. A frame that can hold none is closed first. -/
def deliver : Nat → Outline → Builder → Builder
  | 0, _, b => b
  | fuel + 1, o, b =>
    match b.stack with
    | [] => b.finish (.value o)
    | top :: below =>
      let o := adjust top o
      match top with
      | .document d =>
        let (o, rest) := splitTrailing o
        let d := { d with value := some o }
        b.setTop (.document (if rest = [] then d else { d with tail := some rest }))
      | .documentEnd offset source tail =>
        deliver fuel o ({ b with stack := below }.finish (.documentEnd offset source tail))
      | .value (.block offset indent header source) =>
        match o with
        | .stray m => b.setTop (.value (.block offset indent (header ++ [m]) source))
        | _ => b
      | .value (.map offset indent items) =>
        match placeInMap o items with
        | (items, some onKeyLine) =>
          { b.setTop (.value (.map offset indent items)) with onKeyLine := onKeyLine }
        | (_, none) =>
          let (o, rest) := splitTrailing o
          b.setTop (.value (.map offset indent (withRest rest (placeInMap o items).1)))
      | .value (.sequence offset indent items) =>
        let (o, rest) := splitTrailing o
        b.setTop (.value (.sequence offset indent (withRest rest (placeInSequence o items))))
      | .value (.flow opening items tail) =>
        b.setTop (.value (.flow opening (placeInFlow o items) tail))
      | .value other => deliver fuel o (deliver fuel other { b with stack := below })

/-- Closes the innermost frame. -/
def pop (b : Builder) : Builder :=
  match b.stack with
  | [] => b
  | [f] => { b with stack := [] }.finish f
  | .value o :: below => deliver (b.stack.length + 1) o { b with stack := below }
  | _ :: below => { b with stack := below }

def popAll : Nat → Builder → Builder
  | 0, b => b
  | fuel + 1, b => if b.stack.isEmpty then b else popAll fuel b.pop

/-- The marks before a value that are properties of a key on the same line; the rest stays. -/
def splitKeyProps (marks : List Mark) : List Mark × List Mark :=
  let isBound (m : Mark) : Bool :=
    match m.kind with
    | .documentStart => true
    | .explicitKey => true
    | .mapValue => true
    | .sequenceItem => true
    | .newline => true
    | _ => false
  let line := (marks.reverse.takeWhile fun m => !isBound m).reverse
  let props := line.dropWhile fun m => m.kind == .space
  (marks.take (marks.length - props.length), props)

/-- Takes the properties of a key away from the frame that holds them. -/
def takeKeyProps : Frame → List Mark × Frame
  | .document d =>
    let (rest, props) := splitKeyProps d.start
    (props, .document { d with start := rest })
  | .value (.map offset indent items) =>
    match items.getLast? with
    | none => ([], .value (.map offset indent items))
    | some last =>
      match last.separator with
      | some separator =>
        let (rest, props) := splitKeyProps separator
        (props, .value (.map offset indent
          (updateLast (fun i => { i with separator := some rest }) items)))
      | none =>
        let (rest, props) := splitKeyProps last.start
        (props, .value (.map offset indent (updateLast (fun i => { i with start := rest }) items)))
  | .value (.sequence offset indent items) =>
    match items.getLast? with
    | none => ([], .value (.sequence offset indent items))
    | some last =>
      let (rest, props) := splitKeyProps last.start
      (props, .value (.sequence offset indent (updateLast (fun i => { i with start := rest }) items)))
  | f => ([], f)

/-- Notes the line starts within a scalar. -/
def countLines (source : Text) (b : Builder) : Builder :=
  { b with lineStarts := (go b.offset source).reverse ++ b.lineStarts }
where
  go (offset : Nat) : Text → List Nat
    | [] => []
    | u :: rest => if u = 0x0A then (offset + 1) :: go (offset + 1) rest else go (offset + 1) rest

def isFlatKind : Kind → Bool
  | .reference => true
  | .scalar => true
  | .singleQuoted => true
  | .doubleQuoted => true
  | _ => false

def flat (m : Mark) : Outline :=
  .flat m.kind m.offset m.indent m.source none

/-- Opens the value that a piece begins, if it begins one; the properties of a first key are taken from
the innermost frame. -/
def open? (m : Mark) (b : Builder) : Option (Outline × Builder) :=
  if isFlatKind m.kind then some (flat m, b.countLines m.source)
  else
    match m.kind, b.stack with
    | .blockHeader, _ => some (.block m.offset m.indent [m] [], b)
    | .mapOpen, _ => some (.flow m [] [], b)
    | .sequenceOpen, _ => some (.flow m [] [], b)
    | .sequenceItem, _ => some (.sequence m.offset m.indent [{ start := [m] }], b)
    | .explicitKey, top :: _ =>
      let (props, top) := takeKeyProps top
      some (.map m.offset m.indent [{ start := props ++ [m], explicitKey := true }],
        { b.setTop top with onKeyLine := true })
    | .mapValue, top :: _ =>
      let (props, top) := takeKeyProps top
      some (.map m.offset m.indent [{ start := props, separator := some [m] }],
        { b.setTop top with onKeyLine := true })
    | _, _ => none

/-- Pieces outside of documents. -/
def stepStream (m : Mark) (b : Builder) : Builder :=
  match m.kind with
  | .directive => b.emit (.directive m.offset m.source)
  | .byteOrderMark => b
  | .space => b
  | .comment => b
  | .newline => b
  | .documentStart => b.push (.document { offset := m.offset, start := [m] })
  | _ => b.emit (.stray m.offset m.source)

/-- What a collection does with a piece: it has taken it, or it is closed and hands it on. -/
inductive Verdict where
  | taken (b : Builder)
  | close (b : Builder)

/-- The rest of a line behind a value; marks of structure close the value. -/
def stepTail (m : Mark) (extend : Mark → Frame) (b : Builder) : Verdict :=
  match m.kind with
  | .comma => .close b
  | .documentStart => .close b
  | .documentEnd => .close b
  | .sequenceClose => .close b
  | .mapClose => .close b
  | .mapValue => .close b
  | .newline => .taken { b.setTop (extend m) with onKeyLine := false }.pop
  | _ => .taken (b.setTop (extend m))

def stepDocument (m : Mark) (d : DocumentOutline) (b : Builder) : Verdict :=
  if d.value.isSome then
    stepTail m (fun m => .document { d with tail := some (d.tail.getD [] ++ [m]) }) b
  else
    let add := Verdict.taken (b.setTop (.document { d with start := d.start ++ [m] }))
    match m.kind with
    | .documentStart => if allEmpty d.start then add else .close b
    | .anchor => add
    | .tag => add
    | .space => add
    | .comment => add
    | .newline => add
    | _ =>
      match b.open? m with
      | some (o, b) => .taken (b.push (.value o))
      | none => .taken (b.emit (.stray m.offset m.source))

/-- A colon behind a scalar makes it the first key of a block mapping. -/
def stepFlat (m : Mark) (o : Outline) (kind : Kind) (offset indent : Nat) (source : Text)
    (tail : Option (List Mark)) (b : Builder) : Verdict :=
  if m.kind = .mapValue then
    match b.stack with
    | _ :: parent :: below =>
      let (props, parent) := takeKeyProps parent
      let item : Item Outline :=
        { start := props
          key := some (.flat kind offset indent source none)
          separator := some (tail.getD [] ++ [m]) }
      .taken { b with stack := .value (.map offset indent [item]) :: parent :: below, onKeyLine := true }
    | _ => .taken b
  else stepTail m (fun m => .value (o.extendTail [m])) b

def stepBlock (m : Mark) (offset indent : Nat) (header : List Mark) (b : Builder) : Verdict :=
  match m.kind with
  | .space => .taken (b.setTop (.value (.block offset indent (header ++ [m]) [])))
  | .comment => .taken (b.setTop (.value (.block offset indent (header ++ [m]) [])))
  | .newline => .taken (b.setTop (.value (.block offset indent (header ++ [m]) [])))
  | .scalar =>
    let b := b.countLines m.source
    .taken ({ b with atNewLine := true, indent := 0 }.setTop
      (.value (.block offset indent header m.source))).pop
  | _ => .close b

/-- A comment more indented than the collection belongs to the value before it. -/
def isIndentedComment (m : Mark) (start : List Mark) (indent : Nat) : Bool :=
  m.kind == .comment && indent < m.indent
    && start.all fun s => s.kind == .newline || s.kind == .space

/-- Moves an indented comment behind the value before the last item, if that keeps such. -/
def moveComment? (m : Mark) (items : List (Item Outline)) : Option (List (Item Outline)) :=
  match items.reverse with
  | last :: previous :: rest =>
    match previous.value with
    | some v =>
      if v.tail?.isSome then
        some ((({ previous with value := some (v.extendTail (last.start ++ [m])) } : Item Outline)
          :: rest).reverse)
      else none
    | none => none
  | _ => none

/-- A line end behind a finished item. -/
def newlineAfterValue (m : Mark) (items : List (Item Outline)) (v : Outline) : List (Item Outline) :=
  match v.tail?.bind List.getLast? with
  | some last =>
    if last.kind = .comment then
      updateLast (fun i => { i with value := some (v.extendTail [m]) }) items
    else items ++ [{ start := [m] }]
  | none => items ++ [{ start := [m] }]

/-- The empty lines in front of an item that stand behind the separator of the item before: from the
second line end on, unless something else follows. -/
def followingLines (indent : Nat) (separator : List Mark) : List Mark × List Mark :=
  let ends := (List.range separator.length).foldl (fun ends i =>
    match separator[i]? with
    | none => ends
    | some m =>
      match m.kind with
      | .newline => ends ++ [i]
      | .space => ends
      | .comment => if indent < m.indent then [] else ends
      | _ => []) []
  match ends with
  | _ :: second :: _ => (separator.take second, separator.drop second)
  | _ => (separator, [])

def stepMap (m : Mark) (offset indent : Nat) (items : List (Item Outline)) (b : Builder) : Verdict :=
  let set (items : List (Item Outline)) : Builder := b.setTop (.value (.map offset indent items))
  let onKey (items : List (Item Outline)) : Verdict := .taken { set items with onKeyLine := true }
  let last : Item Outline := items.getLast?.getD { start := [] }
  let addStart (items : List (Item Outline)) : List (Item Outline) :=
    updateLast (fun i => { i with start := i.start ++ [m] }) items
  let addSeparator (items : List (Item Outline)) : List (Item Outline) :=
    updateLast (fun i => { i with separator := some (i.separator.getD [] ++ [m]) }) items
  let addEmpty : List (Item Outline) :=
    if last.separator.isSome then addSeparator items
    else if isIndentedComment m last.start indent then (moveComment? m items).getD (addStart items)
    else addStart items
  match m.kind with
  | .newline =>
    let items := match last.value with
      | some v => newlineAfterValue m items v
      | none => if last.separator.isSome then addSeparator items else addStart items
    Verdict.taken { set items with onKeyLine := false }
  | .space => .taken (set (if last.value.isSome then items ++ [{ start := [m] }] else addEmpty))
  | .comment => .taken (set (if last.value.isSome then items ++ [{ start := [m] }] else addEmpty))
  | _ =>
    if m.indent < indent then .close b
    else
      let atMapIndent := !b.onKeyLine && m.indent == indent
      let atNextItem := atMapIndent && (last.separator.isSome || last.explicitKey)
        && m.kind != .sequenceItem
      -- empty lines between the items go to the new one
      let (items, start) :=
        match last.separator with
        | some separator =>
          if atNextItem && last.value.isNone then
            let (kept, moved) := followingLines indent separator
            (updateLast (fun (i : Item Outline) => { i with separator := some kept }) items, moved)
          else (items, [])
        | none => (items, [])
      let separator := if start = [] then last.separator
        else last.separator.map fun s => s.take (s.length - start.length)
      let next := atNextItem || last.value.isSome
      let nested (item : Item Outline) : Builder :=
        (set items).push (.value (.map m.offset m.indent [item]))
      match m.kind with
      | .anchor =>
        if next then onKey (items ++ [{ start := start ++ [m] }])
        else if separator.isSome then .taken (set (addSeparator items))
        else .taken (set (addStart items))
      | .tag =>
        if next then onKey (items ++ [{ start := start ++ [m] }])
        else if separator.isSome then .taken (set (addSeparator items))
        else .taken (set (addStart items))
      | .explicitKey =>
        let b : Builder :=
          if separator.isNone && !last.explicitKey then
            set (updateLast (fun i => { i with start := i.start ++ [m], explicitKey := true }) items)
          else if next then set (items ++ [{ start := start ++ [m], explicitKey := true }])
          else nested { start := [m], explicitKey := true }
        .taken { b with onKeyLine := true }
      | .mapValue =>
        let b : Builder :=
          match separator with
          | none =>
            if last.explicitKey && !includes .newline last.start then
              let (rest, props) := splitKeyProps last.start
              (set (updateLast (fun i => { i with start := rest }) items)).push
                (.value (.map m.offset m.indent [{ start := props, separator := some [m] }]))
            else set (updateLast (fun i => { i with key := none, separator := some [m] }) items)
          | some separator =>
            if last.explicitKey then
              if last.value.isSome then set (items ++ [{ start := [], separator := some [m] }])
              else if includes .mapValue separator then
                nested { start := start, separator := some [m] }
              else
                match last.key with
                | some key =>
                  if key.isFlow && !includes .newline separator then
                    let (rest, props) := splitKeyProps last.start
                    (set (updateLast (fun i =>
                        { i with start := rest, key := none, separator := none }) items)).push
                      (.value (.map m.offset m.indent
                        [{ start := props, key := some key, separator := some (separator ++ [m]) }]))
                  else set (updateLast (fun i =>
                      { i with separator := some (separator ++ start ++ [m]) }) items)
                | none => set (updateLast (fun i =>
                      { i with separator := some (separator ++ start ++ [m]) }) items)
            else if next then set (items ++ [{ start := start, separator := some [m] }])
            else if includes .mapValue separator then nested { start := [], separator := some [m] }
            else set (addSeparator items)
        .taken { b with onKeyLine := true }
      | kind =>
        if isFlatKind kind then
          let place (items : List (Item Outline)) : Builder := (set items).countLines m.source
          if next then
            let item : Item Outline := { start := start, key := some (flat m), separator := some [] }
            .taken { place (items ++ [item]) with onKeyLine := true }
          else if separator.isSome then .taken ((place items).push (.value (flat m)))
          else
            let keyed : List (Item Outline) :=
              updateLast (fun i => { i with key := some (flat m), separator := some [] }) items
            .taken { place keyed with onKeyLine := true }
        else
          match (set items).open? m with
          | none => .close (set items)
          | some (.sequence o i elements, b) =>
            if !last.explicitKey && separator.isSome && !includes .newline (separator.getD []) then
              .taken (deliver (b.stack.length + 1)
                (.stray { m with kind := .stray }) b)
            else .taken (b.push (.value (.sequence o i elements)))
          | some (o, b) =>
            if atMapIndent then
              .taken ((b.setTop (.value (.map offset indent (items ++ [{ start := start }])))).push
                (.value o))
            else .taken (b.push (.value o))

def stepSequence (m : Mark) (offset indent : Nat) (items : List (Item Outline)) (b : Builder) :
    Verdict :=
  let set (items : List (Item Outline)) : Builder := b.setTop (.value (.sequence offset indent items))
  let last : Item Outline := items.getLast?.getD { start := [] }
  let addStart : List (Item Outline) :=
    updateLast (fun (i : Item Outline) => { i with start := i.start ++ [m] }) items
  let value : Verdict :=
    if indent < m.indent then
      match b.open? m with
      | some (o, b) => .taken (b.push (.value o))
      | none => .close b
    else .close b
  match m.kind with
  | .newline =>
    match last.value with
    | some v => .taken (set (newlineAfterValue m items v))
    | none => .taken (set addStart)
  | .space => .taken (set (if last.value.isSome then items ++ [{ start := [m] }] else addStart))
  | .comment =>
    if last.value.isSome then .taken (set (items ++ [{ start := [m] }]))
    else if isIndentedComment m last.start indent then
      .taken (set ((moveComment? m items).getD addStart))
    else .taken (set addStart)
  | .anchor => if last.value.isSome ∨ m.indent ≤ indent then value else .taken (set addStart)
  | .tag => if last.value.isSome ∨ m.indent ≤ indent then value else .taken (set addStart)
  | .sequenceItem =>
    if m.indent ≠ indent then value
    else if last.value.isSome || includes .sequenceItem last.start then
      .taken (set (items ++ [{ start := [m] }]))
    else .taken (set addStart)
  | _ => value

/-- Closes the open flow collections. -/
def popFlow : Nat → Builder → Builder
  | 0, b => b
  | fuel + 1, b =>
    match b.pop.stack with
    | .value (.flow ..) :: _ => popFlow fuel b.pop
    | _ => b.pop

def stepFlow (m : Mark) (opening : Mark) (items : List (Item Outline)) (tail : List Mark)
    (b : Builder) : Verdict :=
  let set (items : List (Item Outline)) : Builder := b.setTop (.value (.flow opening items tail))
  let last := items.getLast?
  let value := last.bind Item.value
  let separator := last.bind Item.separator
  let append (item : Item Outline) : Verdict := .taken (set (items ++ [item]))
  let update (f : Item Outline → Item Outline) : Verdict := .taken (set (updateLast f items))
  let addStart : Verdict := update fun i => { i with start := i.start ++ [m] }
  let addSeparator : Verdict :=
    update fun i => { i with separator := some (i.separator.getD [] ++ [m]) }
  let closed : Verdict := .taken (b.setTop (.value (.flow opening items (tail ++ [m]))))
  if m.kind = .flowBroken then .taken (popFlow (b.stack.length + 1) b)
  else if tail = [] then
    let before : Verdict :=
      if last.isNone || value.isSome then append { start := [m] }
      else if separator.isSome then addSeparator
      else addStart
    match m.kind with
    | .comma => if last.isNone || separator.isSome then append { start := [m] } else addStart
    | .explicitKey => if last.isNone || separator.isSome then append { start := [m] } else addStart
    | .mapValue =>
      if last.isNone || value.isSome then append { start := [], separator := some [m] }
      else if separator.isSome then addSeparator
      else update fun i => { i with key := none, separator := some [m] }
    | .space => before
    | .comment => before
    | .newline => before
    | .anchor => before
    | .tag => before
    | .mapClose => closed
    | .sequenceClose => closed
    | kind =>
      if isFlatKind kind then
        let b := b.countLines m.source
        if last.isNone || value.isSome then
          .taken (b.setTop (.value (.flow opening
            (items ++ [{ start := [], key := some (flat m), separator := some [] }]) tail)))
        else if separator.isSome then .taken (b.push (.value (flat m)))
        else
          .taken (b.setTop (.value (.flow opening
            (updateLast (fun i => { i with key := some (flat m), separator := some [] }) items) tail)))
      else
        match b.open? m with
        | some (o, b) => .taken (b.push (.value o))
        | none => .close b
  else
    match b.stack with
    | _ :: parent :: below =>
      let handsOn : Bool := match parent with
        | .value (.map _ indent siblings) =>
          (m.kind == .mapValue && indent == opening.indent)
            || (m.kind == .newline && ((siblings.getLast?).bind Item.separator).isNone)
        | _ => false
      let inFlow : Bool := match parent with
        | .value (.flow ..) => true
        | _ => false
      if handsOn then .close b
      else if m.kind = .mapValue ∧ ¬ inFlow then
        let (props, parent) := takeKeyProps parent
        let key := fixFlow (.flow opening items (tail.take 1))
        let item : Item Outline :=
          { start := props, key := some key, separator := some (tail.drop 1 ++ [m]) }
        .taken { b with
          stack := .value (.map opening.offset opening.indent [item]) :: parent :: below
          onKeyLine := true }
      else stepTail m (fun m => .value (.flow opening items (tail ++ [m]))) b
    | _ => .taken b

def stepDocumentEnd (m : Mark) (offset : Nat) (source : Text) (tail : Option (List Mark))
    (b : Builder) : Builder :=
  let b := b.setTop (.documentEnd offset source (some (tail.getD [] ++ [m])))
  if m.kind = .newline then b.pop else b

/-- Hands a piece to the innermost frame, and on as long as frames close themselves. -/
def step (m : Mark) : Nat → Builder → Builder
  | 0, b => b
  | fuel + 1, b =>
    let onDocumentEnd : Bool := match b.stack with
      | .documentEnd .. :: _ => true
      | _ => false
    if m.kind = .documentEnd ∧ ¬ onDocumentEnd then
      (popAll (b.stack.length + 1) b).push (.documentEnd m.offset m.source none)
    else
      let verdict : Verdict := match b.stack with
        | [] => .taken (b.stepStream m)
        | .document d :: _ => stepDocument m d b
        | .documentEnd offset source tail :: _ => .taken (stepDocumentEnd m offset source tail b)
        | .value (.flat kind offset indent source tail) :: _ =>
          stepFlat m (.flat kind offset indent source tail) kind offset indent source tail b
        | .value (.block offset indent header _) :: _ => stepBlock m offset indent header b
        | .value (.map offset indent items) :: _ => stepMap m offset indent items b
        | .value (.sequence offset indent items) :: _ => stepSequence m offset indent items b
        | .value (.flow opening items tail) :: _ => stepFlow m opening items tail b
        | .value (.stray _) :: _ => .taken b.pop
      match verdict with
      | .taken b => b
      | .close b => step m fuel b.pop

def handle (m : Mark) (b : Builder) : Builder :=
  step m (b.stack.length + 2) b

/-- A piece, and what it says about the line it stands on. -/
def piece (source : Text) (b : Builder) : Builder :=
  let kind := Kind.ofPiece source
  let m : Mark := ⟨kind, b.offset, b.indent, source⟩
  let after (b : Builder) : Builder := { b with offset := b.offset + source.length }
  if kind = .stray then after (deliver (b.stack.length + 1) (.stray m) b)
  else
    let b := b.handle m
    match kind with
    | .newline =>
      after { b with
        atNewLine := true, indent := 0, lineStarts := (b.offset + source.length) :: b.lineStarts }
    | .space =>
      after (if b.atNewLine ∧ source.head? = some 0x20 then
        { b with indent := b.indent + source.length } else b)
    | .explicitKey => after (if b.atNewLine then { b with indent := b.indent + source.length } else b)
    | .mapValue => after (if b.atNewLine then { b with indent := b.indent + source.length } else b)
    | .sequenceItem => after (if b.atNewLine then { b with indent := b.indent + source.length } else b)
    | _ => after { b with atNewLine := false }

/-- A document begins without a marker. -/
def beginContent (b : Builder) : Builder :=
  match b.stack with
  | [] => b.push (.document { offset := b.offset, start := [] })
  | _ => b

/-- The break of a flow collection takes up no room in the text. Outside of such a collection it is a piece
like any other that has no place. -/
def breakFlow (b : Builder) : Builder :=
  b.handle ⟨.flowBroken, b.offset, b.indent, [0x18]⟩

def next (b : Builder) : Lexeme → Builder
  | .content => b.beginContent
  | .flowBroken => b.breakFlow
  | .scalar source =>
    let b := { b with atNewLine := false }
    let b := b.handle ⟨.scalar, b.offset, b.indent, source⟩
    { b with offset := b.offset + source.length }
  | .piece source => b.piece source

end Builder

/-- The parts of a text and the offsets at which its lines start. -/
def outline (lexemes : List Lexeme) : List Part × List Nat :=
  let b := lexemes.foldl Builder.next ⟨[], 0, 0, true, false, [], [0]⟩
  let b := b.popAll (b.stack.length + 1)
  (b.parts.reverse, b.lineStarts.reverse)

end Calculator.Yaml
