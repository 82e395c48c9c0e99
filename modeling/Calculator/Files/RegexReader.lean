import Calculator.Files.Regex

/-!
The notation of regular expressions. Groups are only kept for what they hold together, and a notation
that is no regular expression reads as none.
-/
namespace Calculator.RegexReader

/-- Hexadecimal value of a unit. -/
def hexValue? (u : CodeUnit) : Option Nat :=
  if Text.isDigit u then some (u.toNat - 0x30)
  else if 0x61 ≤ u && u ≤ 0x66 then some (u.toNat - 0x61 + 10)
  else if 0x41 ≤ u && u ≤ 0x46 then some (u.toNat - 0x41 + 10)
  else none

/-- The unit that so many hexadecimal digits stand for, and what is behind them. -/
def readHex? (count : Nat) (t : Text) : Option (CodeUnit × Text) :=
  let digits := t.take count
  let values := digits.filterMap hexValue?
  if values.length = count then
    some ((values.foldl (fun n d => 16 * n + d) 0).toUInt16, t.drop count)
  else none

/-- The value of digits below ten. -/
def valueOf (base : Nat) (digits : Text) : Nat :=
  digits.foldl (fun n u => base * n + (u.toNat - 0x30)) 0

def isOctal (u : CodeUnit) : Bool :=
  0x30 ≤ u && u ≤ 0x37

/-- The unit of up to three octal digits below 256, and what is behind them. -/
def readOctal (t : Text) : CodeUnit × Text :=
  let most := if (t.head?.map fun u => decide (u ≤ 0x33)).getD false then 3 else 2
  let digits := (t.take most).takeWhile isOctal
  ((valueOf 8 digits).toUInt16, t.drop digits.length)

/-- The complement of ranges in ascending order, from a lowest unit on. -/
def gaps : (lowest : Nat) → List (CodeUnit × CodeUnit) → List (CodeUnit × CodeUnit)
  | low, [] => if low ≤ 0xFFFF then [(low.toUInt16, 0xFFFF)] else []
  | low, (a, b) :: rest =>
    (if low < a.toNat then [(low.toUInt16, a - 1)] else []) ++ gaps (b.toNat + 1) rest

/-- Letters that stand for a set behind a backslash. -/
def setOfLetter? (u : CodeUnit) : Option UnitSet :=
  ([ (Text.code 'd', UnitSet.digits),
    (Text.code 'w', UnitSet.wordUnits),
    (Text.code 's', UnitSet.blanks),
    (Text.code 'D', ⟨false, gaps 0 UnitSet.digits.ranges⟩),
    (Text.code 'W', ⟨false, gaps 0 UnitSet.wordUnits.ranges⟩),
    (Text.code 'S', ⟨false, gaps 0 UnitSet.blanks.ranges⟩) ] :
      List (CodeUnit × UnitSet)).lookup u

/-- Letters that stand for a control character behind a backslash. -/
def controlOfLetter? (u : CodeUnit) : Option CodeUnit :=
  ([ (Text.code 't', 0x09), (Text.code 'n', 0x0A), (Text.code 'v', 0x0B), (Text.code 'f', 0x0C),
    (Text.code 'r', 0x0D) ] : List (CodeUnit × CodeUnit)).lookup u

/-- What stands behind a backslash, and what follows it. Any unit without a meaning of its own stands for
itself. -/
def readEscape? : Text → Option (UnitSet × Text)
  | [] => none
  | u :: rest =>
    if let some s := setOfLetter? u then some (s, rest)
    else if let some c := controlOfLetter? u then some (.single c, rest)
    else if isOctal u then
      let (c, rest) := readOctal (u :: rest)
      some (.single c, rest)
    else if u = Text.code 'c' then
      match rest with
      | v :: behind =>
        if Text.isLetter v then some (.single (v % 32), behind) else some (.single 0x5C, u :: rest)
      | [] => some (.single 0x5C, [u])
    else
      let hex := if u = Text.code 'x' then readHex? 2 rest
        else if u = Text.code 'u' then readHex? 4 rest
        else none
      match hex with
      | some (c, behind) => some (.single c, behind)
      | none => some (.single u, rest)

/-- One member of a set in brackets, and what follows it. -/
def readMember? : Text → Option (UnitSet × Text)
  | [] => none
  | 0x5C :: 0x62 :: rest => some (.single 0x08, rest)
  | 0x5C :: rest => readEscape? rest
  | u :: rest => some (.single u, rest)

/-- The range between two members. A set is no bound, so that the hyphen then stands for itself. -/
def rangeBetween? (low high : UnitSet) : Option (List (CodeUnit × CodeUnit)) :=
  match low.ranges, high.ranges with
  | [(a, b)], [(c, d)] =>
    if a = b ∧ c = d then (if a ≤ c then some [(a, c)] else none)
    else some [(a, b), (0x2D, 0x2D), (c, d)]
  | rs, ss => some (rs ++ [(0x2D, 0x2D)] ++ ss)

/-- The members of a set in brackets up to its end, and what follows it. -/
def readMembers? : Nat → Text → Option (List (CodeUnit × CodeUnit) × Text)
  | 0, _ => none
  | fuel + 1, t =>
    match t with
    | [] => none
    | 0x5D :: rest => some ([], rest)
    | _ =>
      match readMember? t with
      | none => none
      | some (low, 0x2D :: rest) =>
        match rest with
        | 0x5D :: behind => some (low.ranges ++ [(0x2D, 0x2D)], behind)
        | _ =>
          match readMember? rest with
          | none => none
          | some (high, rest) =>
            match rangeBetween? low high, readMembers? fuel rest with
            | some ranges, some (more, behind) => some (ranges ++ more, behind)
            | _, _ => none
      | some (s, rest) =>
        (readMembers? fuel rest).map fun (more, behind) => (s.ranges ++ more, behind)

/-- The numbers of a repetition in braces, and what follows it. -/
def readCounts? (t : Text) : Option ((Nat × Option Nat) × Text) :=
  let first := t.takeWhile Text.isDigit
  if first = [] then none
  else
    match t.drop first.length with
    | 0x7D :: rest => some ((valueOf 10 first, some (valueOf 10 first)), rest)
    | 0x2C :: rest =>
      let second := rest.takeWhile Text.isDigit
      match rest.drop second.length with
      | 0x7D :: behind =>
        some ((valueOf 10 first, if second = [] then none else some (valueOf 10 second)), behind)
      | _ => none
    | _ => none

/-- How often the preceding item is repeated, and what follows. -/
def readRepetition? : Text → Option ((Nat × Option Nat) × Text)
  | 0x2A :: rest => some ((0, none), rest)
  | 0x2B :: rest => some ((1, none), rest)
  | 0x3F :: rest => some ((0, some 1), rest)
  | 0x7B :: rest => readCounts? rest
  | _ => none

/-- Applies the repetition behind an item. A question mark behind the repetition only asks for short matches
first. -/
def repeatItem? (r : Regex) (t : Text) : Option (Regex × Text) :=
  match readRepetition? t with
  | none => some (r, t)
  | some ((least, most), rest) =>
    let rest := if rest.head? = some 0x3F then rest.drop 1 else rest
    if (most.map fun most => decide (least ≤ most)).getD true then some (.repeated least most r, rest) else none

/-- What a group is for. -/
inductive GroupRole where
  | plain
  | ahead (negated : Bool)
  | behind (negated : Bool)

/-- What stands behind an opening bracket: the role of the group, and its content. -/
def readRole? : Text → Option (GroupRole × Text)
  | 0x3F :: 0x3A :: rest => some (.plain, rest)
  | 0x3F :: 0x3D :: rest => some (.ahead false, rest)
  | 0x3F :: 0x21 :: rest => some (.ahead true, rest)
  | 0x3F :: 0x3C :: 0x3D :: rest => some (.behind false, rest)
  | 0x3F :: 0x3C :: 0x21 :: rest => some (.behind true, rest)
  | 0x3F :: 0x3C :: rest =>
    let name := rest.takeWhile Text.isWordUnit
    match rest.drop name.length with
    | 0x3E :: behind =>
      if name = [] ∨ (name.head?.map Text.isDigit).getD false then none else some (.plain, behind)
    | _ => none
  | 0x3F :: _ => none
  | t => some (.plain, t)

mutual

/-- Alternatives up to a closing bracket or the end. -/
def readEither? : Nat → Text → Option (Regex × Text)
  | 0, _ => none
  | fuel + 1, t =>
    match readSequence? fuel t with
    | some (r, 0x7C :: rest) => (readEither? fuel rest).map fun (s, behind) => (.either r s, behind)
    | other => other

/-- Items up to the end of an alternative. -/
def readSequence? : Nat → Text → Option (Regex × Text)
  | 0, _ => none
  | fuel + 1, t =>
    match t with
    | [] => some (.blank, [])
    | u :: _ =>
      if u = 0x7C ∨ u = 0x29 then some (.blank, t)
      else
        match readItem? fuel t with
        | none => none
        | some (r, rest) => (readSequence? fuel rest).map fun (s, behind) => (.append r s, behind)

/-- One item with its repetition. -/
def readItem? : Nat → Text → Option (Regex × Text)
  | 0, _ => none
  | fuel + 1, t =>
    match t with
    | [] => none
    | 0x5E :: rest => some (.start, rest)
    | 0x24 :: rest => some (.finish, rest)
    | 0x5C :: 0x62 :: rest => some (.wordEdge false, rest)
    | 0x5C :: 0x42 :: rest => some (.wordEdge true, rest)
    | 0x5C :: rest =>
      match readEscape? rest with
      | none => none
      | some (s, rest) => repeatItem? (.unit s) rest
    | 0x28 :: rest =>
      match readRole? rest with
      | none => none
      | some (role, rest) =>
        match readEither? fuel rest with
        | some (r, 0x29 :: behind) =>
          match role with
          | .plain => repeatItem? r behind
          | .ahead negated => repeatItem? (.ahead negated r) behind
          | .behind negated => some (.behind negated r, behind)
        | _ => none
    | 0x5B :: rest =>
      let negated := rest.head? = some 0x5E
      match readMembers? (rest.length + 1) (if negated then rest.drop 1 else rest) with
      | none => none
      | some (ranges, rest) => repeatItem? (.unit ⟨negated, ranges⟩) rest
    | 0x2E :: rest => repeatItem? (.unit .withinLine) rest
    | u :: rest =>
      if (readRepetition? t).isSome then none else repeatItem? (.unit (.single u)) rest

end

/-- Reads a whole notation. Every item takes at least one unit and at most three calls. -/
def read? (t : Text) : Option Regex :=
  match readEither? (3 * t.length + 3) t with
  | some (r, []) => some r
  | _ => none

end Calculator.RegexReader
