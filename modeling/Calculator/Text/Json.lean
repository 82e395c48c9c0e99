import Calculator.Number.Display

/-!
JSON texts. Objects keep the order of their fields. Writing escapes what has to be escaped, and halves
of surrogate pairs that stand alone; reading accepts the JSON texts and no others.
-/
namespace Calculator

inductive Json where
  | null
  | bool (value : Bool)
  | number (value : Binary64)
  | string (text : Text)
  | array (items : List Json)
  | object (fields : List (Text × Json))
  deriving Inhabited

namespace Json

def hexDigit (n : Nat) : CodeUnit :=
  if n < 10 then (0x30 + n).toUInt16 else (0x61 + (n - 10)).toUInt16

/-- Four hexadecimal digits after a backslash and `u`. -/
def escapeCode (u : CodeUnit) : Text :=
  let n := u.toNat
  [0x5C, 0x75, hexDigit (n / 4096), hexDigit (n / 256 % 16), hexDigit (n / 16 % 16), hexDigit (n % 16)]

def escapeUnit (u : CodeUnit) : Text :=
  if u = 0x22 then [0x5C, 0x22]
  else if u = 0x5C then [0x5C, 0x5C]
  else if u = 0x08 then [0x5C, 0x62]
  else if u = 0x0C then [0x5C, 0x66]
  else if u = 0x0A then [0x5C, 0x6E]
  else if u = 0x0D then [0x5C, 0x72]
  else if u = 0x09 then [0x5C, 0x74]
  else if u < 0x20 || Text.isHalf u then escapeCode u
  else [u]

/-- Escapes the content of a string; the two halves of a pair stay as they are. -/
def escape : Text → Text
  | [] => []
  | [u] => escapeUnit u
  | u :: v :: rest =>
    if Text.isHighHalf u && Text.isLowHalf v then u :: v :: escape rest
    else escapeUnit u ++ escape (v :: rest)

def quote (t : Text) : Text :=
  0x22 :: escape t ++ [0x22]

/-- A number that is not finite has no form of its own. -/
def numberText (x : Binary64) : Text :=
  if x.isFinite then x.toText else "null"

mutual

/-- One line, without spaces. -/
def write : Json → Text
  | null => "null"
  | bool b => if b then "true" else "false"
  | number x => numberText x
  | string t => quote t
  | array items => "[" ++ writeItems items ++ "]"
  | object fields => "\x7b" ++ writeFields fields ++ "\x7d"

def writeItems : List Json → Text
  | [] => []
  | [item] => write item
  | item :: rest => write item ++ "," ++ writeItems rest

def writeFields : List (Text × Json) → Text
  | [] => []
  | [(key, value)] => quote key ++ ":" ++ write value
  | (key, value) :: rest => quote key ++ ":" ++ write value ++ "," ++ writeFields rest

end

/-- A line end and the indentation of a level, two spaces each. -/
def newLine (level : Nat) : Text :=
  0x0A :: List.replicate (2 * level) 0x20

mutual

/-- One item or field a line, in front of the text that follows. -/
def indentBefore (rest : Text) (level : Nat) : Json → Text
  | array [] => "[]" ++ rest
  | object [] => "\x7b\x7d" ++ rest
  | array (item :: items) =>
    0x5B :: newLine (level + 1)
      ++ indentBefore (itemsBefore (newLine level ++ 0x5D :: rest) (level + 1) items) (level + 1) item
  | object ((key, value) :: fields) =>
    0x7B :: newLine (level + 1) ++ quote key ++ ": "
      ++ indentBefore (fieldsBefore (newLine level ++ 0x7D :: rest) (level + 1) fields) (level + 1)
        value
  | json => write json ++ rest

def itemsBefore (rest : Text) (level : Nat) : List Json → Text
  | [] => rest
  | item :: items =>
    0x2C :: newLine level ++ indentBefore (itemsBefore rest level items) level item

def fieldsBefore (rest : Text) (level : Nat) : List (Text × Json) → Text
  | [] => rest
  | (key, value) :: fields =>
    0x2C :: newLine level ++ quote key ++ ": "
      ++ indentBefore (fieldsBefore rest level fields) level value

end

/-- One item or field a line. -/
def writeIndented (json : Json) : Text :=
  json.indentBefore [] 0

def isSpace (u : CodeUnit) : Bool :=
  u == 0x20 || u == 0x09 || u == 0x0A || u == 0x0D

def skipSpace (t : Text) : Text :=
  t.dropWhile isSpace

def hexValue? (u : CodeUnit) : Option Nat :=
  Binary64.digitInBase? 16 u

def readCode? (a b c d : CodeUnit) : Option CodeUnit := do
  let w ← hexValue? a
  let x ← hexValue? b
  let y ← hexValue? c
  let z ← hexValue? d
  return (w * 4096 + x * 256 + y * 16 + z).toUInt16

/-- What a backslash and the given unit stand for. -/
def unescape? (u : CodeUnit) : Option CodeUnit :=
  if u = 0x22 ∨ u = 0x5C ∨ u = 0x2F then some u
  else if u = 0x62 then some 0x08
  else if u = 0x66 then some 0x0C
  else if u = 0x6E then some 0x0A
  else if u = 0x72 then some 0x0D
  else if u = 0x74 then some 0x09
  else none

/-- The content of a string up to its closing quote, and what follows. -/
def readString : Text → Option (Text × Text)
  | [] => none
  | 0x22 :: rest => some ([], rest)
  | 0x5C :: 0x75 :: a :: b :: c :: d :: rest =>
    match readCode? a b c d, readString rest with
    | some u, some (t, rest) => some (u :: t, rest)
    | _, _ => none
  | 0x5C :: u :: rest =>
    match unescape? u, readString rest with
    | some u, some (t, rest) => some (u :: t, rest)
    | _, _ => none
  | u :: rest =>
    if u < 0x20 then none
    else
      match readString rest with
      | some (t, rest) => some (u :: t, rest)
      | none => none

def isNumberUnit (u : CodeUnit) : Bool :=
  Text.isDigit u || u == 0x2B || u == 0x2D || u == 0x2E || u == 0x65 || u == 0x45

/-- No point, or a digit behind it. -/
def pointsAtDigit : Text → Bool
  | 0x2E :: rest => (rest.head?.map Text.isDigit).getD false
  | _ => true

/-- A number begins with a digit, with a zero only where no digit follows, and a point stands between
digits. -/
def isLiteral (t : Text) : Bool :=
  match t.takeWhile Text.isDigit with
  | [] => false
  | u :: digits => (u != 0x30 || digits.isEmpty) && pointsAtDigit (t.dropWhile Text.isDigit)

def readLiteral (negative : Bool) (t : Text) : Option Json :=
  if isLiteral t then (Decimal.read? t).map fun d => number (d.toBinary64 negative) else none

def readNumber (t : Text) : Option (Json × Text) :=
  let literal := match t.takeWhile isNumberUnit with
    | 0x2D :: digits => readLiteral true digits
    | digits => readLiteral false digits
  literal.map fun json => (json, t.dropWhile isNumberUnit)

def readWord (word : Text) (json : Json) (t : Text) : Option (Json × Text) :=
  if word.isPrefixOf t then some (json, t.drop word.length) else none

/-- Items, each with white space around it and a comma between two, up to the closing unit. -/
def readSequence {α : Type} (item : Text → Option (α × Text)) (closing : CodeUnit) :
    Nat → Text → Option (List α × Text)
  | 0, _ => none
  | fuel + 1, t =>
    match item (skipSpace t) with
    | none => none
    | some (first, rest) =>
      match skipSpace rest with
      | [] => none
      | u :: rest =>
        if u = closing then some ([first], rest)
        else if u = 0x2C then
          match readSequence item closing fuel rest with
          | some (more, rest) => some (first :: more, rest)
          | none => none
        else none

/-- A sequence that may have no item at all. -/
def readAll {α : Type} (item : Text → Option (α × Text)) (closing : CodeUnit) (t : Text) :
    Option (List α × Text) :=
  match skipSpace t with
  | u :: rest =>
    if u = closing then some ([], rest) else readSequence item closing t.length t
  | [] => none

def readField (value : Text → Option (Json × Text)) (t : Text) : Option ((Text × Json) × Text) :=
  match t with
  | 0x22 :: rest =>
    match readString rest with
    | none => none
    | some (key, rest) =>
      match skipSpace rest with
      | 0x3A :: rest => (value (skipSpace rest)).map fun (json, rest) => ((key, json), rest)
      | _ => none
  | _ => none

/-- The value at the front of a text that begins with no white space; `depth` bounds its nesting. -/
def readValue : (depth : Nat) → Text → Option (Json × Text)
  | 0, _ => none
  | depth + 1, t =>
    match t with
    | 0x22 :: rest => (readString rest).map fun (t, rest) => (string t, rest)
    | 0x5B :: rest => (readAll (readValue depth) 0x5D rest).map fun (items, rest) => (array items, rest)
    | 0x7B :: rest =>
      (readAll (readField (readValue depth)) 0x7D rest).map fun (fields, rest) => (object fields, rest)
    | 0x6E :: _ => readWord "null" null t
    | 0x74 :: _ => readWord "true" (bool true) t
    | 0x66 :: _ => readWord "false" (bool false) t
    | _ => readNumber t

/-- A whole text, white space around the value aside. -/
def read (t : Text) : Option Json :=
  match readValue (t.length + 1) (skipSpace t) with
  | some (json, rest) => if skipSpace rest = [] then some json else none
  | none => none

/-- The value of the first field with the given key. -/
def field? (json : Json) (key : Text) : Option Json :=
  match json with
  | object fields => fields.lookup key
  | _ => none

end Json

end Calculator
