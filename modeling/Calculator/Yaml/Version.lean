import Calculator.Number.Arithmetic
import Calculator.Text.Base64
import Calculator.Text.Utf8
import Calculator.Yaml.Scalar
import Calculator.Yaml.Timestamp

/-!
The two versions of the format. They differ in what a plain scalar means: the older one has more words for
truth values, underscores among digits, numbers in base sixty, points in time and a key for merging.
-/
namespace Calculator.Yaml

inductive Version where
  | v11
  | v12
  deriving DecidableEq

/-- Tries to read the text of a scalar as a value of one kind. -/
abbrev Reader := Text → Option Scalar

namespace Scalar

/-- The merge key is a value of a kind of its own. -/
def mergeKey : Scalar := data "Symbol(<<)"

/-- Reads the source of a merge key. -/
def readMerge (t : Text) : Option Scalar :=
  if t = "<<" then some mergeKey else none

/-- Bytes, written as the text that they are in UTF-8. -/
def ofBase64 (t : Text) : Scalar :=
  data (Utf8.decode (Base64.decode t))

def readTimestamp (t : Text) : Option Scalar :=
  (Timestamp.read? t).map fun s => data s.toText

end Scalar

/-! Plain scalars of the older version. -/
namespace Version11

open Scalar (splitSign)

def trueWords : List Text :=
  ["Y", "y", "Yes", "yes", "YES", "True", "true", "TRUE", "On", "on", "ON"]

def falseWords : List Text :=
  ["N", "n", "No", "no", "NO", "False", "false", "FALSE", "Off", "off", "OFF"]

def readBool (t : Text) : Option Scalar :=
  if trueWords.contains t then some (.bool true)
  else if falseWords.contains t then some (.bool false)
  else none

def isUnderscore (u : CodeUnit) : Bool :=
  u == 0x5F

def dropUnderscores (t : Text) : Text :=
  t.filter (!isUnderscore ·)

/-- At least one digit or underscore, and nothing else. -/
def isDigitRun (base : Nat) (t : Text) : Bool :=
  t != [] && t.all fun u => (Binary64.digitInBase? base u).isSome || isUnderscore u

/-- Decimal digits and underscores, a digit first. -/
def isWhole (t : Text) : Bool :=
  (t.head?.map Text.isDigit).getD false && isDigitRun 10 t

def withSign (negative : Bool) (x : Binary64) : Scalar :=
  .number (if negative then x.neg else x)

/-- The number that digits denote. Underscores alone denote none. -/
def ofDigits (base : Nat) (t : Text) : Binary64 :=
  ((Binary64.readInBase? base (dropUnderscores t)).map .ofNat).getD .nan

/-- An integer without its sign: binary behind `0b`, hexadecimal behind `0x`, octal behind `0` and
otherwise decimal. -/
def readUnsigned? (t : Text) : Option Binary64 :=
  let decimal := if isWhole t then some (ofDigits 10 t) else none
  match t with
  | 0x30 :: 0x62 :: digits => if isDigitRun 2 digits then some (ofDigits 2 digits) else none
  | 0x30 :: 0x78 :: digits => if isDigitRun 16 digits then some (ofDigits 16 digits) else none
  | 0x30 :: digits => if isDigitRun 8 digits then some (ofDigits 8 digits) else decimal
  | _ => decimal

def readInt (t : Text) : Option Scalar :=
  let (negative, rest) := splitSign t
  (readUnsigned? rest).map (withSign negative)

/-- A decimal with a point or an exponent; a point alone will do. -/
def isFloat (t : Text) : Bool :=
  let t := (splitSign t).2
  let isRunUnit (u : CodeUnit) : Bool := Text.isDigit u || isUnderscore u
  let whole := t.takeWhile isRunUnit
  (whole == [] || isWhole whole) &&
    match t.dropWhile isRunUnit with
    | 0x2E :: rest =>
      let exponent := rest.dropWhile isRunUnit
      exponent == [] || Scalar.isExponent exponent
    | rest => Scalar.isExponent rest

def readFloat (t : Text) : Option Scalar :=
  match Scalar.readSpecial t with
  | some x => some x
  | none => if isFloat t then some (.number (.ofText (dropUnderscores t))) else none

/-- A digit behind a colon has one before it that is below six, or none. -/
def isSixtieth : Text → Bool
  | [a] => Text.isDigit a
  | [a, b] => 0x30 ≤ a && a ≤ 0x35 && Text.isDigit b
  | _ => false

/-- The parts between colons. -/
def splitColons : Text → List Text
  | [] => [[]]
  | u :: rest =>
    if u = Text.code ':' then [] :: splitColons rest else Text.prependToHead u (splitColons rest)

/-- The value of numerals in base sixty, the most significant first. -/
def inBaseSixty (parts : List Text) : Binary64 :=
  parts.foldl (fun x part => (x.mul (.ofNat 60)).add (.ofText (dropUnderscores part))) .zero

/-- A number in base sixty, as times are written: the last part may have a fraction. -/
def readSexagesimal (hasFraction : Bool) (t : Text) : Option Scalar :=
  let (negative, rest) := splitSign t
  let whole := rest.takeWhile (· != Text.code '.')
  let fraction := rest.dropWhile (· != Text.code '.')
  match splitColons whole with
  | first :: second :: more =>
    let isFraction := match fraction with
      | [] => !hasFraction
      | _ :: digits => hasFraction && (digits == [] || isDigitRun 10 digits)
    if isWhole first && (second :: more).all isSixtieth && isFraction then
      some (withSign negative (inBaseSixty (splitColons rest)))
    else none
  | _ => none

def readers : List (Text × Reader) :=
  [("null", Scalar.readNull), ("bool", readBool), ("int", readInt), ("float", readFloat),
    ("int", readSexagesimal false), ("float", readSexagesimal true), ("timestamp", Scalar.readTimestamp)]

end Version11

namespace Version

/-- The kinds of plain scalars, each with its tag. -/
def plainReaders : Version → List (Text × Reader)
  | v11 => Version11.readers
  | v12 => Scalar.readers

/-- The kinds of scalars that a tag can ask for. The newer version takes every text for a merge key. -/
def tagReaders (v : Version) : List (Text × Reader) :=
  let readMerge : Reader := match v with
    | v11 => Scalar.readMerge
    | v12 => fun _ => some Scalar.mergeKey
  let others : List (Text × Reader) :=
    [("binary", fun t => some (.ofBase64 t)), ("merge", readMerge), ("timestamp", Scalar.readTimestamp)]
  v.plainReaders ++ others

def readFirst? (readers : List Reader) (t : Text) : Option Scalar :=
  readers.findSome? fun read => read t

/-- What a plain scalar means, as a key or as a value. -/
def ofPlain (v : Version) (isKey : Bool) (t : Text) : Scalar :=
  let keyReaders : List Reader := if isKey && v == v11 then [Scalar.readMerge] else []
  (readFirst? (v.plainReaders.map Prod.snd ++ keyReaders) t).getD (.text t)

/-- What a tag of the given kind makes of a text, if the text fits. -/
def ofTagged? (v : Version) (kind t : Text) : Option Scalar :=
  readFirst? ((v.tagReaders.filter fun (k, _) => k == kind).map Prod.snd) t

end Version

end Calculator.Yaml
