import Calculator.Number.Decimal

/-!
Points in time: a date, or a date with a time of day and a zone. Fields beyond their range carry over into
the next larger one. All times are written in universal time.
-/
namespace Calculator.Yaml

structure Timestamp where
  year : Nat
  month : Nat
  day : Nat
  hour : Nat := 0
  minute : Nat := 0
  second : Nat := 0
  /-- How far the clock is ahead of universal time, in minutes. -/
  zone : Int := 0

namespace Timestamp

/-- Reads at least one digit and at most two. -/
def readField? : Text → Option (Nat × Text)
  | a :: b :: rest =>
    if !Text.isDigit a then none
    else if Text.isDigit b then some (Decimal.ofDigits [a, b], rest)
    else some (Decimal.ofDigits [a], b :: rest)
  | [a] => if Text.isDigit a then some (Decimal.ofDigits [a], []) else none
  | [] => none

/-- Reads a field behind the given unit. -/
def readFieldBehind? (c : Char) : Text → Option (Nat × Text)
  | u :: rest => if u = Text.code c then readField? rest else none
  | [] => none

def readDate? (t : Text) : Option (Timestamp × Text) := do
  let year := t.take 4
  if year.length = 4 ∧ year.all Text.isDigit then
    let (month, rest) ← readFieldBehind? '-' (t.drop 4)
    let (day, rest) ← readFieldBehind? '-' rest
    return ({ year := Decimal.ofDigits year, month := month, day := day }, rest)
  else none

def isSpace (u : CodeUnit) : Bool :=
  u == 0x20 || u == 0x09

/-- What parts the time of day from the date: a letter or white space. -/
def dropSeparator? : Text → Option Text
  | 0x74 :: rest => some rest
  | 0x54 :: rest => some rest
  | u :: rest => if isSpace u then some (rest.dropWhile isSpace) else none
  | [] => none

/-- Digits behind a point are passed over. -/
def dropFraction? : Text → Option Text
  | 0x2E :: rest =>
    if (rest.head?.map Text.isDigit).getD false then some (rest.dropWhile Text.isDigit) else none
  | t => some t

/-- Hours of a zone: one digit, or two of which the first is below three. -/
def readZoneHours? : Text → Option (Nat × Text)
  | a :: b :: rest =>
    if a ≤ 0x32 then readField? (a :: b :: rest)
    else if Text.isDigit b then none
    else readField? (a :: b :: rest)
  | t => readField? t

/-- The minutes of a zone without its sign. Less than thirty of them count as hours. -/
def readZoneMinutes? (t : Text) : Option Nat := do
  let (hours, rest) ← readZoneHours? t
  let amount ← match rest with
    | [] => some hours
    | [0x3A, a, b] =>
      if Text.isDigit a && Text.isDigit b then some (hours * 60 + Decimal.ofDigits [a, b]) else none
    | _ => none
  return if amount < 30 then amount * 60 else amount

def readZone? (t : Text) : Option Int :=
  if t = [] then some 0
  else
    match t.dropWhile isSpace with
    | [0x5A] => some 0
    | 0x2B :: rest => (readZoneMinutes? rest).map Int.ofNat
    | 0x2D :: rest => (readZoneMinutes? rest).map fun minutes => -Int.ofNat minutes
    | _ => none

def read? (t : Text) : Option Timestamp := do
  let (date, rest) ← readDate? t
  if rest = [] then return date
  let (hour, rest) ← readField? (← dropSeparator? rest)
  let (minute, rest) ← readFieldBehind? ':' rest
  let (second, rest) ← readFieldBehind? ':' rest
  let zone ← readZone? (← dropFraction? rest)
  return { date with hour := hour, minute := minute, second := second, zone := zone }

/-- The days from 1 March of the year 0 to the given month, where months count from that March on: leap days
come last in such years. -/
def daysBefore (months : Int) : Int :=
  let year := months / 12
  365 * year + year / 4 - year / 100 + year / 400 + (153 * (months % 12) + 2) / 5

/-- The day number of 1 January 1970. -/
def epoch : Int := 719468

/-- Seconds since 1970. Years below 100 belong to the twentieth century. -/
def seconds (s : Timestamp) : Int :=
  let year : Int := if s.year < 100 then 1900 + s.year else s.year
  let days := daysBefore (12 * year + s.month - 3) + s.day - 1 - epoch
  86400 * days + 3600 * s.hour + 60 * (s.minute - s.zone) + s.second

/-- The months since March of the year 0, and the day in the last of them, from the number of days. -/
def monthAndDay (days : Int) : Int × Int :=
  let inCycle := days % 146097
  let year := (inCycle - inCycle / 1460 + inCycle / 36524 - inCycle / 146096) / 365
  let inYear := inCycle - (365 * year + year / 4 - year / 100)
  let month := (5 * inYear + 2) / 153
  (12 * (400 * (days / 146097) + year) + month, inYear - (153 * month + 2) / 5 + 1)

def weekdays : List Text := ["Thu", "Fri", "Sat", "Sun", "Mon", "Tue", "Wed"]

def months : List Text :=
  ["Mar", "Apr", "May", "Jun", "Jul", "Aug", "Sep", "Oct", "Nov", "Dec", "Jan", "Feb"]

/-- A number in decimal with zeros in front. -/
def padded (width : Nat) (n : Int) : Text :=
  let digits := Text.ofNat n.toNat
  List.replicate (width - digits.length) 0x30 ++ digits

/-- Weekday, month, day, year and time of day. -/
def toText (s : Timestamp) : Text :=
  let total := s.seconds
  let days := total / 86400
  let time := total % 86400
  let (month, day) := monthAndDay (days + epoch)
  Text.join " "
    [weekdays.getD (days % 7).toNat [], months.getD (month % 12).toNat [], padded 2 day,
      padded 4 ((month + 2) / 12),
      Text.join ":" [padded 2 (time / 3600), padded 2 (time / 60 % 60), padded 2 (time % 60)],
      "GMT+0000 (Coordinated Universal Time)"]

end Timestamp

end Calculator.Yaml
