import Calculator.Evaluation.Entry
import Calculator.Number.Decimal

/-!
The seven settings and how a raw value becomes one. A rejected value leaves no trace.
-/
namespace Calculator

inductive Format where
  | pretty
  | plain
  | json
  | compact
  deriving DecidableEq

inductive ColorMode where
  | auto
  | always
  | never
  deriving DecidableEq

def Format.name : Format → Text
  | pretty => "pretty"
  | plain => "plain"
  | json => "json"
  | compact => "compact"

def Format.all : List Format := [.pretty, .plain, .json, .compact]

def ColorMode.name : ColorMode → Text
  | auto => "auto"
  | always => "always"
  | never => "never"

def ColorMode.all : List ColorMode := [.auto, .always, .never]

def AngleUnit.name : AngleUnit → Text
  | degrees => "degrees"
  | radians => "radians"

def AngleUnit.all : List AngleUnit := [.degrees, .radians]

/-- A value as it comes from a document, an option or a record. -/
inductive RawValue where
  | text (t : Text)
  | number (x : Binary64)
  | bool (b : Bool)
  | other

/-- Settings of which some may be absent. -/
structure PartialSettings where
  format : Option Format := none
  color : Option ColorMode := none
  precision : Option Binary64 := none
  angles : Option AngleUnit := none
  memory : Option Binary64 := none
  timeout : Option Binary64 := none
  concurrent : Option Bool := none
  deriving DecidableEq

inductive SettingProblem where
  | format
  | color
  | angles
  | precision
  | timeout
  | memory
  | concurrent
  | unknown (key : Text)
  deriving DecidableEq

def SettingProblem.message : SettingProblem → Text
  | format => "\"format\" must be one of pretty, plain, json, compact"
  | color => "\"color\" must be one of auto, always, never"
  | angles => "\"angles\" must be one of degrees, radians"
  | precision => "\"precision\" must be an integer between 1 and 100"
  | timeout => "\"timeout\" must be a non-negative integer (milliseconds)"
  | memory => "\"memory\" must be a finite number"
  | concurrent => "\"concurrent\" must be true or false"
  | unknown key => "Unknown setting \"" ++ key ++ "\""

namespace RawValue

/-- The choice that a text names exactly. -/
def oneOf {α : Type} (name : α → Text) (choices : List α) : RawValue → Option α
  | text t => choices.find? fun choice => name choice == t
  | _ => none

/-- A finite number, or the text of one. -/
def toNumber : RawValue → Option Binary64
  | number x => if x.isFinite then some x else none
  | text t =>
    if t.trim ≠ [] ∧ (Binary64.ofText t).isFinite then some (Binary64.ofText t) else none
  | _ => none

def toNatural (v : RawValue) : Option Binary64 :=
  v.toNumber.filter fun x => x.isInteger && Binary64.lessOrEqual 0 x

def toPlaces (v : RawValue) : Option Binary64 :=
  v.toNatural.filter fun x => Binary64.lessOrEqual 1 x && Binary64.lessOrEqual x 100

def toBool : RawValue → Option Bool
  | bool b => some b
  | _ => none

end RawValue

/-- Stores one validated setting. -/
def PartialSettings.apply (target : PartialSettings) (key : Text) (value : RawValue) :
    Except SettingProblem PartialSettings :=
  if key = "format" then
    match value.oneOf Format.name Format.all with
    | some f => .ok { target with format := some f }
    | none => .error .format
  else if key = "color" then
    match value.oneOf ColorMode.name ColorMode.all with
    | some c => .ok { target with color := some c }
    | none => .error .color
  else if key = "angles" then
    match value.oneOf AngleUnit.name AngleUnit.all with
    | some a => .ok { target with angles := some a }
    | none => .error .angles
  else if key = "precision" then
    match value.toPlaces with
    | some x => .ok { target with precision := some x }
    | none => .error .precision
  else if key = "timeout" then
    match value.toNatural with
    | some x => .ok { target with timeout := some x }
    | none => .error .timeout
  else if key = "memory" then
    match value.toNumber with
    | some x => .ok { target with memory := some x }
    | none => .error .memory
  else if key = "concurrent" then
    match value.toBool with
    | some b => .ok { target with concurrent := some b }
    | none => .error .concurrent
  else .error (.unknown key)

end Calculator
