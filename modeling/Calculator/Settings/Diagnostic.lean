import Calculator.Text.Units

/-!
Problems of a configuration file, with their places in it. Lines and columns count from one.
-/
namespace Calculator

structure Location where
  line : Nat
  column : Nat
  offset : Nat
  deriving DecidableEq

structure SourceRange where
  start : Location
  stop : Location
  deriving DecidableEq

inductive Severity where
  | error
  | warning
  deriving DecidableEq

def Severity.name : Severity → Text
  | error => "error"
  | warning => "warning"

def Severity.label : Severity → Text
  | error => "ERROR"
  | warning => "WARNING"

/-- A problem; `path` leads to the setting within the document. -/
structure Diagnostic where
  code : Text
  message : Text
  severity : Severity
  file : Text
  range : Option SourceRange := none
  path : Option (List Text) := none
  deriving DecidableEq

end Calculator
