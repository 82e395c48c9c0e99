import Calculator.Expression.Normalize
import Calculator.Session.Evaluation

/-!
A session: an angle unit and one memory cell. Evaluating reads the cell and never writes it.
-/
namespace Calculator

structure Session where
  angles : AngleUnit
  memory : Binary64

/-- A name an expression may use. -/
structure CatalogEntry where
  name : Text
  entry : Entry
  description : Text

inductive StoreError where
  | notFinite (value : Binary64)
  deriving DecidableEq

def StoreError.message : StoreError → Text
  | notFinite x => "Cannot store non-finite value " ++ x.toText ++ " in memory"

namespace Session

def registry (s : Session) : Registry :=
  ⟨s.angles, s.memory⟩

def catalog (s : Session) : List CatalogEntry :=
  Entry.table.map fun (name, entry) => ⟨name, entry, entry.description s.angles⟩

/-- Reads a text as the session does, without evaluating it. -/
def parse (_ : Session) (text : Text) : Except SyntaxError Expr :=
  Calculator.parse (normalize text)

def outcome (s : Session) (text : Text) : Except Failure Binary64 :=
  match s.parse text with
  | .error e => .error (.unreadable e)
  | .ok tree =>
    match evaluateNumber s.registry tree with
    | .error e => .error (.faulty e)
    | .ok x => .ok x

def evaluate (s : Session) (text : Text) : Evaluation :=
  ⟨text, normalize text, s.outcome text⟩

/-- Only finite numbers can be stored. -/
def store (s : Session) (x : Binary64) : Except StoreError Session :=
  if x.isFinite then .ok { s with memory := x } else .error (.notFinite x)

def clear (s : Session) : Session :=
  { s with memory := .zero }

end Session

end Calculator
