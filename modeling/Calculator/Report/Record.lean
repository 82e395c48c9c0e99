import Calculator.Session.Batch
import Calculator.Settings.Diagnostic
import Calculator.Text.Json

/-!
Results, trees and diagnostics as records: what a report shows of them, and their JSON form.
-/
namespace Calculator

/-- A failure as it is shown. -/
structure Problem where
  kind : Text
  message : Text
  span : Option Span
  deriving DecidableEq

/-- A result as it is shown. -/
structure ResultRecord where
  expression : Text
  normalized : Text
  outcome : Except Problem Binary64

def Evaluation.record (e : Evaluation) : ResultRecord :=
  { expression := e.expression
    normalized := e.normalized
    outcome := match e.outcome with
      | .ok x => .ok x
      | .error f => .error ⟨f.kind.name, f.message, f.span⟩ }

namespace Json

/-- An object with the given fields, in order. -/
def record (fields : List (String × Json)) : Json :=
  object (fields.map fun (key, value) => ((key : Text), value))

def ofNat (n : Nat) : Json :=
  number (Binary64.ofNat n)

def ofSpan (s : Span) : Json :=
  record [("start", ofNat s.start), ("end", ofNat s.stop)]

def ofProblem (p : Problem) : Json :=
  record ([("kind", string p.kind), ("message", string p.message)]
    ++ (match p.span with
      | some s => [("span", ofSpan s)]
      | none => []))

/-- A result with its index, if it has one; a failure is given in its JSON form. -/
def ofResult (index : Option Nat) (expression : Text) (outcome : Except Json Binary64) : Json :=
  record ((match index with
      | some i => [("index", ofNat i)]
      | none => [])
    ++ [("expression", string expression)]
    ++ (match outcome with
      | .ok x => [("ok", bool true), ("value", number x)]
      | .error e => [("ok", bool false), ("error", e)]))

mutual

def ofExpr : Expr → Json
  | .number value raw range =>
    record [("kind", string "Number"), ("value", number value), ("raw", string raw),
      ("range", ofSpan range)]
  | .name text range =>
    record [("kind", string "Ident"), ("name", string text), ("range", ofSpan range)]
  | .unary op operand range =>
    record [("kind", string "Unary"), ("op", string op.symbol), ("expr", ofExpr operand),
      ("range", ofSpan range)]
  | .binary op left right range =>
    record [("kind", string "Binary"), ("op", string op.symbol), ("left", ofExpr left),
      ("right", ofExpr right), ("range", ofSpan range)]
  | .call callee args range =>
    record [("kind", string "Call"), ("callee", string callee), ("args", array (ofExprs args)),
      ("range", ofSpan range)]
  | .list elements range =>
    record [("kind", string "List"), ("elements", array (ofExprs elements)), ("range", ofSpan range)]
  | .foreign kind range => record [("kind", string kind), ("range", ofSpan range)]

def ofExprs : List Expr → List Json
  | [] => []
  | e :: rest => ofExpr e :: ofExprs rest

end

def ofLocation (l : Location) : Json :=
  record [("line", ofNat l.line), ("col", ofNat l.column), ("offset", ofNat l.offset)]

def ofDiagnostic (d : Diagnostic) : Json :=
  record ([("code", string d.code), ("message", string d.message),
      ("severity", string d.severity.name), ("file", string d.file)]
    ++ (match d.range with
      | some r => [("range", record [("start", ofLocation r.start), ("end", ofLocation r.stop)])]
      | none => [])
    ++ (match d.path with
      | some p => [("path", array (p.map string))]
      | none => []))

def ofSummary (s : BatchSummary) : Json :=
  record [("total", ofNat s.total), ("passed", ofNat s.passed), ("failed", ofNat s.failed)]

end Json

end Calculator
