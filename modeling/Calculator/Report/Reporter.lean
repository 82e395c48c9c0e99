import Calculator.Report.Record
import Calculator.Report.Style
import Calculator.Settings.Settings

/-!
What is printed, in four formats. Every function yields lines for the console and prints nothing
itself; a line may hold line ends.
-/
namespace Calculator

/-- Where a line goes: results to the output, the others to the error output. -/
inductive Channel where
  | log
  | warn
  | error
  deriving DecidableEq

structure Line where
  channel : Channel
  text : Text
  deriving DecidableEq

/-- What the terminal and the environment say about colour. -/
structure ColorSetting where
  mode : ColorMode
  noColor : Bool
  forceColor : Bool
  terminal : Bool

/-- Automatic colour needs a format for people, a terminal or a demand, and no objection. -/
def ColorSetting.decide (c : ColorSetting) (format : Format) : Bool :=
  match c.mode with
  | .never => false
  | .always => true
  | .auto =>
    match format with
    | .plain => false
    | .json => false
    | _ => !c.noColor && (c.forceColor || c.terminal)

structure Reporter where
  format : Format
  colored : Bool
  /-- Significant digits of results, all of them where absent. -/
  precision : Option Int
  verbose : Bool
  /-- Milliseconds since the start. -/
  elapsed : Binary64

namespace Reporter

def paint (r : Reporter) (style : Style) (t : Text) : Text :=
  if r.colored then style.paint t else t

def log (t : Text) : Line := ⟨.log, t⟩

def seconds (r : Reporter) : Text :=
  (r.elapsed / 1000).toHundredths

def formatValue (r : Reporter) (x : Binary64) : Except Binary64.DisplayError Text :=
  x.display r.precision

def prettyResult (r : Reporter) (record : ResultRecord) : Except Binary64.DisplayError Text :=
  let expression := r.paint .cyan record.expression
  match record.outcome with
  | .ok x =>
    (r.formatValue x).map fun value =>
      "  " ++ r.paint .green "✓" ++ " " ++ expression ++ "  =  " ++ r.paint .bold value
  | .error p =>
    .ok ("  " ++ r.paint .red "✖" ++ " " ++ expression ++ "  " ++ r.paint .red ("[" ++ p.kind ++ "]")
      ++ "  " ++ p.message)

def compactResult (r : Reporter) (record : ResultRecord) : Except Binary64.DisplayError Text :=
  match record.outcome with
  | .ok x => (r.formatValue x).map fun value => record.expression ++ " = " ++ value
  | .error p => .ok (record.expression ++ " [" ++ p.kind ++ "] E: " ++ p.message)

def jsonResult (record : ResultRecord) (index : Option Nat) : Text :=
  (Json.ofResult index record.expression (record.outcome.mapError Json.ofProblem)).write

/-- One result in the selected format. -/
def formatResult (r : Reporter) (record : ResultRecord) (index : Option Nat) :
    Except Binary64.DisplayError Text :=
  match r.format with
  | .json => .ok (jsonResult record index)
  | .compact => r.compactResult record
  | _ => r.prettyResult record

/-- Blanks up to the first marked column, and at least one caret. -/
def marker (s : Span) : Text :=
  List.replicate s.start 0x20 ++ List.replicate (max 1 (s.stop - s.start)) 0x5E

/-- Points at the part of the normalized text that a failure arose at. -/
def formatContext (r : Reporter) (record : ResultRecord) : Option Text :=
  match r.format with
  | .json => none
  | .compact => none
  | _ =>
    match record.outcome with
    | .ok _ => none
    | .error p =>
      p.span.map fun s =>
        r.paint .dim ("    ↳ " ++ record.normalized ++ "\n      " ++ marker s)

def printResult (r : Reporter) (record : ResultRecord) (index : Option Nat) :
    Except Binary64.DisplayError (List Line) :=
  (r.formatResult record index).map fun t =>
    log t :: ((r.formatContext record).map log).toList

/-- Results one after the other, up to the first that cannot be shown. -/
def printBatch (r : Reporter) : List BatchEntry → List Line × Option Binary64.DisplayError
  | [] => ([], none)
  | entry :: rest =>
    match r.printResult entry.result.record (some entry.index) with
    | .error e => ([], some e)
    | .ok lines =>
      let (more, failure) := printBatch r rest
      (lines ++ more, failure)

/-- The ruled lines of banner and summary: so many strokes. -/
def rule (strokes : Nat) : Text :=
  (List.replicate strokes ("─" : Text)).flatten

def printBanner (r : Reporter) (version : Text) (count : Nat) : List Line :=
  match r.format with
  | .json => []
  | .compact => []
  | _ =>
    [ log (r.paint .bold ("┌ safecalc " ++ version ++ "  •  Evaluating " ++ Text.ofNat count
        ++ " expression" ++ (if count = 1 then "" else "s"))),
      log (r.paint .dim ("└" ++ rule 56)),
      log [] ]

/-- A summary in its JSON form, with the time taken. -/
def summaryLine (r : Reporter) (summary : Json) : Text :=
  (Json.record [("summary", summary),
    ("timing", .record [("elapsedSeconds", .string r.seconds)])]).write

def exitCode (s : BatchSummary) : Nat :=
  if 0 < s.failed then 1 else 0

def printSummary (r : Reporter) (s : BatchSummary) : List Line :=
  match r.format with
  | .json => [log (r.summaryLine (Json.ofSummary s))]
  | .compact =>
    [log ("Summary: " ++ Text.ofNat s.passed ++ " passed, " ++ Text.ofNat s.failed ++ " failed ("
      ++ r.seconds ++ "s)")]
  | _ =>
    [ log [],
      log (r.paint .dim (rule 56)),
      log (r.paint .bold "Summary"),
      log [],
      log (r.paint .cyan "Expressions:" ++ " " ++ Text.ofNat s.total),
      log ("  " ++ r.paint .green ("Passed: " ++ Text.ofNat s.passed) ++ "  "
        ++ r.paint (if 0 < s.failed then .red else .dim) ("Failed: " ++ Text.ofNat s.failed)),
      log [],
      log (r.paint .dim ("Evaluated " ++ Text.ofNat s.total ++ " expressions in " ++ r.seconds ++ "s")),
      log (r.paint (if exitCode s = 0 then .green else .red)
        ("Exit code: " ++ Text.ofNat (exitCode s))) ]

def printAst (r : Reporter) (e : Expr) : List Line :=
  match r.format with
  | .json => [log (Json.ofExpr e).write]
  | _ => [log (Json.ofExpr e).writeIndented]

def severityStyle : Severity → Style
  | .error => .red
  | .warning => .yellow

def location (d : Diagnostic) : Text :=
  match d.range with
  | some r => ":" ++ Text.ofNat r.start.line ++ ":" ++ Text.ofNat r.start.column
  | none => []

def printDiagnostic (r : Reporter) (d : Diagnostic) : List Line :=
  match r.format with
  | .json => [⟨.error, (Json.ofDiagnostic d).write⟩]
  | _ =>
    [⟨.error, r.paint (severityStyle d.severity) d.severity.label ++ "  "
      ++ r.paint .cyan ("[" ++ d.code ++ "]") ++ "  " ++ r.paint .bold (d.file ++ location d) ++ "  "
      ++ d.message⟩]

def printError (r : Reporter) (message : Text) : List Line :=
  match r.format with
  | .json => [⟨.error, (Json.record [("error", .string message)]).write⟩]
  | _ => [⟨.error, r.paint .red ("Error: " ++ message)⟩]

def printWarning (r : Reporter) (message : Text) : List Line :=
  match r.format with
  | .json => [⟨.warn, (Json.record [("warning", .string message)]).write⟩]
  | _ => [⟨.warn, r.paint .yellow ("Warning: " ++ message)⟩]

def printInfo (r : Reporter) (message : Text) : List Line :=
  match r.format with
  | .json => []
  | _ => [log (r.paint .dim message)]

def printDebug (r : Reporter) (message : Text) : List Line :=
  if r.verbose then [⟨.error, r.paint .gray ("debug: " ++ message)⟩] else []

end Reporter

end Calculator
