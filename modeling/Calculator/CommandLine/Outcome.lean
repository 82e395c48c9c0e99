import Calculator.Files.Workspace
import Calculator.Session.Prompt
import Calculator.Settings.Layers

/-!
What evaluating expressions and files comes to: the lines printed, and the code the program ends with.
-/
namespace Calculator

def Settings.session (s : Settings) : Session :=
  ⟨s.angles, s.memory⟩

/-- The batch that evaluates under the given settings. No evaluation stalls. -/
def Settings.batch (s : Settings) : Batch :=
  ⟨s.session, s.timeout, fun _ => false⟩

def Settings.batchMode (s : Settings) : BatchMode :=
  if s.concurrent then .concurrent else .sequential

/-- The entries of a list of expressions. -/
def Settings.evaluate (s : Settings) (expressions : List Text) : List BatchEntry :=
  (s.batch.entries s.batchMode expressions).getD []

structure Outcome where
  lines : List Line
  exitCode : Nat

/-- Why a task cannot be finished. -/
inductive TaskError where
  | display (e : Binary64.DisplayError)
  | selection (e : SelectionError)
  | prompt (e : PromptError)
  deriving DecidableEq

def TaskError.message : TaskError → Text
  | display e => e.message
  | selection e => e.message
  | prompt e => e.message

namespace Outcome

/-- The tree of an expression, or an error line. -/
def showTree (s : Session) (r : Reporter) (expression : Text) : List Line :=
  match s.parse expression with
  | .ok tree => r.printAst tree
  | .error e =>
    r.printError (expression ++ ": " ++ e.cause.message ++ " (at offset " ++ Text.ofNat e.range.start
      ++ ")")

/-- Shows trees; the code tells whether every expression has one. -/
def ofTrees (s : Session) (r : Reporter) (expressions : List Text) : Outcome :=
  ⟨expressions.flatMap (showTree s r),
    if expressions.all fun e => (s.parse e).isOk then 0 else 1⟩

/-- The lines of a batch, or why there are none. -/
def resultLines (r : Reporter) (entries : List BatchEntry) : Except TaskError (List Line) :=
  match r.printBatch entries with
  | (lines, none) => .ok lines
  | (_, some e) => .error (.display e)

/-- Evaluates expressions; the code tells whether all have a value. -/
def ofExpressions (settings : Settings) (r : Reporter) (expressions : List Text) :
    Except TaskError Outcome :=
  let entries := settings.evaluate expressions
  (resultLines r entries).map fun lines => ⟨lines, Reporter.exitCode (summarize entries)⟩

/-- Evaluates a batch between a banner and a summary. -/
def ofBatch (settings : Settings) (r : Reporter) (version : Text) (expressions : List Text) :
    Except TaskError Outcome :=
  if expressions = [] then .ok ⟨r.printWarning "No expressions entered.", 0⟩
  else
    let entries := settings.evaluate expressions
    (resultLines r entries).map fun lines =>
      ⟨r.printBanner version expressions.length ++ lines ++ r.printSummary (summarize entries),
        Reporter.exitCode (summarize entries)⟩

/-- Evaluates the files that match the patterns. -/
def ofFiles (settings : Settings) (r : Reporter) (version : Text) (w : Workspace)
    (patterns : List Text) : Except TaskError Outcome :=
  match w.select patterns with
  | .error e => .error (.selection e)
  | .ok [] => .ok ⟨r.printError ("No files match " ++ Text.join ", " patterns), 2⟩
  | .ok files =>
    let notes := files.flatMap fun file => r.printDebug ("reading " ++ w.relative file.path)
    (ofBatch settings r version (SelectedFile.expressions files)).map fun outcome =>
      { outcome with lines := notes ++ outcome.lines }

/-- Answers the lines of an input. -/
def ofPrompt (settings : Settings) (r : Reporter) (input : Text) : Except TaskError Outcome :=
  match Prompt.answerAll r ⟨settings.session, none⟩ (Prompt.splitLines input) with
  | .error e => .error (.prompt e)
  | .ok lines => .ok ⟨lines, 0⟩

end Outcome

end Calculator
