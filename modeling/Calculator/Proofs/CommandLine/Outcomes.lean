import Calculator.CommandLine.Run
import Calculator.Proofs.Session.Location
import Calculator.Proofs.Session.PromptRuns
import Calculator.Proofs.Session.Scheduling
import Calculator.Proofs.Settings.Resolution
import Calculator.Proofs.Settings.Validity

/-!
Lines, counts and exit codes. Whichever way expressions come to be evaluated, what is printed of each, what
is counted and the code at the end follow from the same results.
-/
namespace Calculator

/-- The summary counts the entries that are ok and those that are not, which are all there are. -/
structure BatchSummary.Counts (summary : BatchSummary) (entries : List BatchEntry) : Prop where
  passed : summary.passed = entries.countP (·.result.ok)
  failed : summary.failed = entries.countP (!·.result.ok)
  total : summary.total = entries.length
  whole : summary.passed + summary.failed = summary.total

namespace Reporter

variable {r : Reporter} {s : Session}

/-- The reporter shows results as the settings say. It may use colour, and be asked for the time, as it
likes. -/
structure Follows (r : Reporter) (settings : Settings) : Prop where
  format : r.format = settings.format
  precision : r.precision = settings.precision.map Binary64.toInt

/-- The text of a tree is its JSON: on one line where results are JSON lines, indented where they are not. -/
def treeText (r : Reporter) (tree : Expr) : Text :=
  if r.format = .json then (Json.ofExpr tree).write else (Json.ofExpr tree).writeIndented

/-- The text of an error. -/
def errorText (r : Reporter) (message : Text) : Text :=
  if r.format = .json then (Json.record [("error", .string message)]).write
  else r.paint .red ("Error: " ++ message)

/-- The lines of trees: of each expression its tree, or an error line that says where it cannot be read. -/
inductive ShowsTrees (r : Reporter) (s : Session) : List Text → List Line → Prop where
  | nil : ShowsTrees r s [] []
  | tree {t : Text} {tree : Expr} {rest : List Text} {lines : List Line} (read : s.parse t = .ok tree)
    (behind : ShowsTrees r s rest lines) :
    ShowsTrees r s (t :: rest) (⟨.log, r.treeText tree⟩ :: lines)
  | refused {t : Text} {e : SyntaxError} {rest : List Text} {lines : List Line}
    (failed : s.parse t = .error e) (behind : ShowsTrees r s rest lines) :
    ShowsTrees r s (t :: rest) (⟨.error, r.errorText (t ++ ": " ++ e.cause.message ++ " (at offset "
      ++ Text.ofNat e.range.start ++ ")")⟩ :: lines)

theorem Follows.precise {settings : Settings} (follows : r.Follows settings)
    (valid : settings.layer.Valid) (p : Int) (set : r.precision = some p) : 1 ≤ p ∧ p ≤ 100 := by
  rw [follows.precision, Option.map_eq_some_iff] at set
  obtain ⟨x, given, rfl⟩ := set
  have admitted : Setting.precision.Admits (.number x) :=
    valid .precision (.number x) (by simp [PartialSettings.value?, Settings.layer, given])
  exact Binary64.toInt_of_places admitted.1 admitted.2.1 admitted.2.2

end Reporter

namespace Outcome

/-- The lines of the trees of expressions, and the code 1 if one of them has none and 0 otherwise. -/
structure Draws (r : Reporter) (s : Session) (expressions : List Text) (o : Outcome) : Prop where
  lines : r.ShowsTrees s expressions o.lines
  failing : o.exitCode = 1 ↔ ∃ t ∈ expressions, ∃ err, s.parse t = .error err
  passing : o.exitCode = 0 ↔ ∀ t ∈ expressions, ∃ tree, s.parse t = .ok tree

variable {settings : Settings} {r : Reporter}

end Outcome

namespace CommandLine

/-- What is said of the files before a batch of them. -/
def notes (e : Environment) (r : Reporter) (files : List SelectedFile) : List Line :=
  files.flatMap fun file => r.printDebug ("reading " ++ e.workspace.relative file.path)

section Perform

variable {e : Environment} {i : Invocation} {settings : Settings} {r : Reporter}

end Perform

end CommandLine

end Calculator
