import Calculator.Proofs.Report.JsonLines
import Calculator.Proofs.Session.Messages
import Calculator.Proofs.Session.PromptRuns

/-!
The formats for machines give a result as one console line and nothing below it. In JSON this is one line
of text; the compact format repeats the expression as it is, with the line ends it may have.
-/
namespace Calculator

open Text (OneLine)

theorem Session.Answers.message_oneLine {s : Session} {t : Text} {e : Evaluation}
    (answers : s.Answers t e) {f : Failure} (failed : e.outcome = .error f) : f.message.OneLine := by
  cases answers with
  | evaluated => exact Session.message_oneLine failed
  | timedOut limit =>
    cases failed
    have words : OneLine "Evaluation timed out after " ∧ OneLine "ms" := by decide
    have shown := (Binary64.printable_toText limit).oneLine
    simp only [Failure.message, Text.oneLine_append, words, shown, and_self]

namespace Reporter

variable {r : Reporter} {s : Session} {t : Text} {e : Evaluation}

/-- Besides the expression, nothing in a compact result ends a line. -/
theorem compactResult_oneLine (answers : s.Answers t e) {line : Text}
    (shown : r.compactResult e.record = .ok line) : line.OneLine ↔ t.OneLine := by
  obtain ⟨rfl, _⟩ := answers.texts
  have marks : OneLine " = " ∧ OneLine " [" ∧ OneLine "] E: " := by decide
  have kinds : ∀ kind : ErrorKind, kind.name.OneLine := by
    intro kind
    cases kind <;> decide
  obtain ⟨expression, normalized, outcome⟩ := e
  cases outcome with
  | ok x =>
    simp only [compactResult, Evaluation.record, formatValue] at shown
    cases value : x.display r.precision with
    | error refused => simp [value, Except.map] at shown
    | ok text =>
      rw [value] at shown
      cases shown
      simp only [Text.oneLine_append, marks, (Binary64.printable_display value).oneLine, and_true]
  | error f =>
    cases shown
    simp only [Evaluation.record, Text.oneLine_append, marks, kinds, answers.message_oneLine rfl, and_true]

/-- A result is one console line in the formats for machines, with no context below it. It is one line of
text, in JSON for every expression and in the compact format for those that are. -/
theorem machine_result_lines (r : Reporter) (machine : r.format = .json ∨ r.format = .compact)
    (precise : ∀ p, r.precision = some p → 1 ≤ p ∧ p ≤ 100) {s : Session} {t : Text} {e : Evaluation}
    (answers : s.Answers t e) (index : Option Nat) :
    ∃ line, r.formatResult e.record index = .ok line ∧ r.formatContext e.record = none ∧
      r.printResult e.record index = .ok [log line] ∧
      (r.format = .json → line.OneLine) ∧ (r.format = .compact → (line.OneLine ↔ t.OneLine)) := by
  obtain ⟨line, shown⟩ := formatResult_ok precise e.record index
  have context : r.formatContext e.record = none := by
    unfold formatContext
    rcases machine with json | compact
    · rw [json]
    · rw [compact]
  refine ⟨line, shown, context, by rw [printResult, shown, context]; rfl, ?_, ?_⟩
  · intro json
    rw [formatResult, json] at shown
    cases shown
    exact (Json.printable_write _).oneLine
  · intro compact
    rw [formatResult, compact] at shown
    exact compactResult_oneLine answers shown

/-- A sum of two lines, in both formats. -/
theorem machine_result_lines_sum :
    let s : Session := ⟨.degrees, .zero⟩
    let json : Reporter := ⟨.json, true, some 3, false, .zero⟩
    let compact : Reporter := ⟨.compact, true, some 3, false, .zero⟩
    (∃ line, json.formatResult (s.evaluate "1 +\n2").record none = .ok line ∧ line.OneLine) ∧
    ∃ line, compact.formatResult (s.evaluate "1 +\n2").record none = .ok line ∧
      compact.formatContext (s.evaluate "1 +\n2").record = none ∧
      compact.printResult (s.evaluate "1 +\n2").record none = .ok [log line] ∧ ¬ line.OneLine := by
  intro s json compact
  have precise : ∀ p, some (3 : Int) = some p → 1 ≤ p ∧ p ≤ 100 := by
    intro p same
    cases same
    decide
  obtain ⟨line, shown, _, _, single, _⟩ :=
    json.machine_result_lines (.inl rfl) precise (.evaluated (s := s) (t := "1 +\n2")) none
  obtain ⟨line', shown', context, printed, _, broken⟩ :=
    compact.machine_result_lines (.inr rfl) precise (.evaluated (s := s) (t := "1 +\n2")) none
  refine ⟨⟨line, shown, single rfl⟩, line', shown', context, printed, fun unbroken => ?_⟩
  exact absurd ((broken rfl).mp unbroken) (by decide)

/-- The compact format breaks the line where the expression does. -/
theorem compact_result_broken :
    formatResult ⟨.compact, false, none, false, .zero⟩
        ((⟨.degrees, .zero⟩ : Session).evaluate "1 +\n2").record none = .ok "1 +\n2 = 3" ∧
      ¬ OneLine "1 +\n2 = 3" := by
  decide +kernel

end Reporter

end Calculator
