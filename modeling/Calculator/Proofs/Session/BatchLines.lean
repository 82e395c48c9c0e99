import Calculator.Proofs.Expression.Completion
import Calculator.Proofs.Session.Location
import Calculator.Proofs.Session.StoredExpressions
import Calculator.Proofs.Text.Lines
import Calculator.Session.Batch

/-!
The expressions of a text, line by line. A line feed parts a text as it parts its expressions, and what is
taken for an expression is something to read.
-/
namespace Calculator

/-- An expression as a line of a text gives it. -/
structure Text.Listed (t : Text) : Prop where
  nonempty : t ≠ []
  trimmed : t.trim = t
  noComment : t.head? ≠ some 0x23
  noFeed : 0x0A ∉ t

theorem Text.blank_return {behind : Text} (atMost : behind = [] ∨ behind = [0x0D]) :
    ∀ u ∈ behind, isBlank u = true := by
  rcases atMost with rfl | rfl
  · simp
  · exact List.forall_mem_singleton.mpr rfl

theorem splitExpressions_append_feed (s t : Text) :
    splitExpressions (s ++ 0x0A :: t) = splitExpressions s ++ splitExpressions t := by
  obtain ⟨before, last, lines, whole⟩ := Text.splitLines_append_feed s t
  -- trimming takes a carriage return away in any case
  have same : (Text.withoutReturn last).trim = last.trim := by
    obtain ⟨behind, split, atMost⟩ := Text.eq_withoutReturn_append last
    have trimmed := Text.trim_append_blank (Text.withoutReturn last) (Text.blank_return atMost)
    rw [← split] at trimmed
    exact trimmed.symm
  have parts : (Text.splitLines (s ++ 0x0A :: t)).map Text.trim =
      (Text.splitLines s).map Text.trim ++ (Text.splitLines t).map Text.trim := by
    simp [lines, whole, same]
  rw [splitExpressions, parts, List.filter_append]
  rfl

theorem splitExpressions_listed {text t : Text} (member : t ∈ splitExpressions text) : t.Listed := by
  simp only [splitExpressions, List.mem_filter, List.mem_map, decide_eq_true_eq] at member
  obtain ⟨⟨line, inside, rfl⟩, some, noComment⟩ := member
  have noFeed := (Text.mem_splitLines inside).1
  exact ⟨some, Text.trim_trim line, noComment, fun feed => noFeed (Text.mem_of_mem_trim feed)⟩

theorem Text.Listed.split {t : Text} (listed : t.Listed) {behind : Text}
    (atMost : behind = [] ∨ behind = [0x0D]) : splitExpressions (t ++ behind) = [t] := by
  have noFeed : 0x0A ∉ t ++ behind := by
    rcases atMost with rfl | rfl <;> simp [listed.noFeed]
  have trimmed : (t ++ behind).trim = t := by
    rw [trim_append_blank t (blank_return atMost), listed.trimmed]
  simp [splitExpressions, splitLines_no_feed noFeed, trimmed, listed.nonempty, listed.noComment]

/-- Whatever ends the lines, the expressions on them are those of the text. -/
theorem splitExpressions_join {ts : List Text} (listed : ∀ t ∈ ts, t.Listed) {behind : Text}
    (atMost : behind = [] ∨ behind = [0x0D]) : splitExpressions (Text.join (behind ++ [0x0A]) ts) = ts := by
  induction ts with
  | nil => rfl
  | cons t rest ih =>
    have first := (listed t List.mem_cons_self)
    have later := ih fun t' member => listed t' (List.mem_cons_of_mem t member)
    cases rest with
    | nil => simpa [Text.join] using first.split (.inl rfl)
    | cons next rest =>
      have whole : Text.join (behind ++ [0x0A]) (t :: next :: rest) =
          t ++ behind ++ 0x0A :: Text.join (behind ++ [0x0A]) (next :: rest) := by
        simp [Text.join]
      rw [whole, splitExpressions_append_feed, first.split atMost, later]
      rfl

/-- The message of a text without tokens is that of no other cause. -/
theorem SyntaxCause.eq_empty {cause : SyntaxCause} (message : cause.message = "Empty expression") :
    cause = .empty := by
  cases cause with
  | empty => rfl
  | lexical cause =>
    cases cause with
    | malformedNumber t => cases congrArg List.head? message
    | unexpectedUnit u => cases congrArg List.head? message
  | unexpected lexeme => cases congrArg List.head? message
  | trailing lexeme => cases lexeme <;> cases congrArg List.head? message
  | numberOutOfRange raw => cases congrArg List.head? message
  | _ => exact absurd message (by decide)

/-- A text that begins with something visible has a token, if it has tokens at all. -/
theorem tokenize_visible {u : CodeUnit} {t : Text} (visible : Lexer.isSpace u = false) {tokens : List Token}
    (lexed : tokenize (u :: t) = .ok tokens) : tokens ≠ [] := by
  rw [tokenize, Lexer.scan, visible] at lexed
  simp only [Bool.false_eq_true, if_false] at lexed
  split at lexed
  · cases lexed
  · split at lexed <;> cases lexed
    simp

/-- Normalizing keeps what a text begins with, or writes a sign there. -/
theorem normalize_visible {u : CodeUnit} (visible : Lexer.isSpace u = false) (t : Text) :
    ∃ v rest, normalize (u :: t) = v :: rest ∧ Lexer.isSpace v = false := by
  rw [normalize, Normalize.memory]
  by_cases power : u = 0x5E
  · obtain ⟨rest, same⟩ := Normalize.memoryFrom_cons false 0x2A (0x2A :: Normalize.caret t)
    exact ⟨0x2A, rest, by rw [Normalize.caret, if_pos power, same], rfl⟩
  · obtain ⟨rest, same⟩ := Normalize.memoryFrom_cons false u (Normalize.caret t)
    exact ⟨u, rest, by rw [Normalize.caret_other power, same], visible⟩

/-- A text that begins with something visible is never refused for being empty. -/
theorem parse_visible {u : CodeUnit} {t : Text} (visible : Lexer.isSpace u = false) {e : SyntaxError}
    (refused : parse (u :: t) = .error e) : e.cause ≠ .empty := by
  unfold parse at refused
  split at refused
  · cases refused
    simp
  · rename_i tokens lexed
    have drawn := (Parser.whole_arises (tokenize_visible visible lexed) refused).drawn
    intro empty
    rw [empty] at drawn
    exact drawn

theorem Session.not_empty {s : Session} {t : Text} (some : t ≠ []) (trimmed : t.trim = t)
    {failure : Failure} (failed : (s.evaluate t).outcome = .error failure)
    (kind : failure.kind = .parseError) : failure.message ≠ "Empty expression" := by
  rcases outcome_error failed with ⟨e, refused, rfl⟩ | ⟨_, err, _, _, rfl⟩
  · obtain ⟨u, rest, rfl⟩ := List.exists_cons_of_ne_nil some
    obtain ⟨_, _, _, _, _, ends⟩ := Text.exists_trim (u :: rest)
    rw [trimmed] at ends
    have visible := Lexer.visible_of_not_blank (ends.first u rfl)
    obtain ⟨v, rest', normalized, visible'⟩ := normalize_visible visible rest
    rw [Session.parse, normalized] at refused
    exact fun message => parse_visible visible' refused (SyntaxCause.eq_empty message)
  · exact absurd kind err.fault.kind_ne_parseError

/-- The expressions of two texts with a line feed between them are those of the first and those of the
second. Expressions as they are listed come back from their lines, whichever way these end; every
expression of a text is such a one, and evaluating it never fails for want of an expression. -/
theorem splitExpressions_lines :
    (∀ a b : Text, splitExpressions (a ++ "\n" ++ b) = splitExpressions a ++ splitExpressions b) ∧
    (∀ ts : List Text, (∀ t ∈ ts, t.Listed) →
      splitExpressions (Text.join "\n" ts) = ts ∧ splitExpressions (Text.join "\r\n" ts) = ts) ∧
    (∀ text : Text, ∀ t ∈ splitExpressions text, t.Listed) ∧
    ∀ (text : Text) (s : Session), ∀ t ∈ splitExpressions text, ∀ failure,
      (s.evaluate t).outcome = .error failure →
        ¬ (failure.kind = .parseError ∧ failure.message = "Empty expression") := by
  refine ⟨fun a b => ?_, fun ts listed => ⟨?_, ?_⟩, fun text t => splitExpressions_listed, ?_⟩
  · rw [List.append_assoc]
    exact splitExpressions_append_feed a b
  · exact splitExpressions_join listed (.inl rfl)
  · exact splitExpressions_join listed (.inr rfl)
  · rintro text s t member failure failed ⟨kind, message⟩
    have listed := splitExpressions_listed member
    exact Session.not_empty listed.nonempty listed.trimmed failed kind message

/-- A sum with a carriage return inside it, and a name. -/
theorem splitExpressions_lines_sum :
    (Text.Listed "1 +\r2" ∧ Text.Listed "pi") ∧
      splitExpressions "1 +\r2\npi" = ["1 +\r2", "pi"] ∧
      splitExpressions "1 +\r2\r\npi" = ["1 +\r2", "pi"] := by
  have sum : Text.Listed "1 +\r2" := ⟨by decide, by decide, by decide, by decide⟩
  have name : Text.Listed "pi" := ⟨by decide, by decide, by decide, by decide⟩
  obtain ⟨feeds, returns⟩ := splitExpressions_lines.2.1 ["1 +\r2", "pi"] (by simp [sum, name])
  exact ⟨⟨sum, name⟩, feeds, returns⟩

end Calculator
