import Calculator.Proofs.Expression.Normalizing
import Calculator.Proofs.Session.Location
import Calculator.Proofs.Text.Lines
import Calculator.Proofs.Text.Printable
import Calculator.Report.Reporter

/-!
The two lines below a failure, in the formats for people: the normalized text, and carets under the part
of it that the failure arose at.
-/
namespace Calculator

namespace Text

/-- The units that end a line, by the narrowest or the widest notion of a line. -/
def BreaksLine (u : CodeUnit) : Prop :=
  u = 0x0A ∨ u = 0x0D ∨ u = 0x2028 ∨ u = 0x2029

instance (u : CodeUnit) : Decidable (BreaksLine u) :=
  inferInstanceAs (Decidable (u = 0x0A ∨ u = 0x0D ∨ u = 0x2028 ∨ u = 0x2029))

/-- By no notion does a line end in the text. -/
def Unbroken (t : Text) : Prop :=
  ∀ u ∈ t, ¬ BreaksLine u

instance (t : Text) : Decidable t.Unbroken :=
  List.decidableBAll _ t

theorem Unbroken.oneLine {t : Text} (unbroken : t.Unbroken) : t.OneLine :=
  ⟨fun member => unbroken _ member (.inl rfl), fun member => unbroken _ member (.inr (.inl rfl))⟩

/-- Two texts of one line with a line feed between them are two lines. -/
theorem splitLines_pair {s t : Text} (first : s.OneLine) (second : t.OneLine) :
    splitLines (s ++ 0x0A :: t) = [s, t] := by
  obtain ⟨before, last, lines, whole⟩ := splitLines_append_feed s t
  rw [splitLines_no_feed first.1] at lines
  obtain ⟨rfl, rfl⟩ : before = [] ∧ last = s := by
    cases before with
    | nil => simpa using lines.symm
    | cons line before => simp at lines
  rw [whole, withoutReturn_eq_self first.2, splitLines_no_feed second.1]
  rfl

end Text

open Text (OneLine BreaksLine)

/-- A normalized text has no line end that the text has not. -/
theorem normalize_breaks {t : Text} {u : CodeUnit} (breaks : BreaksLine u) (member : u ∈ normalize t) :
    u ∈ t := by
  rcases mem_normalize member with inside | mark
  · exact inside
  · have plain : ∀ v : CodeUnit, v = 0x2A ∨ v = 0x28 ∨ v = 0x29 → ¬ BreaksLine v := by
      rintro v (rfl | rfl | rfl) <;> decide
    exact absurd breaks (plain u mark)

theorem normalize_oneLine {t : Text} (single : t.OneLine) : (normalize t).OneLine :=
  ⟨fun member => single.1 (normalize_breaks (.inl rfl) member),
    fun member => single.2 (normalize_breaks (.inr (.inl rfl)) member)⟩

namespace Reporter

/-- What stands before the normalized text, as wide as the blanks before the first column of the marks. -/
def arrow : Text := "    ↳ "

/-- A line of marks under a text behind the arrow: blanks and one run of carets, which stand under the span
or, where that is empty, under its first column, and under none beyond the column behind the text. -/
structure Marks (span : Span) (length : Nat) (marks : Text) : Prop where
  run : ∃ blanks carets, marks = List.replicate blanks 0x20 ++ List.replicate carets 0x5E ∧
    0 < carets ∧ blanks ≤ arrow.length + length
  under : ∀ k, marks[arrow.length + k]? = some 0x5E ↔
    span.start ≤ k ∧ k < max span.stop (span.start + 1)
  within : ∀ column : Nat, marks[column]? = some 0x5E →
    arrow.length ≤ column ∧ column ≤ arrow.length + length

theorem caret_at_iff (blanks carets column : Nat) :
    (List.replicate blanks (0x20 : CodeUnit) ++ List.replicate carets 0x5E)[column]? = some 0x5E ↔
      blanks ≤ column ∧ column < blanks + carets := by
  by_cases before : column < blanks
  · rw [List.getElem?_append_left (by simpa using before), List.getElem?_replicate_of_lt before]
    have other : (0x20 : CodeUnit) ≠ 0x5E := by decide
    simp [other]
    omega
  · rw [List.getElem?_append_right (by simpa using before), List.getElem?_replicate,
      List.length_replicate]
    split
    · simp
      omega
    · simp
      omega

/-- The marks of a span of the text, or of the empty span behind it. -/
theorem marks_marker {span : Span} {length : Nat} (ordered : span.start ≤ span.stop)
    (inside : span.stop ≤ length) :
    Marks span length (List.replicate arrow.length 0x20 ++ marker span) := by
  have joined : List.replicate arrow.length 0x20 ++ marker span =
      List.replicate (arrow.length + span.start) 0x20 ++
        List.replicate (max 1 (span.stop - span.start)) 0x5E := by
    rw [marker, ← List.append_assoc, List.replicate_append_replicate]
  rw [joined]
  refine ⟨⟨_, _, rfl, by omega, by omega⟩, fun k => ?_, fun column => ?_⟩
  · rw [caret_at_iff]
    omega
  · rw [caret_at_iff]
    omega

/-- A line of blanks and carets ends nowhere before its end. -/
theorem marker_unbroken (blanks : Nat) (span : Span) :
    Text.Unbroken (List.replicate blanks 0x20 ++ marker span) := by
  have units : ∀ u ∈ List.replicate blanks 0x20 ++ marker span, u = 0x20 ∨ u = 0x5E := by
    intro u member
    simp only [marker, List.mem_append, List.mem_replicate] at member
    tauto
  intro u member
  rcases units u member with rfl | rfl <;> decide

theorem formatContext_failed {r : Reporter} (people : r.format = .pretty ∨ r.format = .plain)
    (plain : r.colored = false) {e : Evaluation} {failure : Failure} (failed : e.outcome = .error failure)
    {span : Span} (place : failure.span = some span) :
    r.formatContext e.record =
      some (arrow ++ e.normalized ++ 0x0A :: (List.replicate arrow.length 0x20 ++ marker span)) := by
  have shown : r.formatContext e.record =
      some (arrow ++ e.normalized ++ ("\n      " : Text) ++ marker span) := by
    unfold formatContext
    rcases people with pretty | plain' <;> simp [*, Evaluation.record, paint, arrow]
  rw [shown, List.append_assoc]
  rfl

end Reporter

/-- A failure that stands behind the text is one of reading it: nodes have extent. -/
theorem Session.failed_at_end {s : Session} {t : Text} {failure : Failure}
    (failed : (s.evaluate t).outcome = .error failure)
    (place : failure.span = some ⟨(normalize t).length, (normalize t).length⟩) :
    ∃ cause, failure = .unreadable ⟨cause, (normalize t).length, (normalize t).length⟩ := by
  rcases Session.outcome_error failed with ⟨⟨cause, range⟩, _, rfl⟩ | ⟨tree, err, read, run, rfl⟩
  · obtain rfl := Option.some.inj place
    exact ⟨cause, rfl⟩
  · obtain ⟨_, node, part, at'⟩ := evaluateNumber_error_readable (parse_readable read) run
    obtain ⟨_, extent, _⟩ := parse_spans read node part
    have same := Option.some.inj (at'.symm.trans place)
    rw [same] at extent
    exact absurd extent (Nat.lt_irrefl _)

namespace Reporter

/-- Below a failure people are shown the normalized text and, under the columns of what failed, carets.
They stand in the column behind the text for an error of reading at the end of it alone. -/
theorem context_marks_failure (r : Reporter) (people : r.format = .pretty ∨ r.format = .plain)
    (plain : r.colored = false) (s : Session) {t : Text} (single : t.OneLine) {failure : Failure}
    (failed : (s.evaluate t).outcome = .error failure) :
    ∃ span context marks, failure.span = some span ∧
      r.formatContext (s.evaluate t).record = some context ∧
      Text.splitLines context = [arrow ++ normalize t, marks] ∧ arrow.length = 6 ∧
      (∀ u ∈ context, BreaksLine u → u = 0x0A ∨ u ∈ t) ∧
      Marks span (normalize t).length marks ∧
      (marks[arrow.length + (normalize t).length]? = some 0x5E ↔
        ∃ cause, failure = .unreadable ⟨cause, (normalize t).length, (normalize t).length⟩) := by
  obtain ⟨_, _, span, place, ordered, inside, _⟩ := Session.failed_located failed
  have marks := marks_marker ordered inside
  have unbroken := marker_unbroken arrow.length span
  have prefixed : arrow.Unbroken := by decide
  have first : (arrow ++ normalize t).OneLine :=
    Text.oneLine_append.mpr ⟨prefixed.oneLine, normalize_oneLine single⟩
  refine ⟨span, _, _, place, formatContext_failed people plain failed place,
    Text.splitLines_pair first unbroken.oneLine, rfl, ?_, marks, ?_⟩
  · intro u member breaks
    rcases List.mem_append.mp member with above | below
    · rcases List.mem_append.mp above with mark | inText
      · exact absurd breaks (prefixed u mark)
      · exact .inr (normalize_breaks breaks inText)
    · rcases List.mem_cons.mp below with feed | mark
      · exact .inl feed
      · exact absurd breaks (unbroken u mark)
  · have length : span.stop ≤ (normalize t).length := inside
    rw [marks.under]
    constructor
    · rintro ⟨starts, stops⟩
      have start : span.start = (normalize t).length := by omega
      have stop : span.stop = (normalize t).length := by omega
      obtain ⟨_, _⟩ := span
      subst start stop
      exact Session.failed_at_end failed place
    · rintro ⟨cause, rfl⟩
      obtain rfl := Option.some.inj place
      exact ⟨Nat.le_refl _, by simp⟩

/-- A name that is not known behind a power, and a group that is not closed. -/
theorem context_marks_name_and_end :
    let r : Reporter := ⟨.plain, false, none, false, .zero⟩
    let s : Session := ⟨.degrees, .zero⟩
    (∃ context marks : Text, r.formatContext (s.evaluate "2^foo").record = some context ∧
      Text.splitLines context = [("    ↳ 2**foo" : Text), marks] ∧ Marks ⟨3, 6⟩ 6 marks) ∧
    ∃ context marks : Text, r.formatContext (s.evaluate "2 * (3").record = some context ∧
      Text.splitLines context = [("    ↳ 2 * (3" : Text), marks] ∧ marks[12]? = some 0x5E := by
  intro r s
  have unknown : (s.evaluate "2^foo").outcome =
      .error (.faulty ⟨.unknownName "foo", some ⟨3, 6⟩⟩) := by decide +kernel
  have unclosed : (s.evaluate "2 * (3").outcome = .error (.unreadable ⟨.unclosedGroup, 6, 6⟩) := by
    decide +kernel
  obtain ⟨span, context, marks, place, shown, lines, _, _, marked, _⟩ :=
    r.context_marks_failure (.inr rfl) rfl s (t := "2^foo") (by decide) unknown
  obtain ⟨_, context', marks', _, shown', lines', _, _, _, final⟩ :=
    r.context_marks_failure (.inr rfl) rfl s (t := "2 * (3") (by decide) unclosed
  obtain rfl := Option.some.inj place
  exact ⟨⟨context, marks, shown, lines, marked⟩, context', marks', shown', lines', final.mpr ⟨_, rfl⟩⟩

end Reporter

end Calculator
