import Calculator.Report.Reporter
import Calculator.Proofs.Session.Finiteness
import Calculator.Proofs.Session.Location
import Calculator.Proofs.Number.Value
import Calculator.Proofs.Text.JsonReading

/-!
A result as a line of JSON loses nothing: reading the line gives back the expression, unit by unit, and
its value or its failure.
-/
namespace Calculator

/-- What a text can be answered with, on its own or in a batch with a time limit. -/
inductive Session.Answers (s : Session) (t : Text) : Evaluation → Prop
  | evaluated : Answers s t (s.evaluate t)
  | timedOut (limit : Binary64) : Answers s t (timeoutEvaluation t limit)

namespace Session.Answers

variable {s : Session} {t : Text} {e : Evaluation}

theorem texts (answers : s.Answers t e) : e.expression = t ∧ e.normalized = normalize t := by
  cases answers <;> exact ⟨rfl, rfl⟩

theorem finite (answers : s.Answers t e) {x : Binary64} (value : e.outcome = .ok x) :
    x.isFinite = true := by
  cases answers with
  | evaluated => exact outcome_finite value
  | timedOut limit => cases value

/-- A failure points into the normalized text, if it points anywhere. -/
theorem inside (answers : s.Answers t e) {f : Failure} (failed : e.outcome = .error f) :
    ∀ span ∈ f.span, span.start ≤ e.normalized.length ∧ span.stop ≤ e.normalized.length := by
  cases answers with
  | evaluated =>
    obtain ⟨_, _, span, set, ordered, last, _⟩ := failed_located failed
    rw [set]
    rintro _ ⟨⟩
    exact ⟨Nat.le_trans ordered last, last⟩
  | timedOut limit =>
    cases failed
    simp [Failure.span]

end Session.Answers

namespace Binary64

theorem zero_eq : zero = .finite false 0 representable_zero :=
  round_unscaled false representable_zero

theorem unsigned_units (x : Binary64) : (if x.isZero then zero else x).units = x.units := by
  cases x with
  | nan => rfl
  | infinite negative => rfl
  | finite negative m fits =>
    by_cases zero : m = 0
    · subst zero
      simp [isZero, zero_eq, units]
    · simp [isZero, zero]

/-- Finite numbers that agree but for the sign of zero are equal. -/
theorem equal_of_unsigned {x y : Binary64} (finite : x.isFinite = true) (finite' : y.isFinite = true)
    (same : (if x.isZero then zero else x) = if y.isZero then zero else y) : x.equal y = true := by
  have units : x.units = y.units := by rw [← unsigned_units x, same, unsigned_units]
  rw [(counts_self finite).equal_eq (counts_self finite'), units, decide_eq_true rfl]

end Binary64

namespace Json

theorem settledNumber_ofNat (n : Nat) :
    settledNumber (Binary64.ofNat n) = number (Binary64.ofNat n) ∨
      settledNumber (Binary64.ofNat n) = null ∧ Binary64.ofNat n = .infinite false := by
  unfold Binary64.ofNat
  rcases Binary64.round_cases false (n * Binary64.one) 1 with ⟨fits, same⟩ | same
  · refine .inl ?_
    have unsigned : (if (Binary64.finite false _ fits).isZero then .zero else .finite false _ fits) =
        Binary64.finite false _ fits := by
      split
      · next none =>
        have nothing := eq_of_beq none
        simp only [Binary64.zero_eq, nothing]
      · rfl
    rw [same, settledNumber, unsigned]
    exact if_pos rfl
  · exact .inr ⟨by rw [same]; rfl, same⟩

/-- A position or a number of units as a line gives it: itself, as far as numbers tell it from others. -/
def count (n : Nat) : Json :=
  if n ≤ 2 ^ 53 then number (.ofNat n) else settledNumber (.ofNat n)

theorem settled_ofNat (n : Nat) : settled (ofNat n) = count n := by
  rw [ofNat, settled, count]
  split
  · next few =>
    rcases settledNumber_ofNat n with kept | ⟨_, out⟩
    · exact kept
    · have counts := Binary64.counts_ofNat few
      rw [out] at counts
      cases counts.finite
  · rfl

theorem ofNat_of_count {n k : Nat} (same : count n = count k) : Binary64.ofNat n = Binary64.ofNat k := by
  rw [← settled_ofNat, ← settled_ofNat, ofNat, ofNat, settled, settled] at same
  rcases settledNumber_ofNat n with kept | ⟨lost, out⟩ <;>
    rcases settledNumber_ofNat k with kept' | ⟨lost', out'⟩
  · rw [kept, kept'] at same
    exact Json.number.inj same
  · rw [kept, lost'] at same
    cases same
  · rw [lost, kept'] at same
    cases same
  · rw [out, out']

theorem eq_of_ofNat {n k : Nat} (few : n ≤ 2 ^ 53) (few' : k ≤ 2 ^ 53)
    (same : Binary64.ofNat n = Binary64.ofNat k) : n = k := by
  have first := Binary64.counts_ofNat few
  have second := Binary64.counts_ofNat few'
  rw [same] at first
  have units : n * Binary64.one = k * Binary64.one :=
    Int.natCast_inj.mp (first.units.symm.trans second.units)
  exact Nat.eq_of_mul_eq_mul_right Binary64.one_pos units

def indexFields : Option Nat → List (String × Json)
  | some i => [("index", count i)]
  | none => []

def spanFields : Option Span → List (String × Json)
  | some s => [("span", record [("start", count s.start), ("end", count s.stop)])]
  | none => []

def failureFields (f : Failure) : List (String × Json) :=
  [("kind", string f.kind.name), ("message", string f.message)] ++ spanFields f.span

/-- A value, zero without its sign, or a failure. -/
def outcomeFields : Except Failure Binary64 → List (String × Json)
  | .ok x => [("ok", bool true), ("value", number (if x.isZero then .zero else x))]
  | .error f => [("ok", bool false), ("error", record (failureFields f))]

/-- What a line says of an expression. -/
def said (index : Option Nat) (expression : Text) (outcome : Except Failure Binary64) : Json :=
  record (indexFields index ++ ("expression", string expression) :: outcomeFields outcome)

theorem settled_ofProblem (f : Failure) :
    settled (ofProblem ⟨f.kind.name, f.message, f.span⟩) = record (failureFields f) := by
  rw [failureFields, ofProblem]
  cases f.span <;> simp [ofSpan, record, settled, settledFields, spanFields, settled_ofNat]

theorem settled_ofResult (index : Option Nat) {e : Evaluation}
    (finite : ∀ x, e.outcome = .ok x → x.isFinite = true) :
    settled (ofResult index e.record.expression (e.record.outcome.mapError ofProblem)) =
      said index e.expression e.outcome := by
  obtain ⟨expression, normalized, outcome⟩ := e
  cases outcome with
  | ok x =>
    have value := finite x rfl
    cases index <;>
      simp [ofResult, record, Evaluation.record, Except.mapError, settled, settledFields, said,
        indexFields, outcomeFields, settled_ofNat, settledNumber, value]
  | error f =>
    have problem := settled_ofProblem f
    cases index <;>
      simp [ofResult, record, Evaluation.record, Except.mapError, settled, settledFields, said,
        indexFields, outcomeFields, settled_ofNat, problem]

/-! ## Telling answers apart -/

/-- The numbers that a span is given as. -/
def spanNumbers (span : Option Span) : Option (Binary64 × Binary64) :=
  span.map fun s => (.ofNat s.start, .ofNat s.stop)

/-- Two outcomes that differ in the sign of zero at most. -/
inductive SameOutcome : Except Failure Binary64 → Except Failure Binary64 → Prop
  | value {x y : Binary64} (equal : x.equal y = true) : SameOutcome (.ok x) (.ok y)
  | failure {f g : Failure} (kind : f.kind = g.kind) (message : f.message = g.message)
      (span : spanNumbers f.span = spanNumbers g.span) : SameOutcome (.error f) (.error g)

theorem fields_of_record {fields fields' : List (String × Json)} (same : record fields = record fields') :
    fields.map (fun f => ((f.1 : Text), f.2)) = fields'.map (fun f => ((f.1 : Text), f.2)) :=
  Json.object.inj same

theorem kind_of_name {k k' : ErrorKind} (same : k.name = k'.name) : k = k' := by
  revert same
  cases k <;> cases k' <;> decide

theorem span_of_fields {span span' : Option Span}
    (same : record (spanFields span) = record (spanFields span')) :
    spanNumbers span = spanNumbers span' := by
  have fields := fields_of_record same
  cases span <;> cases span' <;> simp [spanFields] at fields
  · rfl
  · have inner := fields_of_record fields
    simp only [List.map_cons, List.map_nil, List.cons.injEq, Prod.mk.injEq, true_and, and_true] at inner
    simp [spanNumbers, ofNat_of_count inner.1, ofNat_of_count inner.2]

theorem failure_of_fields {f g : Failure} (same : record (failureFields f) = record (failureFields g)) :
    SameOutcome (.error f) (.error g) := by
  have fields := fields_of_record same
  simp only [failureFields, List.map_cons, List.cons_append, List.nil_append, List.cons.injEq,
    Prod.mk.injEq, true_and, Json.string.injEq] at fields
  exact .failure (kind_of_name fields.1) fields.2.1 (span_of_fields (congrArg object fields.2.2))

/-- Offsets of any text that is not of astronomical length are told apart. -/
theorem span_of_numbers {span span' : Option Span} {length : Nat} (short : length ≤ 2 ^ 53)
    (inside : ∀ s ∈ span, s.start ≤ length ∧ s.stop ≤ length)
    (inside' : ∀ s ∈ span', s.start ≤ length ∧ s.stop ≤ length)
    (same : spanNumbers span = spanNumbers span') : span = span' := by
  cases span with
  | none =>
    cases span' with
    | none => rfl
    | some s' => cases same
  | some s =>
    cases span' with
    | none => cases same
    | some s' =>
      simp only [spanNumbers, Option.map_some, Option.some.injEq, Prod.mk.injEq] at same
      obtain ⟨start, stop⟩ := inside s rfl
      obtain ⟨start', stop'⟩ := inside' s' rfl
      have first := eq_of_ofNat (Nat.le_trans start short) (Nat.le_trans start' short) same.1
      have last := eq_of_ofNat (Nat.le_trans stop short) (Nat.le_trans stop' short) same.2
      cases s
      cases s'
      simp_all

theorem outcome_of_fields {o o' : Except Failure Binary64} (finite : ∀ x, o = .ok x → x.isFinite = true)
    (finite' : ∀ x, o' = .ok x → x.isFinite = true)
    (same : record (outcomeFields o) = record (outcomeFields o')) : SameOutcome o o' := by
  have fields := fields_of_record same
  cases o <;> cases o' <;> simp [outcomeFields] at fields
  · exact failure_of_fields fields
  · exact .value (Binary64.equal_of_unsigned (finite _ rfl) (finite' _ rfl) fields)

theorem answer_of_said {index index' : Option Nat} {t t' : Text} {o o' : Except Failure Binary64}
    (finite : ∀ x, o = .ok x → x.isFinite = true) (finite' : ∀ x, o' = .ok x → x.isFinite = true)
    (same : said index t o = said index' t' o') :
    index.map Binary64.ofNat = index'.map Binary64.ofNat ∧ t = t' ∧ SameOutcome o o' := by
  have other : ("index" : Text) ≠ "expression" := by decide
  have fields := fields_of_record same
  cases index <;> cases index' <;> simp [indexFields, other, other.symm] at fields
  · exact ⟨rfl, fields.1, outcome_of_fields finite finite' (congrArg object fields.2)⟩
  · obtain ⟨position, text, outcome⟩ := fields
    exact ⟨congrArg some (ofNat_of_count position), text,
      outcome_of_fields finite finite' (congrArg object outcome)⟩

end Json

namespace Reporter

/-- Reading a line of JSON gives back the position, the expression and the value or the failure; a line
that says the same is of the same expression with the same outcome. -/
theorem json_line_read (r : Reporter) (json : r.format = .json) {s : Session} {t : Text} {e : Evaluation}
    (answers : s.Answers t e) (index : Option Nat) :
    ∃ line, r.formatResult e.record index = .ok line ∧
      Json.read line = some (Json.said index t e.outcome) ∧
      ∀ (s' : Session) (t' : Text) (e' : Evaluation) (index' : Option Nat), s'.Answers t' e' →
        r.formatResult e'.record index' = .ok line →
          index.map Binary64.ofNat = index'.map Binary64.ofNat ∧ t = t' ∧
            Json.SameOutcome e.outcome e'.outcome ∧
              ((normalize t).length ≤ 2 ^ 53 → ∀ f g, e.outcome = .error f → e'.outcome = .error g →
                f.span = g.span) := by
  have written : ∀ (e : Evaluation) (index : Option Nat),
      r.formatResult e.record index = .ok (jsonResult e.record index) := by
    intro e index
    rw [formatResult, json]
  have read : ∀ {s : Session} {t : Text} {e : Evaluation} (index : Option Nat), s.Answers t e →
      Json.read (jsonResult e.record index) = some (Json.said index t e.outcome) := by
    intro s t e index answers
    rw [jsonResult, Json.read_write, Json.settled_ofResult index fun _ => answers.finite, answers.texts.1]
  refine ⟨jsonResult e.record index, written e index, read index answers, ?_⟩
  intro s' t' e' index' answers' same
  -- one line is read in one way only, so both answers are said alike
  have line := Except.ok.inj ((written e' index').symm.trans same)
  have said := read index' answers'
  rw [line, read index answers] at said
  obtain ⟨position, rfl, outcome⟩ := Json.answer_of_said (fun _ => answers.finite)
    (fun _ => answers'.finite) (Option.some.inj said)
  refine ⟨position, rfl, outcome, fun short f g failed failed' => ?_⟩
  have inside := answers.inside failed
  have inside' := answers'.inside failed'
  rw [answers.texts.2] at inside
  rw [answers'.texts.2] at inside'
  rw [failed, failed'] at outcome
  cases outcome with
  | failure _ _ span => exact Json.span_of_numbers short inside inside' span

/-- A zero with a sign, spelled over two lines, and a text of which no unit is of the language: two
characters that are escaped, a pair and half of one. -/
theorem json_line_read_units :
    let r : Reporter := ⟨.json, true, none, false, .zero⟩
    let s : Session := ⟨.degrees, .zero⟩
    let t : Text := [0x22, 0x5C, 0xD83D, 0xDE00, 0xD83D]
    (s.evaluate "-\n0").outcome = .ok .negativeZero ∧
      (∃ line, r.formatResult (s.evaluate "-\n0").record none = .ok line ∧
        Json.read line = some (.record [("expression", .string "-\n0"), ("ok", .bool true),
          ("value", .number .zero)])) ∧
      ∃ line, r.formatResult (s.evaluate t).record (some 3) = .ok line ∧
        Json.read line = some (.record [("index", .ofNat 3), ("expression", .string t),
          ("ok", .bool false), ("error", .record [("kind", .string "ParseError"),
            ("message", .string "Unexpected character: '\"'"), ("span", .ofSpan ⟨0, 1⟩)])]) := by
  intro r s t
  have zero : (s.evaluate "-\n0").outcome = .ok .negativeZero := by decide +kernel
  have failed : (s.evaluate t).outcome =
      .error (.unreadable ⟨.lexical (.unexpectedUnit 0x22), ⟨0, 1⟩⟩) := by decide +kernel
  obtain ⟨line, written, read, _⟩ := r.json_line_read rfl (.evaluated (s := s) (t := "-\n0")) none
  obtain ⟨line', written', read', _⟩ := r.json_line_read rfl (.evaluated (s := s) (t := t)) (some 3)
  refine ⟨zero, ⟨line, written, ?_⟩, line', written', ?_⟩
  · have unsigned : Binary64.negativeZero.isZero = true := by decide +kernel
    rw [read, zero]
    simp [Json.said, Json.indexFields, Json.outcomeFields, unsigned]
  · rw [read', failed]
    rfl

end Reporter

end Calculator
