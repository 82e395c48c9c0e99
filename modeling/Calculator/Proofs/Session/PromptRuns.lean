import Calculator.Proofs.Session.Finiteness
import Calculator.Session.Prompt

/-!
Runs of the prompt. Its state holds finite numbers only, whatever the lines, so that what is in it can
always be stored and shown.
-/
namespace Calculator

theorem Binary64.isFinite_zero : zero.isFinite = true := by
  decide +kernel

section Display

theorem Binary64.display_ok {places : Option Int} (precise : ∀ p, places = some p → 1 ≤ p ∧ p ≤ 100)
    (x : Binary64) : ∃ t, x.display places = .ok t := by
  cases places with
  | none => exact ⟨_, rfl⟩
  | some p =>
    have range := precise p rfl
    have inside : ¬ (p < 1 ∨ 100 < p) := by omega
    cases x with
    | nan => exact ⟨_, rfl⟩
    | infinite negative => exact ⟨_, rfl⟩
    | finite negative m fits =>
      by_cases zero : m = 0
      · simp [display, roundSignificant, inside, zero, Except.map]
      · simp [display, roundSignificant, inside, zero, Except.map]

variable {r : Reporter} (precise : ∀ p, r.precision = some p → 1 ≤ p ∧ p ≤ 100)
include precise

theorem Reporter.formatValue_ok (x : Binary64) : ∃ t, r.formatValue x = .ok t :=
  Binary64.display_ok precise x

theorem Reporter.formatResult_ok (record : ResultRecord) (index : Option Nat) :
    ∃ t, r.formatResult record index = .ok t := by
  have shown : ∀ x, ∃ t, r.formatValue x = .ok t := formatValue_ok precise
  cases outcome : record.outcome with
  | error p =>
    cases format : r.format <;> simp [formatResult, format, compactResult, prettyResult, outcome]
  | ok x =>
    obtain ⟨t, shown⟩ := shown x
    cases format : r.format <;>
      simp [formatResult, format, compactResult, prettyResult, outcome, shown, Except.map]

end Display

/-- The numbers of a state are finite. -/
structure PromptState.Sound (s : PromptState) : Prop where
  memory : s.session.memory.isFinite = true
  last : ∀ x, s.last = some x → x.isFinite = true

/-- The expression that a line has evaluated. -/
def PromptLine.evaluated? : PromptLine → Option Text
  | .expression t => some t
  | .command (.store t) => if t = [] then none else some t
  | _ => none

namespace Prompt

/-- What a line does to a sound state. -/
inductive Turns (s : PromptState) : PromptLine → PromptState → Prop where
  | remember {t : Text} {x : Binary64} (value : (s.session.evaluate t).outcome = .ok x) :
    Turns s (.expression t) ⟨s.session, some x⟩
  | store {t : Text} {x : Binary64} (value : t = [] ∧ s.last = some x ∨
      t ≠ [] ∧ (s.session.evaluate t).outcome = .ok x) :
    Turns s (.command (.store t)) ⟨{ s.session with memory := x }, some x⟩
  | clear : Turns s (.command .clear) ⟨{ s.session with memory := .zero }, s.last⟩
  | fail {line : PromptLine} {t : Text} {failure : Failure} (asked : line.evaluated? = some t)
    (failed : (s.session.evaluate t).outcome = .error failure) : Turns s line s
  | nothing (empty : s.last = none) : Turns s (.command (.store [])) s
  | keep {line : PromptLine} (asked : line.evaluated? = none) (store : line ≠ .command (.store []))
    (clear : line ≠ .command .clear) : Turns s line s

theorem storeNumber_state (r : Reporter) (s : PromptState) {x : Binary64} (finite : x.isFinite = true) :
    (storeNumber r s x).state = ⟨{ s.session with memory := x }, s.last⟩ := by
  simp [storeNumber, Session.store, finite]

theorem store_turns (r : Reporter) {s : PromptState} (sound : s.Sound) (t : Text) :
    Turns s (.command (.store t)) (store r s t).state := by
  by_cases bare : t = []
  · subst bare
    cases last : s.last with
    | none =>
      simp only [store, last, ↓reduceIte]
      exact .nothing last
    | some x =>
      simp only [store, last, ↓reduceIte, storeNumber_state r s (sound.last x last)]
      exact .store (.inl ⟨rfl, last⟩)
  · have asked : (PromptLine.command (.store t)).evaluated? = some t := by
      simp [PromptLine.evaluated?, bare]
    cases outcome : (s.session.evaluate t).outcome with
    | error failure =>
      simp only [store, bare, outcome, ↓reduceIte]
      exact .fail asked outcome
    | ok x =>
      have finite := Session.outcome_finite outcome
      simp only [store, bare, outcome, ↓reduceIte, storeNumber_state r _ finite]
      exact .store (.inr ⟨bare, outcome⟩)

theorem process_turns (r : Reporter) {s : PromptState} (sound : s.Sound) (line : Text) :
    Turns s (readLine line) (process r s line).state := by
  unfold process
  cases readLine line with
  | blank => exact .keep rfl (by simp) (by simp)
  | expression t =>
    cases outcome : (s.session.evaluate t).outcome with
    | error failure =>
      simp only [evaluate, outcome]
      exact .fail rfl outcome
    | ok x =>
      simp only [evaluate, outcome]
      exact .remember outcome
  | command c =>
    cases c with
    | store t => exact store_turns r sound t
    | clear => exact .clear
    | _ => exact .keep rfl (by simp) (by simp)

section Turns

variable {s s' : PromptState} {line : PromptLine} (turns : Turns s line s')
include turns

theorem Turns.sound (sound : s.Sound) : s'.Sound := by
  cases turns with
  | remember value =>
    have finite := Session.outcome_finite value
    exact ⟨sound.memory, fun y same => Option.some.inj same ▸ finite⟩
  | @store t x value =>
    have finite : x.isFinite = true := by
      rcases value with ⟨_, last⟩ | ⟨_, value⟩
      · exact sound.last x last
      · exact Session.outcome_finite value
    exact ⟨finite, fun y same => Option.some.inj same ▸ finite⟩
  | clear =>
    refine ⟨?_, sound.last⟩
    dsimp only
    exact Binary64.isFinite_zero
  | fail => exact sound
  | nothing => exact sound
  | keep => exact sound

theorem Turns.memory (changed : s'.session.memory ≠ s.session.memory) :
    (∃ t x, line = .command (.store t) ∧
      (t = [] ∧ s.last = some x ∨ t ≠ [] ∧ (s.session.evaluate t).outcome = .ok x) ∧
      s'.session.memory = x ∧ s'.last = some x) ∨
    line = .command .clear ∧ s'.session.memory = .zero := by
  cases turns with
  | store value => exact .inl ⟨_, _, rfl, value, rfl, rfl⟩
  | clear => exact .inr ⟨rfl, by dsimp only⟩
  | remember => exact absurd rfl changed
  | fail => exact absurd rfl changed
  | nothing => exact absurd rfl changed
  | keep => exact absurd rfl changed

theorem Turns.cleared (asked : line = .command .clear) :
    s' = ⟨{ s.session with memory := .zero }, s.last⟩ := by
  subst asked
  cases turns with
  | clear => rfl
  | fail asked => cases asked
  | keep _ _ other => exact absurd rfl other

theorem Turns.last (changed : s'.last ≠ s.last) :
    ∃ t x, line.evaluated? = some t ∧ (s.session.evaluate t).outcome = .ok x ∧ s'.last = some x := by
  cases turns with
  | remember value => exact ⟨_, _, rfl, value, rfl⟩
  | store value =>
    rcases value with ⟨_, last⟩ | ⟨given, value⟩
    · exact absurd last.symm changed
    · exact ⟨_, _, if_neg given, value, rfl⟩
  | clear => exact absurd rfl changed
  | fail => exact absurd rfl changed
  | nothing => exact absurd rfl changed
  | keep => exact absurd rfl changed

theorem Turns.failed {t : Text} {failure : Failure} (asked : line.evaluated? = some t)
    (failed : (s.session.evaluate t).outcome = .error failure) : s' = s := by
  cases turns with
  | remember value =>
    cases asked
    cases value.symm.trans failed
  | @store t' x value =>
    rcases value with ⟨rfl, _⟩ | ⟨given, value⟩
    · cases asked
    · obtain rfl : t' = t := by simpa [PromptLine.evaluated?, given] using asked
      cases value.symm.trans failed
  | clear => cases asked
  | fail => rfl
  | nothing => rfl
  | keep => rfl

end Turns

/-- The state after some lines. -/
def after (r : Reporter) (s : PromptState) (lines : List Text) : PromptState :=
  lines.foldl (fun s line => (process r s line).state) s

theorem sound_after (r : Reporter) {s : PromptState} (sound : s.Sound) (lines : List Text) :
    (after r s lines).Sound := by
  -- what a line does keeps the state sound, so that the next line starts from a sound one
  induction lines generalizing s with
  | nil => exact sound
  | cons line rest ih => exact ih ((process_turns r sound line).sound sound)

section Replies

variable {r : Reporter} (precise : ∀ p, r.precision = some p → 1 ≤ p ∧ p ≤ 100)
include precise

theorem storeNumber_replies (s : PromptState) {x : Binary64} (finite : x.isFinite = true) :
    ∃ reply, (storeNumber r s x).reply = .ok reply := by
  obtain ⟨t, shown⟩ := Reporter.formatValue_ok precise x
  simp [storeNumber, Session.store, finite, shown, showing, Except.map, Except.mapError]

theorem store_replies {s : PromptState} (sound : s.Sound) (t : Text) :
    ∃ reply, (store r s t).reply = .ok reply := by
  by_cases bare : t = []
  · cases last : s.last with
    | none => simp [store, bare, last]
    | some x =>
      simp only [store, bare, last, ↓reduceIte]
      exact storeNumber_replies precise s (sound.last x last)
  · cases outcome : (s.session.evaluate t).outcome with
    | error failure =>
      obtain ⟨shown, formatted⟩ := Reporter.formatResult_ok precise (s.session.evaluate t).record none
      simp [store, bare, outcome, formatted, showing, Except.map, Except.mapError]
    | ok x =>
      simp only [store, bare, outcome, ↓reduceIte]
      exact storeNumber_replies precise _ (Session.outcome_finite outcome)

theorem process_replies {s : PromptState} (sound : s.Sound) (line : Text) :
    ∃ reply, (process r s line).reply = .ok reply := by
  unfold process
  cases readLine line with
  | blank => exact ⟨_, rfl⟩
  | expression t =>
    obtain ⟨shown, formatted⟩ := Reporter.formatResult_ok precise (s.session.evaluate t).record none
    simp [evaluate, formatted, showing, Except.map, Except.mapError]
  | command c =>
    match c with
    | .store t => exact store_replies precise sound t
    | .recall =>
      obtain ⟨t, shown⟩ := Reporter.formatValue_ok precise s.session.memory
      simp [run, shown, showing, Except.map, Except.mapError]
    | .quit | .help | .names | .clear | .unknown _ => exact ⟨_, rfl⟩

theorem answerAll_ok {s : PromptState} (sound : s.Sound) (lines : List Text) :
    ∃ shown, answerAll r s lines = .ok shown := by
  induction lines generalizing s with
  | nil => exact ⟨_, rfl⟩
  | cons line rest ih =>
    obtain ⟨reply, replied⟩ := process_replies precise sound line
    obtain ⟨shown, later⟩ := ih ((process_turns r sound line).sound sound)
    rw [answerAll, replied, later]
    by_cases exit : reply.exit
    · simp [exit]
    · simp [exit, Except.map]

end Replies

/-- Whatever the lines of a run, the next one is answered and leaves finite numbers. Memory changes only to
the value that is stored or to zero, which is what clearing leaves in it, and the last value only to one
that the line has evaluated. -/
theorem run_sound (r : Reporter) (precise : ∀ p, r.precision = some p → 1 ≤ p ∧ p ≤ 100)
    (session : Session) (finite : session.memory.isFinite = true) (before : List Text) (line : Text)
    (s s' : PromptState) (reached : s = after r ⟨session, none⟩ before)
    (next : s' = (process r s line).state) :
    (∃ reply, (process r s line).reply = .ok reply) ∧ Turns s (readLine line) s' ∧
      s'.session.memory.isFinite = true ∧ (∀ x, s'.last = some x → x.isFinite = true) ∧
      (s'.session.memory ≠ s.session.memory →
        (∃ t x, readLine line = .command (.store t) ∧
          (t = [] ∧ s.last = some x ∨ t ≠ [] ∧ (s.session.evaluate t).outcome = .ok x) ∧
          s'.session.memory = x ∧ s'.last = some x) ∨
        readLine line = .command .clear ∧ s'.session.memory = .zero) ∧
      (readLine line = .command .clear → s' = ⟨{ s.session with memory := .zero }, s.last⟩) ∧
      (s'.last ≠ s.last → ∃ t x, (readLine line).evaluated? = some t ∧
        (s.session.evaluate t).outcome = .ok x ∧ s'.last = some x) ∧
      (∀ t failure, (readLine line).evaluated? = some t →
        (s.session.evaluate t).outcome = .error failure → s' = s) ∧
      ∃ shown, answerAll r ⟨session, none⟩ before = .ok shown := by
  have begin : PromptState.Sound ⟨session, none⟩ := ⟨finite, by simp⟩
  have sound : s.Sound := reached ▸ sound_after r begin before
  have turns : Turns s (readLine line) s' := next ▸ process_turns r sound line
  have kept := turns.sound sound
  exact ⟨process_replies precise sound line, turns, kept.memory, kept.last, turns.memory, turns.cleared,
    turns.last, fun _ _ => turns.failed, answerAll_ok precise begin before⟩

/-- After a value has been stored, an expression that cannot be read is to be stored, or memory is cleared. -/
theorem failed_store_kept :
    let r : Reporter := ⟨.plain, false, some 3, false, .zero⟩
    let s := after r ⟨⟨.degrees, .zero⟩, none⟩ ["pi", ":store"]
    (process r s ":store (tau").state = s ∧ s.session.memory = .pi ∧
      (process r s ":clear").state.session.memory = .zero := by
  intro r s
  have precise : ∀ p, r.precision = some p → 1 ≤ p ∧ p ≤ 100 := by
    intro p same
    cases same
    decide
  have finite : (⟨.degrees, .zero⟩ : Session).memory.isFinite = true := by decide +kernel
  have asked : (readLine ":store (tau").evaluated? = some "(tau" := by decide
  have failed : (s.session.evaluate "(tau").outcome = .error (.unreadable ⟨.unclosedGroup, ⟨4, 4⟩⟩) := by
    decide +kernel
  obtain ⟨_, _, _, _, _, _, _, kept, _⟩ := run_sound r precise ⟨.degrees, .zero⟩ finite ["pi", ":store"]
    ":store (tau" s _ rfl rfl
  obtain ⟨_, _, _, _, _, cleared, _⟩ := run_sound r precise ⟨.degrees, .zero⟩ finite ["pi", ":store"]
    ":clear" s _ rfl rfl
  have zero := cleared (by decide)
  exact ⟨kept _ _ asked failed, by decide +kernel, by rw [zero]⟩

end Prompt

end Calculator
