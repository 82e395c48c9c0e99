import Mathlib.Data.List.Induction
import Mathlib.Logic.Relation
import Calculator.Session.Batch

/-!
Batches whose evaluations finish in any order. What an expression comes to depends on nothing but its
position and its text, so a batch that is over has the results of one that goes through its expressions
one after the other.
-/
namespace Calculator

namespace Batch

/-- A batch while it runs: the session as it is then, and the results that are in. -/
structure Underway where
  session : Session
  board : Board

/-- What can happen next. Any evaluation that is waiting and not stalled may be the one that goes on, and
any stalled one may be cut off if there is a limit. -/
inductive Step (b : Batch) (expressions : List Text) : Underway → Underway → Prop where
  | finish {s : Session} {board : Board} {i : Nat} {t : Text} (waiting : board[i]? = some none)
    (text : expressions[i]? = some t) (running : b.stalled i = false) :
    Step b expressions ⟨s, board⟩ ⟨s, board.set i (some (s.evaluate t))⟩
  | expire {s : Session} {board : Board} {i : Nat} {t : Text} {ms : Binary64}
    (waiting : board[i]? = some none) (text : expressions[i]? = some t) (stalled : b.stalled i = true)
    (limit : effectiveLimit? b.limit = some ms) :
    Step b expressions ⟨s, board⟩ ⟨s, board.set i (some (timeoutEvaluation t ms))⟩

/-- The results that each position comes to. -/
def settled (b : Batch) (expressions : List Text) : Board :=
  expressions.mapIdx b.settle

/-- The event that a position waits for. -/
def due (b : Batch) (i : Nat) : Event :=
  if b.stalled i then .expire i else .finish i

variable {b : Batch} {expressions : List Text}

theorem settle_running {i : Nat} (running : b.stalled i = false) (t : Text) :
    b.settle i t = some (b.session.evaluate t) := by
  simp [settle, running, withLimit]

theorem settle_stalled {i : Nat} (stalled : b.stalled i = true) (t : Text) :
    b.settle i t = (effectiveLimit? b.limit).map (timeoutEvaluation t) := by
  simp [settle, stalled, withLimit]

/-- The steps are the events that change anything. -/
theorem step_event (b : Batch) (expressions : List Text) (board : Board) (e : Event) :
    b.step expressions board e = board ∨
      b.Step expressions ⟨b.session, board⟩ ⟨b.session, b.step expressions board e⟩ := by
  cases e with
  | finish i =>
    simp only [step]
    split
    · rename_i t waiting text
      split
      · exact .inl rfl
      · rename_i running
        exact .inr (.finish waiting text (by simpa using running))
    · exact .inl rfl
  | expire i =>
    simp only [step]
    split
    · rename_i t ms waiting text limit
      split
      · rename_i stalled
        exact .inr (.expire waiting text stalled limit)
      · exact .inl rfl
    · exact .inl rfl

theorem Step.event {board : Board} {u : Underway}
    (step : b.Step expressions ⟨b.session, board⟩ u) :
    ∃ e, u = ⟨b.session, b.step expressions board e⟩ := by
  cases step with
  | @finish _ _ i t waiting text running =>
    refine ⟨.finish i, ?_⟩
    simp [Batch.step, waiting, text, running]
  | @expire _ _ i t ms waiting text stalled limit =>
    refine ⟨.expire i, ?_⟩
    simp [Batch.step, waiting, text, stalled, limit]

/-- A step puts in, at one position that waits, what that position comes to. -/
theorem Step.cases_settle {u v : Underway} (step : b.Step expressions u v) (own : u.session = b.session) :
    v.session = b.session ∧ ∃ i t e, u.board[i]? = some none ∧ expressions[i]? = some t ∧
      b.settle i t = some e ∧ v.board = u.board.set i (some e) := by
  cases step with
  | @finish s board i t waiting text running =>
    obtain rfl : s = b.session := own
    exact ⟨rfl, i, t, _, waiting, text, settle_running running t, rfl⟩
  | @expire s board i t ms waiting text stalled limit =>
    refine ⟨own, i, t, _, waiting, text, ?_, rfl⟩
    rw [settle_stalled stalled, limit]
    rfl

/-- The session is as it was, and each position waits or has come to what it comes to. -/
structure Underway.Sound (b : Batch) (expressions : List Text) (u : Underway) : Prop where
  session : u.session = b.session
  each : ∀ i, u.board[i]? = (expressions[i]?).map (fun _ => none) ∨
    u.board[i]? = (expressions[i]?).map (b.settle i)

theorem sound_start : Underway.Sound b expressions ⟨b.session, start expressions⟩ := by
  refine ⟨rfl, fun i => .inl ?_⟩
  rw [start, List.getElem?_map]

theorem Underway.Sound.step {u v : Underway} (sound : u.Sound b expressions)
    (step : b.Step expressions u v) : v.Sound b expressions := by
  obtain ⟨own, i, t, e, waiting, text, comes, same⟩ := step.cases_settle sound.session
  refine ⟨own, fun j => ?_⟩
  rw [same]
  by_cases here : i = j
  · subst here
    obtain ⟨inside, _⟩ := List.getElem?_eq_some_iff.mp waiting
    exact .inr (by simp [inside, text, comes])
  · rw [List.getElem?_set_ne here]
    exact sound.each j

theorem sound_of_steps {u : Underway}
    (steps : Relation.ReflTransGen (b.Step expressions) ⟨b.session, start expressions⟩ u) :
    u.Sound b expressions := by
  -- on the steps so far, in whatever order they came
  induction steps with
  | refl => exact sound_start
  | tail _ step ih => exact ih.step step

theorem Underway.Sound.eq_settled {u : Underway} (sound : u.Sound b expressions)
    (exhausted : ∀ i t, u.board[i]? = some none → expressions[i]? = some t → b.settle i t = none) :
    u.board = b.settled expressions := by
  refine List.ext_getElem? fun i => ?_
  rw [settled, List.getElem?_mapIdx]
  rcases sound.each i with waiting | came
  · cases text : expressions[i]? with
    | none => simp [waiting, text]
    | some t =>
      rw [text, Option.map_some] at waiting
      simp [waiting, exhausted i t waiting text]
  · exact came

/-- When nothing more can happen, what still waits would never come to anything. -/
theorem settle_none_of_stuck {u : Underway} (stuck : ∀ v, ¬ b.Step expressions u v) {i : Nat} {t : Text}
    (waiting : u.board[i]? = some none) (text : expressions[i]? = some t) : b.settle i t = none := by
  cases stalled : b.stalled i with
  | false => exact absurd (.finish waiting text stalled) (stuck _)
  | true =>
    cases limit : effectiveLimit? b.limit with
    | none => rw [settle_stalled stalled, limit, Option.map_none]
    | some ms => exact absurd (.expire waiting text stalled limit) (stuck _)

def Underway.pending (u : Underway) : Nat :=
  u.board.countP Option.isNone

theorem countP_set_lt {board : Board} {i : Nat} (waiting : board[i]? = some none) (e : Evaluation) :
    (board.set i (some e)).countP Option.isNone < board.countP Option.isNone := by
  obtain ⟨inside, empty⟩ := List.getElem?_eq_some_iff.mp waiting
  have positive : 0 < board.countP Option.isNone :=
    List.countP_pos_iff.mpr ⟨none, empty ▸ List.getElem_mem inside, rfl⟩
  rw [List.countP_set inside, empty]
  simp only [Option.isNone_none, Option.isNone_some, ↓reduceIte, Bool.false_eq_true]
  omega

theorem Step.pending_lt {u v : Underway} (step : b.Step expressions u v) : v.pending < u.pending := by
  cases step with
  | finish waiting => exact countP_set_lt waiting _
  | expire waiting => exact countP_set_lt waiting _

/-- However it goes, a batch is over at some time. -/
theorem not_forever : ¬ ∃ run : Nat → Underway, ∀ n, b.Step expressions (run n) (run (n + 1)) := by
  rintro ⟨run, steps⟩
  have falls : ∀ n, (run n).pending + n ≤ (run 0).pending := by
    intro n
    induction n with
    | zero => exact Nat.le_refl _
    | succ n ih =>
      have less := (steps n).pending_lt
      omega
  have beyond := falls ((run 0).pending + 1)
  omega

theorem steps_run (b : Batch) (expressions : List Text) (events : List Event) :
    Relation.ReflTransGen (b.Step expressions) ⟨b.session, start expressions⟩
      ⟨b.session, b.run expressions events⟩ := by
  induction events using List.reverseRecOn with
  | nil => exact .refl
  | append_singleton events e ih =>
    rw [run, List.foldl_append]
    rcases step_event b expressions (b.run expressions events) e with same | step
    · rw [← same] at ih
      exact ih
    · exact ih.tail step

/-- Nothing that has come in is taken back. -/
theorem waiting_before {board : Board} {e : Event} {i : Nat}
    (waiting : (b.step expressions board e)[i]? = some none) : board[i]? = some none := by
  rcases step_event b expressions board e with same | step
  · rwa [same] at waiting
  · obtain ⟨_, j, t, result, before, _, _, changed⟩ := step.cases_settle rfl
    by_cases here : j = i
    · exact here ▸ before
    · simp only at changed
      rwa [changed, List.getElem?_set_ne here] at waiting

theorem step_due {board : Board} {i : Nat} {t : Text} (waiting : board[i]? = some none)
    (text : expressions[i]? = some t) :
    (b.step expressions board (b.due i))[i]? = some (b.settle i t) := by
  obtain ⟨inside, _⟩ := List.getElem?_eq_some_iff.mp waiting
  have put : ∀ result, (board.set i result)[i]? = some result := fun result => by simp [inside]
  cases stalled : b.stalled i with
  | false =>
    rw [settle_running stalled]
    simp only [due, step, stalled, waiting, text, put, Bool.false_eq_true, ↓reduceIte]
  | true =>
    rw [settle_stalled stalled]
    cases limit : effectiveLimit? b.limit with
    | none => simp only [due, step, stalled, limit, waiting, text, ↓reduceIte, Option.map_none]
    | some ms => simp only [due, step, stalled, limit, waiting, text, put, ↓reduceIte, Option.map_some]

theorem due_not_mem {events : List Event} {i : Nat} {t : Text}
    (waiting : (b.run expressions events)[i]? = some none) (text : expressions[i]? = some t)
    (comes : b.settle i t ≠ none) : b.due i ∉ events := by
  -- on the events from the last back, since a position that waits now has waited all along
  induction events using List.reverseRecOn with
  | nil => simp
  | append_singleton events e ih =>
    rw [run, List.foldl_append] at waiting
    have before := waiting_before waiting
    have early := ih before
    by_cases own : e = b.due i
    · subst own
      have after := (step_due (b := b) before text).symm.trans waiting
      exact absurd (Option.some.inj after) comes
    · simpa [early] using Ne.symm own

/-- The events in any order, each at least once, leave the results that each position comes to. -/
theorem run_complete {events : List Event} (complete : ∀ i < expressions.length, b.due i ∈ events) :
    b.run expressions events = b.settled expressions := by
  have sound := sound_of_steps (steps_run b expressions events)
  refine sound.eq_settled fun i t waiting text => ?_
  obtain ⟨inside, _⟩ := List.getElem?_eq_some_iff.mp text
  by_cases comes : b.settle i t = none
  · exact comes
  · exact absurd (complete i inside) (due_not_mem waiting text comes)

theorem sequentialFrom_cons (n : Nat) (t : Text) (rest : List Text) :
    b.sequentialFrom n (t :: rest) = (b.settle n t).bind fun result =>
      (b.sequentialFrom (n + 1) rest).map (⟨n, t, result⟩ :: ·) := by
  rw [sequentialFrom]
  cases b.settle n t with
  | none => rfl
  | some result => cases b.sequentialFrom (n + 1) rest <;> rfl

theorem collect_mapIdx (n : Nat) (expressions : List Text) :
    (collect (expressions.mapIdx fun i t => b.settle (n + i) t)).map (label n expressions) =
      b.sequentialFrom n expressions := by
  induction expressions generalizing n with
  | nil => rfl
  | cons t rest ih =>
    -- the loop adds one to its counter and the positions of the rest are counted from one
    have later := ih (n + 1)
    simp only [Nat.add_right_comm n 1] at later
    rw [List.mapIdx_cons, Nat.add_zero, sequentialFrom_cons, ← later]
    cases b.settle n t with
    | none => rfl
    | some e =>
      simp only [collect, ← Nat.add_assoc]
      cases collect (rest.mapIdx fun i t => b.settle (n + i + 1) t) <;> rfl

theorem collect_settled (expressions : List Text) :
    (collect (b.settled expressions)).map (label 0 expressions) = b.sequentialFrom 0 expressions := by
  have whole := collect_mapIdx (b := b) 0 expressions
  simp only [Nat.zero_add] at whole
  exact whole

theorem entries_eq (mode : BatchMode) (expressions : List Text) :
    b.entries mode expressions = b.sequentialFrom 0 expressions := by
  cases mode with
  | sequential => rfl
  | concurrent =>
    have complete : ∀ i < expressions.length, b.due i ∈ b.inOrder expressions.length :=
      fun i inside => List.mem_map.mpr ⟨i, List.mem_range.mpr inside, rfl⟩
    rw [entries, concurrent, run_complete complete, collect_settled]

theorem exists_sequentialFrom {n : Nat} {expressions : List Text}
    (comes : ∀ i t, expressions[i]? = some t → b.settle (n + i) t ≠ none) :
    ∃ entries, b.sequentialFrom n expressions = some entries := by
  induction expressions generalizing n with
  | nil => exact ⟨[], rfl⟩
  | cons t rest ih =>
    obtain ⟨result, first⟩ := Option.ne_none_iff_exists'.mp (comes 0 t rfl)
    rw [Nat.add_zero] at first
    obtain ⟨entries, later⟩ := ih (n := n + 1) fun i t' text => by
      rw [Nat.add_assoc, Nat.add_comm 1]
      exact comes (i + 1) t' text
    exact ⟨⟨n, t, result⟩ :: entries, by rw [sequentialFrom_cons, first, later]; rfl⟩

theorem sequentialFrom_get {n : Nat} {expressions : List Text} {entries : List BatchEntry}
    (run : b.sequentialFrom n expressions = some entries) (i : Nat) :
    entries[i]? = (expressions[i]?).bind fun t => (b.settle (n + i) t).map (BatchEntry.mk (n + i) t) := by
  induction expressions generalizing n i entries with
  | nil =>
    cases run
    rfl
  | cons t rest ih =>
    rw [sequentialFrom_cons, Option.bind_eq_some_iff] at run
    obtain ⟨result, first, run⟩ := run
    obtain ⟨later, rest, rfl⟩ := Option.map_eq_some_iff.mp run
    cases i with
    | zero => simp [first]
    | succ i =>
      have behind := ih rest i
      rw [Nat.add_assoc, Nat.add_comm 1] at behind
      simpa using behind

theorem sequentialFrom_length {n : Nat} {expressions : List Text} {entries : List BatchEntry}
    (run : b.sequentialFrom n expressions = some entries) : entries.length = expressions.length := by
  induction expressions generalizing n entries with
  | nil =>
    cases run
    rfl
  | cons t rest ih =>
    rw [sequentialFrom_cons, Option.bind_eq_some_iff] at run
    obtain ⟨_, _, run⟩ := run
    obtain ⟨later, rest, rfl⟩ := Option.map_eq_some_iff.mp run
    rw [List.length_cons, List.length_cons, ih rest]

theorem sequentialFrom_append (n : Nat) (front back : List Text) :
    b.sequentialFrom n (front ++ back) = (b.sequentialFrom n front).bind fun first =>
      (b.sequentialFrom (n + front.length) back).map (first ++ ·) := by
  induction front generalizing n with
  | nil => simp [sequentialFrom]
  | cons t rest ih =>
    rw [List.cons_append, sequentialFrom_cons, sequentialFrom_cons, ih, List.length_cons,
      Nat.add_right_comm n 1, ← Nat.add_assoc]
    cases b.settle n t with
    | none => rfl
    | some result =>
      cases b.sequentialFrom (n + 1) rest with
      | none => rfl
      | some first => cases b.sequentialFrom (n + rest.length + 1) back <;> rfl

/-- The batch of what follows the first expressions. -/
def after (b : Batch) (count : Nat) : Batch :=
  { b with stalled := fun i => b.stalled (count + i) }

end Batch

def BatchEntry.later (count : Nat) (e : BatchEntry) : BatchEntry :=
  { e with index := count + e.index }

namespace Batch

variable {b : Batch}

theorem sequentialFrom_later (count n : Nat) (expressions : List Text) :
    b.sequentialFrom (count + n) expressions =
      ((b.after count).sequentialFrom n expressions).map (List.map (BatchEntry.later count)) := by
  induction expressions generalizing n with
  | nil => rfl
  | cons t rest ih =>
    have same : (b.after count).settle n t = b.settle (count + n) t := rfl
    rw [sequentialFrom_cons, sequentialFrom_cons, same, Nat.add_assoc, ih]
    cases b.settle (count + n) t with
    | none => rfl
    | some result => cases (b.after count).sequentialFrom (n + 1) rest <;> rfl

/-- The entry that a position should have. A stalled evaluation has run out of time, which is at no place
of the text. -/
structure Answers (b : Batch) (i : Nat) (t : Text) (e : BatchEntry) : Prop where
  index : e.index = i
  expression : e.expression = t
  running : b.stalled i = false → e.result = b.session.evaluate t
  stalled : b.stalled i = true → ∃ failure, e.result = ⟨t, normalize t, .error failure⟩ ∧
    failure.kind = .timeout ∧ failure.span = none

theorem answers_of_settle {i : Nat} {t : Text} {result : Evaluation}
    (comes : b.settle i t = some result) : b.Answers i t ⟨i, t, result⟩ := by
  refine ⟨rfl, rfl, fun running => ?_, fun stalled => ?_⟩
  · rw [settle_running running] at comes
    exact (Option.some.inj comes).symm
  · rw [settle_stalled stalled] at comes
    obtain ⟨ms, _, rfl⟩ := Option.map_eq_some_iff.mp comes
    exact ⟨.timedOut ms, rfl, rfl, rfl⟩

/-- Where nothing stalls without a limit, a batch comes to the same entries in either mode and in any order
of events: one for each expression, which depends on no other expression. -/
theorem entries_in_any_order (b : Batch) (expressions : List Text)
    (limited : ∀ i < expressions.length, b.stalled i = true →
      ∃ ms, b.limit = some ms ∧ Binary64.less 0 ms = true) :
    ∃ entries : List BatchEntry,
      (∀ mode, b.entries mode expressions = some entries) ∧
      (∀ u, Relation.ReflTransGen (b.Step expressions) ⟨b.session, start expressions⟩ u →
        u.session = b.session ∧ ((∀ v, ¬ b.Step expressions u v) →
          (collect u.board).map (label 0 expressions) = some entries)) ∧
      (¬ ∃ run : Nat → Underway, ∀ n, b.Step expressions (run n) (run (n + 1))) ∧
      entries.length = expressions.length ∧
      (∀ i t, expressions[i]? = some t → ∃ e, entries[i]? = some e ∧ b.Answers i t e) ∧
      (∀ (b' : Batch) expressions' entries' mode, b'.session = b.session → b'.limit = b.limit →
        b'.entries mode expressions' = some entries' → ∀ i, b'.stalled i = b.stalled i →
          expressions'[i]? = expressions[i]? → entries'[i]? = entries[i]?) ∧
      (∀ front back mode, front ++ back = expressions → ∃ first second,
        b.entries mode front = some first ∧ (b.after front.length).entries mode back = some second ∧
          entries = first ++ second.map (BatchEntry.later front.length)) := by
  have comes : ∀ i t, expressions[i]? = some t → b.settle i t ≠ none := by
    intro i t text
    obtain ⟨inside, _⟩ := List.getElem?_eq_some_iff.mp text
    cases stalled : b.stalled i with
    | false => simp [settle_running stalled]
    | true =>
      obtain ⟨ms, limit, positive⟩ := limited i inside stalled
      simp [settle_stalled stalled, effectiveLimit?, limit, positive]
  obtain ⟨entries, run⟩ := exists_sequentialFrom (b := b) (n := 0) fun i t text => by
    rw [Nat.zero_add]
    exact comes i t text
  refine ⟨entries, ?_, ?_, not_forever, sequentialFrom_length run, ?_, ?_, ?_⟩
  · intro mode
    rw [entries_eq, run]
  · intro u steps
    have sound := sound_of_steps steps
    refine ⟨sound.session, fun stuck => ?_⟩
    rw [sound.eq_settled fun _ _ => settle_none_of_stuck stuck, collect_settled, run]
  · intro i t text
    obtain ⟨result, comes⟩ := Option.ne_none_iff_exists'.mp (comes i t text)
    refine ⟨⟨i, t, result⟩, ?_, answers_of_settle comes⟩
    rw [sequentialFrom_get run, Nat.zero_add, text, Option.bind_some, comes]
    rfl
  · intro b' expressions' entries' mode session limit run' i stalled text
    rw [entries_eq] at run'
    have same : b'.settle i = b.settle i := by
      funext t
      rw [settle, settle, session, limit, stalled]
    rw [sequentialFrom_get run, sequentialFrom_get run', Nat.zero_add, text, same]
  · rintro front back mode rfl
    rw [sequentialFrom_append, Option.bind_eq_some_iff] at run
    obtain ⟨first, begin, run⟩ := run
    obtain ⟨rest, later, rfl⟩ := Option.map_eq_some_iff.mp run
    rw [Nat.zero_add, ← Nat.add_zero front.length, sequentialFrom_later] at later
    obtain ⟨second, behind, rfl⟩ := Option.map_eq_some_iff.mp later
    exact ⟨first, second, by rw [entries_eq, begin], by rw [entries_eq, behind], rfl⟩

/-- The second of two evaluations stalls, and the first is not affected. -/
theorem entries_of_one_stalled :
    (∀ i < 2, (i == 1) = true → ∃ ms, some (1 : Binary64) = some ms ∧ Binary64.less 0 ms = true) ∧
    ∃ entries : List BatchEntry,
      (∀ mode, Batch.entries ⟨⟨.degrees, .pi⟩, some 1, (· == 1)⟩ mode ["mem", "tau"] = some entries) ∧
      entries.length = 2 ∧
      (∃ e, entries[0]? = some e ∧ e.index = 0 ∧
        e.result = Session.evaluate ⟨.degrees, .pi⟩ "mem") ∧
      ∃ e, entries[1]? = some e ∧ e.index = 1 ∧
        ∃ failure, e.result = ⟨"tau", "tau", .error failure⟩ ∧ failure.kind = .timeout := by
  have limited : ∀ i < 2, (i == 1) = true →
      ∃ ms, some (1 : Binary64) = some ms ∧ Binary64.less 0 ms = true :=
    fun _ _ _ => ⟨1, rfl, by decide +kernel⟩
  obtain ⟨entries, both, _, _, length, each, _⟩ :=
    entries_in_any_order ⟨⟨.degrees, .pi⟩, some 1, (· == 1)⟩ ["mem", "tau"] limited
  obtain ⟨first, found, answers⟩ := each 0 "mem" rfl
  obtain ⟨second, found', answers'⟩ := each 1 "tau" rfl
  obtain ⟨failure, result, kind, _⟩ := answers'.stalled rfl
  exact ⟨limited, entries, both, length, ⟨first, found, answers.index, answers.running rfl⟩, second, found',
    answers'.index, failure, result, kind⟩

end Batch

end Calculator
