import Calculator.Proofs.Session.PromptRuns
import Calculator.Proofs.Session.WhiteSpace
import Calculator.Proofs.Text.Blanks

/-!
Storing an expression at the prompt. The command evaluates another text than the one that was typed, with
single spaces between its words; it comes to the same as evaluating the expression and storing its value
after that.
-/
namespace Calculator

theorem Lexer.visible_of_not_blank {u : CodeUnit} (visible : Text.isBlank u = false) :
    isSpace u = false := by
  cases blank : isSpace u with
  | false => rfl
  | true => rcases space_cases blank with rfl | rfl | rfl | rfl <;> cases visible

/-- One more blank in front of others is no new run. -/
theorem Respaced.more_blanks {u v : CodeUnit} {t t' : Text} (respaced : Respaced (v :: t) t')
    (blank : Lexer.isSpace u = true) (blank' : Lexer.isSpace v = true) : Respaced (u :: v :: t) t' := by
  generalize whole : v :: t = text at respaced
  cases respaced with
  | nil => cases whole
  | visible visible _ =>
    obtain ⟨rfl, _⟩ := List.cons.inj whole
    cases visible.symm.trans blank'
  | @blanks s s' t t' some some' all all' rest =>
    have longer : ∀ w ∈ u :: s, Lexer.isSpace w = true := by simpa [blank] using all
    exact .blanks (List.cons_ne_nil u s) some' longer all' rest

theorem respaced_splitBlanks {t : Text}
    (plain : ∀ u ∈ t, Text.isBlank u = true → Lexer.isSpace u = true) :
    Respaced t (Text.join [0x20] (Text.splitBlanks t)) := by
  have space : ∀ u ∈ ([0x20] : Text), Lexer.isSpace u = true := List.all_eq_true.mp rfl
  -- a blank in front of another one belongs to its run, which is one space already
  fun_induction Text.splitBlanks t with
  | case1 => exact .nil
  | case2 u blank v rest next ih =>
    simp only [List.mem_cons, forall_eq_or_imp] at plain ih
    exact (ih plain.2).more_blanks (plain.1 blank) (plain.2.1 next)
  | case3 u blank v rest next ih =>
    simp only [List.mem_cons, forall_eq_or_imp] at plain ih
    have run : ∀ w ∈ [u], Lexer.isSpace w = true := by simpa using plain.1 blank
    rw [Text.join_cons (Text.splitBlanks_ne_nil _)]
    exact .blanks (List.cons_ne_nil u []) (by simp) run space (ih plain.2)
  | case4 u blank =>
    have run : ∀ w ∈ [u], Lexer.isSpace w = true := by simpa using plain u List.mem_cons_self blank
    exact .blanks (List.cons_ne_nil u []) (by simp) run space .nil
  | case5 u rest visible ih =>
    simp only [List.mem_cons, forall_eq_or_imp] at plain
    have joined : Text.join [0x20] (Text.prependToHead u (Text.splitBlanks rest)) =
        u :: Text.join [0x20] (Text.splitBlanks rest) := by
      obtain ⟨part, parts, same⟩ := List.exists_cons_of_ne_nil (Text.splitBlanks_ne_nil rest)
      cases parts <;> simp [same, Text.prependToHead, Text.join]
    rw [joined]
    exact .visible (Lexer.visible_of_not_blank (by simpa using visible)) (ih plain.2)

theorem Respaced.ne_nil {t t' : Text} (respaced : Respaced t t') (some : t ≠ []) : t' ≠ [] := by
  cases respaced with
  | nil => contradiction
  | visible _ _ => exact List.cons_ne_nil _ _
  | blanks _ some' => exact fun none => some' (List.append_eq_nil_iff.mp none).1

/-- Without line ends no call is broken. -/
theorem BreaksCall.lineEnd {t : Text} (breaks : BreaksCall t) : 0x0A ∈ t ∨ 0x0D ∈ t := by
  obtain ⟨before, blanks, behind, rfl, _, _, lineEnd⟩ := breaks
  simp only [List.mem_append]
  tauto

namespace Session

theorem outcome_respaced (s : Session) {t t' : Text} (respaced : Respaced t t') (here : ¬ BreaksCall t)
    (there : ¬ BreaksCall t') :
    (s.evaluate t).outcome.mapError Failure.kind = (s.evaluate t').outcome.mapError Failure.kind := by
  rw [outcome_kind, outcome_kind, parse_of_unbroken respaced here there]

end Session

namespace Prompt

variable {a : Text}

/-- What is evaluated when an expression is typed behind the command. -/
def joinWords (a : Text) : Text :=
  Text.join [0x20] (Text.splitBlanks a)

theorem process_expression (r : Reporter) (s : PromptState) (typed : a.trim ≠ [])
    (expression : a.trim.head? ≠ some 0x3A) : process r s a = evaluate r s a.trim := by
  obtain ⟨u, rest, same⟩ := List.exists_cons_of_ne_nil typed
  have other : u ≠ 0x3A := by simpa [same] using expression
  simp [process, readLine, same, other]

theorem process_store (r : Reporter) (s : PromptState) (typed : a.trim ≠ []) :
    process r s (":store " ++ a) = store r s (joinWords a.trim) := by
  obtain ⟨before, behind, split, blank, blank', trimmed⟩ := Text.exists_trim a
  obtain ⟨u, rest, same⟩ := List.exists_cons_of_ne_nil typed
  have name : ("store" : Text) = [0x73, 0x74, 0x6F, 0x72, 0x65] := rfl
  have command : (":store " : Text) = 0x3A :: (("store" : Text) ++ [0x20]) := rfl
  have trimmed' : Text.Trimmed (0x3A :: (("store" : Text) ++ [0x20] ++ before) ++ a.trim) := by
    refine ⟨by simp [Text.isBlank], ?_⟩
    rw [List.getLast?_append_of_ne_nil _ typed]
    exact trimmed.last
  have whole : (":store " ++ a).trim = 0x3A :: (("store" : Text) ++ ([0x20] ++ before) ++ a.trim) := by
    have none : ∀ u ∈ ([] : Text), Text.isBlank u = true := by simp
    have enclosed := trimmed'.trim_enclosed (List.cons_ne_nil _ _) none blank'
    have spelled := congrArg (fun t : Text => (":store " ++ t).trim) split
    refine spelled.trans ?_
    rw [command]
    simpa using enclosed
  have words : Text.splitBlanks (("store" : Text) ++ ([0x20] ++ before) ++ a.trim) =
      ("store" : Text) :: Text.splitBlanks a.trim := by
    refine Text.splitBlanks_word (by simp [name, Text.isBlank]) ?_ (by simp) ?_
    · simpa [Text.isBlank] using blank
    · exact ⟨u, by simp [same], trimmed.first u (by simp [same])⟩
  have read : readCommand (("store" : Text) ++ ([0x20] ++ before) ++ a.trim) =
      .store (joinWords a.trim) := by
    rw [readCommand, words]
    rfl
  have line : readLine (":store " ++ a) = .command (.store (joinWords a.trim)) := by
    rw [readLine, whole, ← read]
    rfl
  rw [process, line]
  rfl

/-- The text that is stored and the text that is typed have one outcome. -/
theorem outcome_joinWords (s : Session) (plain : ∀ u ∈ a, Text.isBlank u = true → u = 0x20 ∨ u = 0x09) :
    (s.evaluate (joinWords a)).outcome.mapError Failure.kind =
      (s.evaluate a).outcome.mapError Failure.kind := by
  have space : ∀ u ∈ a, Text.isBlank u = true → Lexer.isSpace u = true := by
    intro u member blank
    rcases plain u member blank with rfl | rfl <;> rfl
  have lineEnds : ∀ u ∈ a, u ≠ 0x0A ∧ u ≠ 0x0D := by
    intro u member
    constructor <;> rintro rfl <;> exact absurd (plain _ member rfl) (by decide)
  have joined : ∀ u ∈ joinWords a, u ≠ 0x0A ∧ u ≠ 0x0D := by
    intro u member
    rcases Text.mem_join member with between | ⟨part, listed, inside⟩
    · obtain rfl := List.mem_singleton.mp between
      decide
    · exact lineEnds u (Text.mem_splitBlanks listed u inside)
  have unbroken : ∀ {t : Text}, (∀ u ∈ t, u ≠ 0x0A ∧ u ≠ 0x0D) → ¬ BreaksCall t := by
    intro t none breaks
    rcases breaks.lineEnd with member | member
    · exact (none _ member).1 rfl
    · exact (none _ member).2 rfl
  exact s.outcome_respaced (respaced_splitBlanks space).symm (unbroken joined) (unbroken lineEnds)

/-- Storing an expression is evaluating it and, if it has a value, storing the last result after that. It
does not matter what is in the memory, nor whether the answer can be shown. -/
theorem store_expression (r : Reporter) (s : PromptState) (a : Text) (typed : a.trim ≠ [])
    (expression : a.trim.head? ≠ some 0x3A)
    (plain : ∀ u ∈ a, Text.isBlank u = true → u = 0x20 ∨ u = 0x09) :
    (process r s (":store " ++ a)).state =
      if (s.session.evaluate a.trim).ok then (process r (process r s a).state ":store").state
      else (process r s a).state := by
  obtain ⟨before, behind, split, _⟩ := Text.exists_trim a
  have inside : ∀ u ∈ a.trim, Text.isBlank u = true → u = 0x20 ∨ u = 0x09 := by
    intro u member
    exact plain u (by rw [split]; simp [member])
  have space : ∀ u ∈ a.trim, Text.isBlank u = true → Lexer.isSpace u = true := by
    intro u member blank
    rcases inside u member blank with rfl | rfl <;> rfl
  have given : joinWords a.trim ≠ [] := (respaced_splitBlanks space).ne_nil typed
  have same := outcome_joinWords s.session inside
  have bare : ∀ s, process r s ":store" = store r s [] := fun s => rfl
  rw [process_store r s typed, process_expression r s typed expression, bare]
  cases outcome : (s.session.evaluate a.trim).outcome with
  | error failure =>
    cases outcome' : (s.session.evaluate (joinWords a.trim)).outcome with
    | error failure' => simp [store, given, outcome', evaluate, outcome, Evaluation.ok]
    | ok x => simp [outcome, outcome', Except.mapError] at same
  | ok x =>
    cases outcome' : (s.session.evaluate (joinWords a.trim)).outcome with
    | error failure' => simp [outcome, outcome', Except.mapError] at same
    | ok x' =>
      obtain rfl : x' = x := by simpa [outcome, outcome', Except.mapError] using same
      simp [store, given, outcome', evaluate, outcome, Evaluation.ok]

/-- The call and its parentheses are torn apart by the blanks in between. -/
theorem store_recall :
    (process ⟨.plain, false, some 3, false, .zero⟩ ⟨⟨.degrees, .pi⟩, none⟩
        (":store " ++ "\t mem \t ( ) +  tau \t")).state =
      (process ⟨.plain, false, some 3, false, .zero⟩
        (process ⟨.plain, false, some 3, false, .zero⟩ ⟨⟨.degrees, .pi⟩, none⟩
          "\t mem \t ( ) +  tau \t").state ":store").state ∧
    (process ⟨.plain, false, some 3, false, .zero⟩ ⟨⟨.degrees, .pi⟩, none⟩
        (":store " ++ "\t mem \t ( ) +  tau \t")).state.session.memory = Binary64.pi.add .tau := by
  have evaluated : ((⟨.degrees, .pi⟩ : Session).evaluate
      ("\t mem \t ( ) +  tau \t" : Text).trim).ok = true := by decide +kernel
  have plain : ("\t mem \t ( ) +  tau \t" : Text).all
      (fun u => !Text.isBlank u || u == 0x20 || u == 0x09) = true := by decide
  have stored := store_expression ⟨.plain, false, some 3, false, .zero⟩ ⟨⟨.degrees, .pi⟩, none⟩
    "\t mem \t ( ) +  tau \t" (by decide) (by decide)
    (by simpa [or_assoc, imp_iff_not_or] using List.all_eq_true.mp plain)
  rw [if_pos evaluated] at stored
  exact ⟨stored, by decide +kernel⟩

end Prompt

end Calculator
