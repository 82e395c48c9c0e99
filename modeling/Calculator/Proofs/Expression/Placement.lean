import Calculator.Proofs.Expression.Lexing
import Calculator.Proofs.Expression.Soundness

/-!
Where an error of the reader stands, at a token or at the end of the text, and that it quotes nothing but
tokens.
-/
namespace Calculator

/-- What a cause quotes is among the tokens, and a number is refused for its size only. The causes of a text
that cannot be split or has no tokens are none of reading them. -/
def SyntaxCause.DrawnFrom (tokens : List Token) : SyntaxCause → Prop
  | lexical _ => False
  | empty => False
  | unexpected lexeme => ∃ token ∈ tokens, token.lexeme = lexeme
  | trailing lexeme => ∃ token ∈ tokens, token.lexeme = lexeme
  | numberOutOfRange raw =>
    (Binary64.ofText raw).isFinite = false ∧ ∃ token ∈ tokens, token.lexeme = .number raw
  | _ => True

theorem SyntaxCause.DrawnFrom.mono {cause : SyntaxCause} {tokens tokens' : List Token}
    (drawn : cause.DrawnFrom tokens) (subset : tokens ⊆ tokens') : cause.DrawnFrom tokens' := by
  have found : ∀ lexeme, (∃ token ∈ tokens, token.lexeme = lexeme) →
      ∃ token ∈ tokens', token.lexeme = lexeme :=
    fun lexeme ⟨token, member, same⟩ => ⟨token, subset member, same⟩
  cases cause with
  | lexical cause => exact drawn
  | empty => exact drawn
  | unexpected lexeme => exact found lexeme drawn
  | trailing lexeme => exact found lexeme drawn
  | numberOutOfRange raw => exact ⟨drawn.1, found (.number raw) drawn.2⟩
  | _ => trivial

namespace Parser

/-- The stretch of a token, or the empty stretch at the end of the text. -/
def Placed (stop : Nat) (tokens : List Token) (range : Span) : Prop :=
  range = ⟨stop, stop⟩ ∨ ∃ token ∈ tokens, range = token.range

theorem placed_place (stop : Nat) (tokens : List Token) : Placed stop tokens (place stop tokens) := by
  cases tokens with
  | nil => exact .inl rfl
  | cons token rest => exact .inr ⟨token, by simp, rfl⟩

theorem Placed.mono {stop : Nat} {tokens tokens' : List Token} {range : Span}
    (placed : Placed stop tokens range) (subset : tokens ⊆ tokens') : Placed stop tokens' range := by
  rcases placed with final | ⟨token, member, same⟩
  · exact .inl final
  · exact .inr ⟨token, subset member, same⟩

/-- The error is one of reading the tokens: it stands at one of them, or at the end, and quotes them. -/
structure Arises (stop : Nat) (tokens : List Token) (e : SyntaxError) : Prop where
  placed : Placed stop tokens e.range
  drawn : e.cause.DrawnFrom tokens

theorem Arises.mono {stop : Nat} {tokens tokens' : List Token} {e : SyntaxError}
    (arises : Arises stop tokens e) (subset : tokens ⊆ tokens') : Arises stop tokens' e :=
  ⟨arises.placed.mono subset, arises.drawn.mono subset⟩

theorem Arises.here (stop : Nat) {cause : SyntaxCause} {token : Token} {rest : List Token}
    (drawn : cause.DrawnFrom [token]) : Arises stop (token :: rest) ⟨cause, token.range⟩ :=
  ⟨.inr ⟨token, List.mem_cons_self, rfl⟩, drawn.mono (by simp)⟩

theorem fail_arises {α : Type} {stop : Nat} {cause : SyntaxCause} {tokens : List Token}
    {e : SyntaxError} (failed : (fail stop cause tokens : Except SyntaxError α) = .error e)
    (drawn : cause.DrawnFrom []) : Arises stop tokens e := by
  simp only [fail, Except.error.injEq] at failed
  subst failed
  exact ⟨placed_place stop tokens, drawn.mono (List.nil_subset tokens)⟩

theorem accept_arises {stop : Nat} {node : Expr} {rest : List Token} {e : SyntaxError}
    (failed : accept stop node rest = .error e) : Arises stop rest e := by
  unfold accept at failed
  split at failed
  · exact fail_arises failed trivial
  · cases failed

theorem closing_subset {lexeme : Lexeme} {tokens rest : List Token} {last : Nat}
    (found : closing? lexeme tokens = some (last, rest)) : rest ⊆ tokens := by
  obtain ⟨range, rfl, _⟩ := closing_some found
  exact List.subset_cons_self _ _

/-- The errors of a reader are of the tokens it reads. -/
def FailsAtTokens (stop : Nat) (operand : Nat → List Token → Reading Expr) : Prop :=
  ∀ level tokens e, operand level tokens = .error e → Arises stop tokens e

variable {room stop : Nat} {operand : Nat → List Token → Reading Expr}

theorem operand_subset (reads : ReadsPhrases room operand) {level : Nat} (small : level ≤ 3)
    {tokens rest : List Token} {e : Expr} (run : operand level tokens = .ok (e, rest)) :
    rest ⊆ tokens := by
  obtain ⟨_, p, _, _, _, rfl, _⟩ := reads level tokens e rest small run
  exact List.subset_append_right _ _

theorem items_arises (reads : ReadsPhrases room operand) (fails : FailsAtTokens stop operand)
    {closing : Lexeme} {fuel : Nat} {tokens : List Token} {e : SyntaxError}
    (failed : items (operand 1) closing fuel tokens = .error e) : Arises stop tokens e := by
  induction fuel generalizing tokens with
  | zero => cases failed
  | succ fuel ih =>
    simp only [items] at failed
    split at failed
    · cases failed
    split at failed
    · rename_i first
      cases failed
      exact fails 1 tokens e first
    rename_i item behind first
    have shorter := operand_subset reads (by decide) first
    split at failed
    · cases failed
    rename_i after comma
    split at failed
    · rename_i second
      cases failed
      exact (ih second).mono (List.Subset.trans (closing_subset comma) shorter)
    · cases failed

theorem items_subset (reads : ReadsPhrases room operand) {closing : Lexeme} {fuel : Nat}
    {tokens rest : List Token} {es : List Expr}
    (run : items (operand 1) closing fuel tokens = .ok (es, rest)) : rest ⊆ tokens := by
  obtain ⟨list, _, rfl, _⟩ := items_sound reads run
  exact List.subset_append_right _ _

theorem closedItems_arises (reads : ReadsPhrases room operand) (fails : FailsAtTokens stop operand)
    {closing : Lexeme} {missing : SyntaxCause} {tokens : List Token} {e : SyntaxError}
    (failed : closedItems (operand 1) stop closing missing tokens = .error e)
    (drawn : missing.DrawnFrom []) : Arises stop tokens e := by
  simp only [closedItems] at failed
  split at failed
  · rename_i inner
    cases failed
    exact items_arises reads fails inner
  rename_i inner
  split at failed
  · exact (fail_arises failed drawn).mono (items_subset reads inner)
  · cases failed

theorem closedItems_subset (reads : ReadsPhrases room operand) {closing : Lexeme}
    {missing : SyntaxCause} {tokens rest : List Token} {es : List Expr} {last : Nat}
    (run : closedItems (operand 1) stop closing missing tokens = .ok ((es, last), rest)) :
    rest ⊆ tokens := by
  obtain ⟨list, range, _, rfl, _⟩ := closedItems_sound reads run
  exact List.Subset.trans (List.subset_cons_self _ _) (List.subset_append_right _ _)

theorem signed_arises (reads : ReadsPhrases room operand) (fails : FailsAtTokens stop operand)
    {make : Expr → Expr} {token : Token} {tokens : List Token} {e : SyntaxError}
    (failed : (match operand Operator.signLevel tokens with
      | .error e => (.error e : Reading Expr)
      | .ok (inner, rest) => accept stop (make inner) rest) = .error e) :
    Arises stop (token :: tokens) e := by
  have behind := List.subset_cons_self token tokens
  split at failed
  · rename_i inner
    cases failed
    exact (fails _ _ _ inner).mono behind
  · rename_i inner
    exact (accept_arises failed).mono (List.Subset.trans (operand_subset reads (by decide) inner) behind)

theorem primary_arises (reads : ReadsPhrases room operand) (fails : FailsAtTokens stop operand)
    {tokens : List Token} {e : SyntaxError} (failed : primary operand stop tokens = .error e) :
    Arises stop tokens e := by
  unfold primary at failed
  split at failed
  · exact fail_arises failed trivial
  · split at failed
    · cases failed
    · rename_i beyond
      cases failed
      exact .here stop ⟨by simpa using beyond, _, List.mem_cons_self, rfl⟩
  · rename_i text range rest
    split at failed
    · cases failed
    rename_i inner opening
    have behind : inner ⊆ ⟨.name text, range⟩ :: rest :=
      List.Subset.trans (closing_subset opening) (List.subset_cons_self _ _)
    split at failed
    · rename_i args
      cases failed
      exact (closedItems_arises reads fails args trivial).mono behind
    · rename_i args
      exact (accept_arises failed).mono (List.Subset.trans (closedItems_subset reads args) behind)
  · split at failed
    · rename_i inner
      cases failed
      exact (fails _ _ _ inner).mono (List.subset_cons_self _ _)
    rename_i inner
    split at failed
    · exact (fail_arises failed trivial).mono
        (List.Subset.trans (operand_subset reads (by decide) inner) (List.subset_cons_self _ _))
    · cases failed
  · split at failed
    · rename_i elements
      cases failed
      exact (closedItems_arises reads fails elements trivial).mono (List.subset_cons_self _ _)
    · rename_i elements
      exact (accept_arises failed).mono
        (List.Subset.trans (closedItems_subset reads elements) (List.subset_cons_self _ _))
  · exact signed_arises reads fails failed
  · exact signed_arises reads fails failed
  · cases failed
    exact .here stop ⟨_, List.mem_cons_self, rfl⟩

theorem primary_subset (reads : ReadsPhrases room operand) {tokens rest : List Token} {e : Expr}
    (run : primary operand stop tokens = .ok (e, rest)) : rest ⊆ tokens := by
  obtain ⟨_, p, _, _, _, rfl, _⟩ := primary_sound reads run
  exact List.subset_append_right _ _

theorem climb_arises (reads : ReadsPhrases room operand) (fails : FailsAtTokens stop operand)
    {level fuel : Nat} {left : Expr} {tokens : List Token} {e : SyntaxError}
    (failed : climb operand stop level fuel left tokens = .error e) : Arises stop tokens e := by
  induction fuel generalizing left tokens with
  | zero => cases failed
  | succ fuel ih =>
    cases tokens with
    | nil => cases failed
    | cons token rest =>
      have behind := List.subset_cons_self token rest
      simp only [climb] at failed
      split at failed
      · rename_i op _
        split at failed
        · cases failed
        split at failed
        · rename_i second
          cases failed
          exact (fails _ _ _ second).mono behind
        rename_i right after second
        have shorter := operand_subset reads (by cases op <;> decide) second
        split at failed
        · rename_i deep
          cases failed
          exact (accept_arises deep).mono (List.Subset.trans shorter behind)
        rename_i passed
        obtain ⟨_, _, rfl⟩ := accept_ok_iff.mp passed
        exact (ih failed).mono (List.Subset.trans shorter behind)
      · cases failed

theorem expression_arises (stop room : Nat) : FailsAtTokens stop (expression stop room) := by
  induction room with
  | zero =>
    intro level tokens e failed
    exact fail_arises failed trivial
  | succ room ih =>
    intro level tokens e failed
    have reads := expression_sound stop room
    simp only [expression] at failed
    split at failed
    · rename_i first
      cases failed
      exact primary_arises reads ih first
    · rename_i first
      exact (climb_arises reads ih failed).mono (primary_subset reads first)

theorem whole_nil {e : SyntaxError} (failed : whole stop [] = .error e) : e = ⟨.empty, stop, stop⟩ := by
  cases failed
  rfl

theorem whole_arises {tokens : List Token} (some : tokens ≠ []) {e : SyntaxError}
    (failed : whole stop tokens = .error e) : Arises stop tokens e := by
  unfold whole at failed
  split at failed
  · contradiction
  split at failed
  · rename_i first
    cases failed
    exact expression_arises stop maxNesting 1 _ _ first
  · cases failed
  · rename_i token rest first
    cases failed
    have member := operand_subset (expression_sound stop maxNesting) (by decide) first
      (List.mem_cons_self)
    exact ⟨.inr ⟨token, member, rfl⟩, token, member, rfl⟩

end Parser

/-- An error stands at a stretch of the text, unless it stands at its end. -/
theorem parse_error_placed {t : Text} {e : SyntaxError} (failed : parse t = .error e) :
    e.range.stop ≤ t.length ∧
      (e.range.start < e.range.stop ∨ e.range.start = t.length ∧ e.range.stop = t.length) := by
  unfold parse at failed
  split at failed
  · rename_i lexical
    cases failed
    have extent := tokenize_error lexical
    exact ⟨extent.2, .inl extent.1⟩
  · rename_i tokens lexed
    by_cases some : tokens = []
    · subst some
      rw [Parser.whole_nil failed]
      exact ⟨Nat.le_refl _, .inr ⟨rfl, rfl⟩⟩
    rcases (Parser.whole_arises some failed).placed with final | ⟨token, member, same⟩
    · rw [final]
      exact ⟨Nat.le_refl _, .inr ⟨rfl, rfl⟩⟩
    · have extent := (tokenize_ordered lexed).mem member
      rw [same]
      exact ⟨extent.2.2, .inl extent.2.1⟩

end Calculator
