import Calculator.Proofs.Expression.Completeness
import Calculator.Proofs.Expression.Unambiguity

/-!
The reader accepts exactly the expressions of the grammar that keep to its limits, and yields the tree
of their one derivation.
-/
namespace Calculator

theorem derives_tokens_injective {c : Category} {p q : Phrase} (first : Derives c p)
    (second : Derives c q) (same : p.tokens = q.tokens) : p = q :=
  (first.splits q [] [] second trivial trivial (by rw [same])).1

namespace Parser

theorem whole_ok_iff {stop : Nat} {tokens : List Token} {tree : Expr} :
    whole stop tokens = .ok tree ↔
      ∃ p, Derives .expression p ∧ p.tokens = tokens ∧ p.Within maxNesting maxDepth ∧
        p.tree = tree := by
  constructor
  · intro run
    unfold whole at run
    split at run
    · simp [fail] at run
    split at run
    · simp at run
    · rename_i read
      obtain ⟨c, p, derives, _, within, span, same, _⟩ :=
        expression_sound stop maxNesting 1 _ _ _ (by decide) read
      simp only [Except.ok.injEq] at run
      exact ⟨p, derives.expression_of, by simpa using span, within, same.trans run⟩
    · simp at run
  · rintro ⟨p, derives, rfl, within, rfl⟩
    have read := expression_complete derives stop maxNesting 1 [] within (Nat.le_refl 1) trivial
    rw [List.append_nil] at read
    obtain ⟨token, rest, span, _⟩ := derives.begins
    rw [span] at read ⊢
    simp [whole, read]

end Parser

theorem parse_ok_iff {t : Text} {tree : Expr} :
    parse t = .ok tree ↔ ∃ tokens, tokenize t = .ok tokens ∧ Parser.whole t.length tokens = .ok tree := by
  unfold parse
  cases tokenize t <;> simp

/-- A text that falls into tokens is an expression just when the grammar derives its tokens with finite
literals, at most 500 levels of nesting and a tree at most 4000 nodes deep. Its tree, with all ranges,
is that of the derivation, and there is no other derivation. -/
theorem parse_ok_iff_derives {t : Text} {tokens : List Token} (lexed : tokenize t = .ok tokens) :
    (∀ tree, parse t = .ok tree ↔
      ∃ p, Derives .expression p ∧ p.tokens = tokens ∧ p.Within 500 4000 ∧ p.tree = tree) ∧
    ∀ p q, Derives .expression p → Derives .expression q → p.tokens = tokens → q.tokens = tokens →
      p = q := by
  constructor
  · intro tree
    simp only [parse, lexed]
    exact Parser.whole_ok_iff
  · intro p q first second here there
    exact derives_tokens_injective first second (here.trans there.symm)

/-- A sign stands above the power on its right, and the power takes a sign behind it. -/
theorem parse_signed_power :
    tokenize "-2**-x" = .ok [⟨.operator .minus, ⟨0, 1⟩⟩, ⟨.number "2", ⟨1, 2⟩⟩,
      ⟨.operator .power, ⟨2, 4⟩⟩, ⟨.operator .minus, ⟨4, 5⟩⟩, ⟨.name "x", ⟨5, 6⟩⟩] ∧
    parse "-2**-x" = .ok (.unary .minus (.binary (.known .power) (.number (.ofText "2") "2" ⟨1, 2⟩)
      (.unary .minus (.name "x" ⟨5, 6⟩) ⟨4, 6⟩) ⟨1, 6⟩) ⟨0, 6⟩) := by
  refine ⟨rfl, ((parse_ok_iff_derives rfl).1 _).mpr ?_⟩
  have exponent : Derives .unary (.signed true ⟨4, 5⟩ (.name "x" ⟨5, 6⟩)) :=
    .signed _ _ _ ((Derives.name _ _).unary_of (by decide))
  have whole := (Derives.signed true ⟨0, 1⟩ _
    (.unsigned _ (.power _ ⟨2, 4⟩ _ (.number "2" ⟨1, 2⟩) exponent))).expression_of
  refine ⟨_, whole, rfl, ⟨?_, by decide, by decide⟩, rfl⟩
  intro raw range member
  simp only [Phrase.signed, Phrase.operation, Phrase.number, Phrase.name, List.mem_cons,
    List.mem_append, Token.mk.injEq, Lexeme.number.injEq, reduceCtorEq, List.not_mem_nil, false_and,
    false_or, or_false] at member
  rw [member.1]
  decide +kernel

end Calculator
