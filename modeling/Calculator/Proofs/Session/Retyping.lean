import Calculator.Proofs.Expression.Completion
import Calculator.Proofs.Expression.Vocabulary
import Calculator.Proofs.Number.Layout
import Calculator.Proofs.Session.Composition

/-!
A displayed number can be typed back in: it is a numeral, with a minus sign in front of what is below
zero, and evaluating it gives the number again.
-/
namespace Calculator

theorem normalize_eq_self {t : Text} (noCaret : 0x5E ∉ t) (noName : 0x6D ∉ t) : normalize t = t := by
  have kept := Normalize.memoryFrom_stretch false noName []
  rw [List.append_nil] at kept
  rw [normalize, Normalize.memory, Normalize.caret_eq_self noCaret, kept, Normalize.memoryFrom,
    List.append_nil]

/-- Numerals, also behind a minus sign, have nothing that is rewritten before they are read. -/
theorem Numeral.normalize_signed (n : Numeral) (sign : Text) (signs : ∀ u ∈ sign, u = 0x2D) :
    normalize (sign ++ n.text) = sign ++ n.text := by
  have units : ∀ u ∈ sign ++ n.text, Text.isDigit u = true ∨ u ∈ (".eE+-" : Text) := by
    intro u member
    rcases List.mem_append.mp member with inSign | inText
    · exact .inr (signs u inSign ▸ by decide)
    · exact n.units inText
  have other : ∀ v : CodeUnit, Text.isDigit v = false → v ∉ (".eE+-" : Text) → v ∉ sign ++ n.text := by
    intro v noDigit noSign member
    rcases units v member with digit | mark
    · exact Bool.false_ne_true (noDigit.symm.trans digit)
    · exact noSign mark
  exact normalize_eq_self (other 0x5E rfl (by decide)) (other 0x6D rfl (by decide))

namespace Session

variable {s : Session} {t : Text} {x : Binary64} {p : Phrase}

theorem outcome_of_reads (reads : s.Reads t x p) (nesting : p.nesting ≤ Parser.maxNesting)
    (depth : p.tree.depth ≤ Parser.maxDepth) : (s.evaluate t).outcome = .ok x := by
  obtain ⟨tree, read, same⟩ := parse_of_lexes reads.lexes reads.derives ⟨reads.literals, nesting, depth⟩
  refine outcome_ok_iff.mpr ⟨tree, read, Expr.meaning_number_iff.mp ?_⟩
  rw [Expr.meaning_of_unplaced_eq same, reads.meaning]

theorem reads_numeral (s : Session) {n : Numeral} (said : n.value.toBinary64 false = x)
    (finite : x.isFinite = true) : s.Reads n.text x (.number n.text default) := by
  have value : Binary64.ofText n.text = x := (Binary64.ofText_text n).trans said
  refine ⟨?_, (Derives.number n.text default).expression_of, .number ?_ default, ?_⟩
  · have plain := n.normalize_signed [] (by simp)
    rw [List.nil_append] at plain
    rw [plain]
    exact Lexes.single n.isWord
  · rwa [value]
  · rw [Phrase.number, value]
    rfl

theorem reads_negative_numeral (s : Session) {n : Numeral} (said : n.value.toBinary64 false = x)
    (finite : x.isFinite = true) :
    s.Reads ("-" ++ n.text) (-x) (.signed true default (.number n.text default)) := by
  obtain ⟨lexes, derives, literals, meaning⟩ := reads_numeral s said finite
  have number := Derives.number n.text default
  refine ⟨?_, (Derives.signed true _ _ (number.unary_of (by decide))).expression_of,
    literals.signed true default, ?_⟩
  · have minus : ("-" : Text) = [0x2D] := rfl
    rw [minus, n.normalize_signed [0x2D] (by simp)]
    exact lexes_signed true default (Lexes.single n.isWord)
  · show Expr.meaning s.registry (.unary .minus (Phrase.number n.text default).tree _) = _
    rw [Expr.meaning_unary, meaning]
    rfl

theorem outcome_numeral (s : Session) {n : Numeral} (said : n.value.toBinary64 false = x)
    (finite : x.isFinite = true) :
    (s.evaluate n.text).outcome = .ok x ∧ (s.evaluate ("-" ++ n.text)).outcome = .ok (-x) := by
  constructor
  · exact outcome_of_reads (reads_numeral s said finite) (by decide : 1 ≤ Parser.maxNesting)
      (by decide : 1 ≤ Parser.maxDepth)
  · exact outcome_of_reads (reads_negative_numeral s said finite) (by decide : 2 ≤ Parser.maxNesting)
      (by decide : 2 ≤ Parser.maxDepth)

/-- What is displayed of a finite number evaluates to it, in every session. Both zeros are displayed alike. -/
theorem evaluate_display (s : Session) (x : Binary64) (finite : x.isFinite = true) :
    ∃ t, x.display none = .ok t ∧
      (s.evaluate t).outcome = .ok (if x.isZero then Binary64.zero else x) := by
  refine ⟨x.toText, rfl, ?_⟩
  cases x with
  | nan => cases finite
  | infinite negative => cases finite
  | finite negative m fits =>
    obtain ⟨n, text, said, _⟩ := Binary64.toText_finite negative fits
    obtain ⟨plain, negated⟩ := outcome_numeral s said rfl
    have unsigned : ("" : Text) = [] := rfl
    rw [text]
    by_cases zero : m = 0
    · subst zero
      simpa [Binary64.isZero, Binary64.zero, Binary64.round_unscaled false fits, unsigned] using plain
    · have nonzero : (Binary64.finite negative m fits).isZero = false := by simpa [Binary64.isZero] using zero
      rw [nonzero]
      cases negative with
      | false => simpa [unsigned] using plain
      | true =>
        have minus : -Binary64.finite false m fits = .finite true m fits := rfl
        simpa [zero, minus] using negated

/-- The number next to zero from below. -/
theorem evaluate_display_least :
    (Binary64.round true 1 1).display none = .ok ("-5e-324" : Text) ∧
      (evaluate ⟨.degrees, .nan⟩ "-5e-324").outcome = .ok (Binary64.round true 1 1) := by
  have text : (Binary64.round true 1 1).display none = .ok ("-5e-324" : Text) := by decide +kernel
  have nonzero : (Binary64.round true 1 1).isZero = false := by decide +kernel
  have finite : (Binary64.round true 1 1).isFinite = true := by decide +kernel
  obtain ⟨t, shown, answer⟩ := evaluate_display ⟨.degrees, .nan⟩ (Binary64.round true 1 1) finite
  rw [text, Except.ok.injEq] at shown
  rw [nonzero, if_neg Bool.false_ne_true, ← shown] at answer
  exact ⟨text, answer⟩

end Session

end Calculator
