import Mathlib.Tactic.Tauto
import Calculator.Proofs.Number.Layout

/-!
Texts of one line, and texts without control characters. The latter also begin no terminal sequence;
whatever is written of a number is one.
-/
namespace Calculator

namespace Text

/-- No control character of ASCII; line ends and the escape are control characters. -/
def Printable (t : Text) : Prop :=
  ∀ u ∈ t, 0x20 ≤ u

instance (t : Text) : Decidable t.Printable :=
  List.decidableBAll _ t

/-- No line feed and no carriage return. -/
def OneLine (t : Text) : Prop :=
  0x0A ∉ t ∧ 0x0D ∉ t

instance (t : Text) : Decidable t.OneLine :=
  inferInstanceAs (Decidable (0x0A ∉ t ∧ 0x0D ∉ t))

variable {s t : Text}

@[simp] theorem oneLine_append : (s ++ t).OneLine ↔ s.OneLine ∧ t.OneLine := by
  simp only [OneLine, List.mem_append, not_or]
  tauto

@[simp] theorem printable_nil : Printable [] := by
  simp [Printable]

@[simp] theorem printable_cons {u : CodeUnit} : Printable (u :: t) ↔ 0x20 ≤ u ∧ t.Printable :=
  List.forall_mem_cons

@[simp] theorem printable_append : (s ++ t).Printable ↔ s.Printable ∧ t.Printable :=
  List.forall_mem_append

theorem Printable.not_mem {u : CodeUnit} (printable : t.Printable) (control : u < 0x20) : u ∉ t :=
  fun member => UInt16.not_le.mpr control (printable u member)

theorem Printable.oneLine (printable : t.Printable) : t.OneLine :=
  ⟨printable.not_mem (by decide), printable.not_mem (by decide)⟩

theorem printable_join {separator : Text} {ts : List Text} (between : separator.Printable)
    (each : ∀ t ∈ ts, t.Printable) : (join separator ts).Printable := by
  fun_induction join separator ts with
  | case1 => exact printable_nil
  | case2 t => exact each t (by simp)
  | case3 t rest _ ih =>
    simp only [List.mem_cons, forall_eq_or_imp] at each
    simp [each.1, between, ih each.2]

theorem printable_digits (digits : ∀ u ∈ t, isDigit u = true) : t.Printable := by
  intro u member
  have low := (isDigit_iff.mp (digits u member)).1
  rw [UInt16.le_iff_toNat_le]
  exact Nat.le_trans (by decide) low

@[simp] theorem printable_ofNat (n : Nat) : (ofNat n).Printable :=
  printable_digits (ofNat_decimal n)

end Text

theorem Numeral.printable (n : Numeral) : n.text.Printable := by
  have marks : Text.Printable ".eE+-" := by decide
  intro u member
  rcases n.units member with digit | mark
  · exact Text.printable_digits (t := [u]) (by simpa using digit) u List.mem_cons_self
  · exact marks u mark

namespace Binary64

@[simp] theorem printable_toText (x : Binary64) : x.toText.Printable := by
  cases x with
  | nan => decide
  | infinite negative => cases negative <;> decide
  | finite negative m fits =>
    obtain ⟨n, text, _⟩ := toText_finite negative fits
    rw [text, Text.printable_append]
    refine ⟨?_, n.printable⟩
    split <;> decide

@[simp] theorem printable_toHundredths (x : Binary64) : x.toHundredths.Printable := by
  cases x with
  | nan => decide
  | infinite negative => cases negative <;> decide
  | finite negative m fits =>
    have point : Text.Printable "." := by decide
    simp only [toHundredths, Text.printable_append, Text.printable_ofNat, point, and_true]
    constructor <;> split <;> decide

theorem printable_display {x : Binary64} {places : Option Int} {t : Text}
    (shown : x.display places = .ok t) : t.Printable := by
  cases places with
  | none =>
    obtain rfl := Except.ok.inj shown
    exact printable_toText x
  | some p =>
    rw [display] at shown
    cases rounded : roundSignificant p x with
    | error e => simp [rounded, Except.map] at shown
    | ok y =>
      rw [rounded] at shown
      obtain rfl := Except.ok.inj shown
      exact printable_toText y

end Binary64

end Calculator
