import Calculator.Proofs.Number.Layout
import Calculator.Proofs.Settings.Records
import Calculator.Proofs.Text.Blanks

/-!
Layers that stay valid whatever is applied to them: a value that is not accepted changes nothing, and one
that is changes the setting of its name. A number may be given as the text of it.
-/
namespace Calculator

/-- Every setting that the layer has is one that it may have. -/
def PartialSettings.Valid (layer : PartialSettings) : Prop :=
  ∀ s v, layer.value? s = some v → s.Admits v

/-- The problem with a value under a name, whatever layer it is applied to. -/
def RawValue.problem? (key : Text) (value : RawValue) : Option SettingProblem :=
  match PartialSettings.apply {} key value with
  | .ok _ => none
  | .error problem => some problem

namespace PartialSettings

variable {target : PartialSettings} {key : Text} {value : RawValue}

theorem apply_eq (target : PartialSettings) (key : Text) (value : RawValue) :
    target.apply key value = (value.problem? key).elim (.ok (target.store (key, value))) .error := by
  unfold RawValue.problem? store
  by_cases known : ∃ s : Setting, key = s.name
  · obtain ⟨s, rfl⟩ := known
    rw [s.apply_name target, s.apply_name {}]
    cases s.change? value <;> rfl
  · have other : ∀ s : Setting, key ≠ s.name := not_exists.mp known
    rw [Setting.apply_other other target, Setting.apply_other other {}]
    rfl

theorem problem?_name (s : Setting) (value : RawValue) :
    value.problem? s.name = if (s.accept? value).isSome then none else some s.problem := by
  unfold RawValue.problem?
  rw [s.apply_name {}, s.accept?_eq]
  cases changed : s.change? value with
  | none => rfl
  | some change => simp [Setting.change_isSome changed]

theorem problem?_eq_none_iff :
    value.problem? key = none ↔ ∃ (s : Setting) (v : RawValue), key = s.name ∧ s.accept? value = some v := by
  constructor
  · intro fine
    by_cases known : ∃ s : Setting, key = s.name
    · obtain ⟨s, rfl⟩ := known
      have accepted : ¬ s.accept? value = none := by simpa [problem?_name] using fine
      obtain ⟨v, given⟩ := Option.ne_none_iff_exists'.mp accepted
      exact ⟨s, v, rfl, given⟩
    · unfold RawValue.problem? at fine
      rw [Setting.apply_other (not_exists.mp known)] at fine
      cases fine
  · rintro ⟨s, v, rfl, accepted⟩
    simp [problem?_name, accepted]

theorem store_of_error {problem : SettingProblem} (refused : target.apply key value = .error problem) :
    target.store (key, value) = target := by
  unfold store
  rw [refused]
  rfl

/-- An accepted value is that of the setting from then on; the others are as before. -/
theorem apply_ok {target' : PartialSettings} (applied : target.apply key value = .ok target') :
    ∃ (s : Setting) (v : RawValue), key = s.name ∧ s.accept? value = some v ∧
      target.store (key, value) = target' ∧ target'.value? s = some v ∧
      ∀ s', s' ≠ s → target'.value? s' = target.value? s' := by
  rw [apply_eq] at applied
  cases fine : value.problem? key with
  | some problem => simp [fine] at applied
  | none =>
    obtain ⟨s, v, rfl, accepted⟩ := problem?_eq_none_iff.mp fine
    obtain rfl : target.store (s.name, value) = target' := by simpa [fine] using applied
    refine ⟨s, v, rfl, accepted, rfl, ?_, ?_⟩
    · rw [value?_store, if_pos rfl, accepted]
      rfl
    · intro s' other
      rw [value?_store, if_neg fun same => other (Setting.name_injective same).symm]
      rfl

theorem value?_apply {s : Setting} {target' : PartialSettings}
    (applied : target.apply s.name value = .ok target') : target'.value? s = s.accept? value := by
  obtain ⟨s', v, same, accepted, -, held, -⟩ := apply_ok applied
  obtain rfl := Setting.name_injective same
  exact held.trans accepted.symm

theorem exists_apply_iff {s : Setting} :
    (∃ target', target.apply s.name value = .ok target') ↔ (s.accept? value).isSome = true := by
  rw [apply_eq, problem?_name]
  split <;> simp [*]

theorem apply_unaccepted {s : Setting} (unaccepted : s.accept? value = none) :
    target.apply s.name value = .error s.problem := by
  rw [apply_eq, problem?_name, unaccepted]
  rfl

theorem Valid.store (valid : target.Valid) (call : Text × RawValue) : (target.store call).Valid := by
  intro s v held
  rw [value?_store] at held
  rcases Option.or_eq_some_iff.mp held with here | ⟨_, before⟩
  · exact Setting.accept_admits (Option.ite_none_right_eq_some.mp here).2
  · exact valid s v before

theorem Valid.run (valid : target.Valid) (calls : List (Text × RawValue)) :
    (calls.foldl PartialSettings.store target).Valid := by
  induction calls generalizing target with
  | nil => exact valid
  | cons call later ih => exact ih (valid.store call)

end PartialSettings

/-- A number is not written with white space alone. -/
theorem Binary64.toText_visible {x : Binary64} (finite : x.isFinite = true) : x.toText.trim ≠ [] := by
  cases x with
  | nan => cases finite
  | infinite s => cases finite
  | finite s m fits =>
    obtain ⟨n, text, -⟩ := toText_finite s fits
    obtain ⟨u, rest, begins, -⟩ := n.begins
    have visible : ∀ u ∈ (Binary64.finite s m fits).toText, Text.isBlank u = false := by
      rw [text]
      intro u member
      rcases List.mem_append.mp member with sign | digit
      · split at sign
        · obtain rfl : u = 0x2D := by simpa [Text.ofString, Text.ofChar] using sign
          rfl
        · cases sign
      · exact n.visible u digit
    rw [Text.trim_eq_self visible, text, begins]
    simp

namespace RawValue

open Binary64

theorem toNumber_text {t : Text} {x : Binary64} (read : toNumber (.text t) = some x) : x = ofText t := by
  simp only [toNumber, Option.ite_none_right_eq_some, Option.some.injEq] at read
  exact read.2.symm

/-- The text of a number is read as it; both zeros are written alike. -/
theorem toNumber_toText {x : Binary64} (finite : x.isFinite = true) :
    toNumber (.text x.toText) = some (if x.isZero then zero else x) := by
  have read := ofText_toText finite
  have inside : (ofText x.toText).isFinite = true := by
    rw [read]
    split
    · decide +kernel
    · exact finite
  rw [toNumber, if_pos ⟨toText_visible finite, inside⟩, read]

end RawValue

namespace Setting

open Binary64

/-- The settings that are numbers. -/
def numeric : List Setting := [precision, timeout, memory]

/-- What a number has to be for such a setting, besides finite. -/
def allows : Setting → Binary64 → Bool
  | precision, x => (x.isInteger && lessOrEqual 0 x) && (lessOrEqual 1 x && lessOrEqual x 100)
  | timeout, x => x.isInteger && lessOrEqual 0 x
  | _, _ => true

theorem accept?_numeric {s : Setting} (number : s ∈ numeric) (value : RawValue) :
    s.accept? value = (value.toNumber.filter s.allows).map .number := by
  rw [accept?_eq]
  simp only [numeric, List.mem_cons, List.not_mem_nil, or_false] at number
  rcases number with rfl | rfl | rfl
  · have places : value.toPlaces = value.toNumber.filter precision.allows := by
      rw [RawValue.toPlaces, RawValue.toNatural, Option.filter_filter]
      rfl
    rw [← places, change?]
    cases value.toPlaces <;> rfl
  · have natural : value.toNatural = value.toNumber.filter timeout.allows := rfl
    rw [← natural, change?]
    cases value.toNatural <;> rfl
  · have all : value.toNumber.filter memory.allows = value.toNumber := by
      cases value.toNumber <;> rfl
    rw [all, change?]
    cases value.toNumber <;> rfl

/-- What a setting may be does not depend on the sign of zero. -/
theorem allows_unsigned (s : Setting) (x : Binary64) :
    s.allows (if x.isZero then zero else x) = s.allows x := by
  by_cases none : x.isZero = true
  · rw [if_pos none]
    cases x with
    | nan => cases none
    | infinite negative => cases none
    | finite negative m fits =>
      obtain rfl : m = 0 := by simpa [isZero] using none
      have signs : ∀ negative, s.allows zero = s.allows (.finite negative 0 representable_zero) := by
        intro negative
        cases negative <;> cases s <;> decide +kernel
      exact signs negative
  · rw [if_neg none]

theorem accept?_number {s : Setting} (number : s ∈ numeric) {x : Binary64} (finite : x.isFinite = true) :
    s.accept? (.number x) = if s.allows x then some (.number x) else none := by
  rw [accept?_numeric number, RawValue.toNumber, if_pos finite, Option.filter_some]
  split <;> rfl

theorem accept?_toText {s : Setting} (number : s ∈ numeric) {x : Binary64} (finite : x.isFinite = true) :
    s.accept? (.text x.toText) =
      if s.allows x then some (.number (if x.isZero then zero else x)) else none := by
  rw [accept?_numeric number, RawValue.toNumber_toText finite, Option.filter_some, allows_unsigned]
  split <;> rfl

theorem accept?_text {s : Setting} (number : s ∈ numeric) {t : Text} {v : RawValue}
    (accepted : s.accept? (.text t) = some v) : v = .number (ofText t) := by
  rw [accept?_numeric number, Option.map_eq_some_iff] at accepted
  obtain ⟨x, read, rfl⟩ := accepted
  rw [RawValue.toNumber_text (Option.filter_eq_some_iff.mp read).1]

theorem accept?_unreadable {s : Setting} (number : s ∈ numeric) {t : Text}
    (unreadable : t.trim = [] ∨ (ofText t).isFinite = false) : s.accept? (.text t) = none := by
  have nothing : ¬ (t.trim ≠ [] ∧ (ofText t).isFinite = true) := by
    rintro ⟨visible, finite⟩
    rcases unreadable with blank | off
    · exact visible blank
    · exact Bool.false_ne_true (off.symm.trans finite)
  rw [accept?_numeric number, RawValue.toNumber, if_neg nothing]
  rfl

end Setting

namespace PartialSettings

variable (target : PartialSettings) {s : Setting}

theorem apply_number_or_text (number : s ∈ Setting.numeric) {x : Binary64} (finite : x.isFinite = true) :
    ((∃ target', target.apply s.name (.text x.toText) = .ok target') ↔
        ∃ target', target.apply s.name (.number x) = .ok target') ∧
      (∀ target', target.apply s.name (.number x) = .ok target' → target'.value? s = some (.number x)) ∧
      ∀ target', target.apply s.name (.text x.toText) = .ok target' →
        target'.value? s = some (.number (if x.isZero then .zero else x)) := by
  have asNumber := Setting.accept?_number number finite
  have asText := Setting.accept?_toText number finite
  have holds : ∀ {value v}, s.accept? value = (if s.allows x then some v else none) →
      ∀ target', target.apply s.name value = .ok target' → target'.value? s = some v := by
    intro value v accepts target' applied
    have present := exists_apply_iff.mp ⟨target', applied⟩
    rw [value?_apply applied]
    rw [accepts] at present ⊢
    split at present
    · rename_i allowed
      exact if_pos allowed
    · cases present
  refine ⟨?_, holds asNumber, holds asText⟩
  rw [exists_apply_iff, exists_apply_iff, asNumber, asText]
  split <;> rfl

theorem apply_text (number : s ∈ Setting.numeric) (t : Text) :
    (∀ target', target.apply s.name (.text t) = .ok target' →
        target'.value? s = some (.number (.ofText t))) ∧
      ((∀ u ∈ t, Text.isBlank u = true) ∨ (Binary64.ofText t).isFinite = false →
        ∃ problem, target.apply s.name (.text t) = .error problem) := by
  constructor
  · intro target' applied
    obtain ⟨v, accepted⟩ := Option.isSome_iff_exists.mp (exists_apply_iff.mp ⟨target', applied⟩)
    rw [value?_apply applied, accepted, Setting.accept?_text number accepted]
  · intro unreadable
    have blank := unreadable.imp_left Text.trim_blank
    exact ⟨s.problem, apply_unaccepted (Setting.accept?_unreadable number blank)⟩

/-- A setting that is applied is there, valid, and alone in having changed; a problem changes nothing. So
layers stay valid in any run. A number may be given as its text, and of a text the number that it denotes
is kept, unless there is none. -/
theorem apply_keeps_valid :
    (∀ (target : PartialSettings) (key : Text) (value : RawValue),
      (∀ problem, target.apply key value = .error problem → target.store (key, value) = target) ∧
      ∀ target', target.apply key value = .ok target' → target.store (key, value) = target' ∧
        ∃ (s : Setting) (v : RawValue), key = s.name ∧ s.Admits v ∧ target'.value? s = some v ∧
          ∀ s', s' ≠ s → target'.value? s' = target.value? s') ∧
    (∀ target : PartialSettings, target.Valid →
      ∀ calls : List (Text × RawValue), (calls.foldl PartialSettings.store target).Valid) ∧
    ∀ s ∈ Setting.numeric, ∀ target : PartialSettings,
      (∀ x : Binary64, x.isFinite = true →
        ((∃ target', target.apply s.name (.text x.toText) = .ok target') ↔
            ∃ target', target.apply s.name (.number x) = .ok target') ∧
          (∀ target', target.apply s.name (.number x) = .ok target' → target'.value? s = some (.number x)) ∧
          ∀ target', target.apply s.name (.text x.toText) = .ok target' →
            target'.value? s = some (.number (if x.isZero then .zero else x))) ∧
      ∀ t : Text,
        (∀ target', target.apply s.name (.text t) = .ok target' →
            target'.value? s = some (.number (.ofText t))) ∧
          ((∀ u ∈ t, Text.isBlank u = true) ∨ (Binary64.ofText t).isFinite = false →
            ∃ problem, target.apply s.name (.text t) = .error problem) := by
  refine ⟨?_, ?_, ?_⟩
  · intro target key value
    refine ⟨fun problem refused => store_of_error refused, ?_⟩
    intro target' applied
    obtain ⟨s, v, named, accepted, stored, held, kept⟩ := apply_ok applied
    exact ⟨stored, s, v, named, Setting.accept_admits accepted, held, kept⟩
  · intro target valid calls
    exact valid.run calls
  · intro s number target
    exact ⟨fun x finite => target.apply_number_or_text number finite, target.apply_text number⟩

/-- A format stays while other settings come and go, one of them from a numeral in another base. -/
theorem format_kept_valid :
    let target : PartialSettings := { format := some .json }
    let changed : PartialSettings := { target with timeout := some 16 }
    let calls : List (Text × RawValue) := [("precision", .number 12), ("format", .text "xml")]
    target.Valid ∧ (calls.foldl store target).Valid ∧
      target.apply "format" (.text "xml") = .error .format ∧ target.store ("format", .text "xml") = target ∧
      target.apply "timeout" (.text "0x10") = .ok changed ∧
      changed.value? .timeout = some (.number (.ofText "0x10")) ∧
      changed.value? .format = target.value? .format ∧
      (∃ target', target.apply "memory" (.text Binary64.negativeZero.toText) = .ok target') ∧
      ∃ problem, target.apply "precision" (.text "\t ") = .error problem := by
  intro target changed calls
  have valid : target.Valid := by
    intro s v held
    cases s <;> cases held
    exact Setting.admits_format .json
  have wrong : target.apply "format" (.text "xml") = .error .format := by decide +kernel
  have applied : target.apply "timeout" (.text "0x10") = .ok changed := by decide +kernel
  have finite : Binary64.negativeZero.isFinite = true := by decide +kernel
  have accepted : ∃ target', target.apply "memory" (.number .negativeZero) = .ok target' :=
    ⟨{ target with memory := some .negativeZero }, by decide +kernel⟩
  have blank : List.all ("\t " : Text) Text.isBlank = true := by decide +kernel
  obtain ⟨steps, runs, numbers⟩ := apply_keeps_valid
  obtain ⟨asText, -, -⟩ := (numbers .memory (by decide) target).1 .negativeZero finite
  obtain ⟨-, s, v, named, -, -, others⟩ := (steps target _ _).2 changed applied
  obtain rfl : s = .timeout := (Setting.name_injective (s := .timeout) named).symm
  exact ⟨valid, runs target valid _, wrong, (steps target _ _).1 _ wrong, applied,
    ((numbers .timeout (by decide) target).2 _).1 changed applied, others .format (by decide),
    asText.mpr accepted, ((numbers .precision (by decide) target).2 _).2 (.inl (List.all_eq_true.mp blank))⟩

end PartialSettings

end Calculator
