import Calculator.Settings.Layers

/-!
Records of raw values. What a record comes to can be said of each setting by itself: the last value under
its name that is accepted, and only values that the setting may have are.
-/
namespace Calculator

inductive Setting where
  | format
  | color
  | precision
  | angles
  | memory
  | timeout
  | concurrent
  deriving DecidableEq

namespace Setting

def name : Setting → Text
  | format => "format"
  | color => "color"
  | precision => "precision"
  | angles => "angles"
  | memory => "memory"
  | timeout => "timeout"
  | concurrent => "concurrent"

theorem name_injective {s s' : Setting} (same : s.name = s'.name) : s = s' := by
  cases s <;> cases s' <;> first | rfl | exact absurd same (by decide)

end Setting

/-- The value that a layer has for a setting, as it could be written. -/
def PartialSettings.value? (layer : PartialSettings) : Setting → Option RawValue
  | .format => layer.format.map fun f => .text f.name
  | .color => layer.color.map fun c => .text c.name
  | .precision => layer.precision.map .number
  | .angles => layer.angles.map fun a => .text a.name
  | .memory => layer.memory.map .number
  | .timeout => layer.timeout.map .number
  | .concurrent => layer.concurrent.map .bool

/-- Settings in force, as a layer. -/
def Settings.layer (settings : Settings) : PartialSettings :=
  { format := some settings.format
    color := some settings.color
    precision := settings.precision
    angles := some settings.angles
    memory := some settings.memory
    timeout := settings.timeout
    concurrent := some settings.concurrent }

theorem Settings.value?_overlay (below : Settings) (layer : PartialSettings) (s : Setting) :
    (below.overlay layer).layer.value? s = (layer.value? s).or (below.layer.value? s) := by
  obtain ⟨format, color, precision, angles, memory, timeout, concurrent⟩ := layer
  cases s with
  | format => cases format <;> rfl
  | color => cases color <;> rfl
  | precision => cases precision <;> rfl
  | angles => cases angles <;> rfl
  | memory => cases memory <;> rfl
  | timeout => cases timeout <;> rfl
  | concurrent => cases concurrent <;> rfl

namespace Setting

/-- What a raw value gives a setting, if it is accepted. -/
def accept? (s : Setting) (value : RawValue) : Option RawValue :=
  (PartialSettings.apply {} s.name value).toOption.bind fun layer => layer.value? s

/-- The change that an accepted value makes to a layer. -/
def change? (s : Setting) (value : RawValue) : Option (PartialSettings → PartialSettings) :=
  match s with
  | format => (value.oneOf Format.name Format.all).map fun f layer => { layer with format := some f }
  | color => (value.oneOf ColorMode.name ColorMode.all).map fun c layer => { layer with color := some c }
  | precision => value.toPlaces.map fun x layer => { layer with precision := some x }
  | angles => (value.oneOf AngleUnit.name AngleUnit.all).map fun a layer => { layer with angles := some a }
  | memory => value.toNumber.map fun x layer => { layer with memory := some x }
  | timeout => value.toNatural.map fun x layer => { layer with timeout := some x }
  | concurrent => value.toBool.map fun b layer => { layer with concurrent := some b }

def problem : Setting → SettingProblem
  | format => .format
  | color => .color
  | precision => .precision
  | angles => .angles
  | memory => .memory
  | timeout => .timeout
  | concurrent => .concurrent

theorem apply_name (s : Setting) (target : PartialSettings) (value : RawValue) :
    target.apply s.name value =
      (s.change? value).elim (.error s.problem) fun change => .ok (change target) := by
  cases s <;> simp +decide only [PartialSettings.apply, name, change?, if_true, if_false]
  -- what is left of each is its own check, which accepts the value or does not
  all_goals
    split
    next read => rw [read]; rfl
    next read => rw [read]; rfl

theorem apply_other {key : Text} (other : ∀ s : Setting, key ≠ s.name) (target : PartialSettings)
    (value : RawValue) : target.apply key value = .error (.unknown key) := by
  have differs : key ≠ "format" ∧ key ≠ "color" ∧ key ≠ "angles" ∧ key ≠ "precision" ∧
      key ≠ "timeout" ∧ key ≠ "memory" ∧ key ≠ "concurrent" :=
    ⟨other format, other color, other angles, other precision, other timeout, other memory, other concurrent⟩
  simp only [PartialSettings.apply, differs, if_false]

section Changes

variable {s : Setting} {value : RawValue} {change : PartialSettings → PartialSettings}

theorem value?_change (accepted : s.change? value = some change) (target : PartialSettings) (s' : Setting) :
    (change target).value? s' = if s = s' then (change {}).value? s else target.value? s' := by
  cases s <;>
    obtain ⟨x, _, rfl⟩ := Option.map_eq_some_iff.mp accepted <;>
      cases s' <;> rfl

theorem accept?_eq (s : Setting) (value : RawValue) :
    s.accept? value = (s.change? value).bind fun change => (change {}).value? s := by
  rw [accept?, apply_name]
  cases s.change? value <;> rfl

theorem change_isSome (accepted : s.change? value = some change) : ((change {}).value? s).isSome := by
  cases s <;>
    obtain ⟨x, _, rfl⟩ := Option.map_eq_some_iff.mp accepted <;> rfl

end Changes

end Setting

/-- A layer with one more entry of a record. -/
def PartialSettings.store (target : PartialSettings) (entry : Text × RawValue) : PartialSettings :=
  (target.apply entry.1 entry.2).toOption.getD target

/-- An entry touches the setting of its name alone, and that only if the value is accepted. -/
theorem PartialSettings.value?_store (target : PartialSettings) (key : Text) (value : RawValue)
    (s : Setting) :
    (target.store (key, value)).value? s =
      (if key = s.name then s.accept? value else none).or (target.value? s) := by
  unfold store
  by_cases known : ∃ s' : Setting, key = s'.name
  · obtain ⟨s', rfl⟩ := known
    have same : s'.name = s.name ↔ s' = s := ⟨Setting.name_injective, congrArg Setting.name⟩
    simp only [same, Setting.apply_name]
    cases accepted : s'.change? value with
    | none =>
      by_cases here : s' = s
      · subst here
        simp [Setting.accept?_eq, accepted, Except.toOption]
      · simp [here, Except.toOption]
    | some change =>
      have changed := Setting.value?_change accepted target s
      have present := Setting.change_isSome accepted
      by_cases here : s' = s
      · subst here
        simp [Setting.accept?_eq, accepted, Except.toOption, changed, Option.or_of_isSome present]
      · simp [here, Except.toOption, changed]
  · have other : ∀ s' : Setting, key ≠ s'.name := not_exists.mp known
    rw [Setting.apply_other other, if_neg (other s)]
    rfl

/-- The value that a record has for a setting: of those under its name that are accepted the last. -/
def Setting.given (s : Setting) : List (Text × RawValue) → Option RawValue
  | [] => none
  | (key, value) :: later => (s.given later).or (if key = s.name then s.accept? value else none)

theorem PartialSettings.value?_empty (s : Setting) : value? {} s = none := by
  cases s <;> rfl

theorem PartialSettings.ofRecord_eq (record : List (Text × RawValue)) :
    ofRecord record = record.foldl store {} := rfl

theorem PartialSettings.value?_ofRecord (record : List (Text × RawValue)) (s : Setting) :
    (ofRecord record).value? s = s.given record := by
  have run : ∀ target, (record.foldl store target).value? s = (s.given record).or (target.value? s) := by
    induction record with
    | nil => exact fun target => rfl
    | cons entry later ih =>
      intro target
      rw [List.foldl_cons, ih, value?_store, Setting.given, Option.or_assoc]
  rw [ofRecord_eq, run, value?_empty, Option.or_none]

theorem lookup_pair {α : Type} (key key' : Text) (a : α) (later : List (Text × α)) :
    ((key, a) :: later).lookup key' = if key = key' then some a else later.lookup key' := by
  rw [List.lookup_cons]
  by_cases here : key = key'
  · simp [here]
  · have other : (key' == key) = false := by simpa using Ne.symm here
    simp [here, other]

/-- Where the names of a record are distinct, a setting has at most one value in it. -/
theorem Setting.given_of_nodup {record : List (Text × RawValue)} (distinct : (record.map Prod.fst).Nodup)
    (s : Setting) : s.given record = (record.lookup s.name).bind s.accept? := by
  induction record with
  | nil => rfl
  | cons pair later ih =>
    obtain ⟨key, value⟩ := pair
    simp only [List.map_cons, List.nodup_cons] at distinct
    obtain ⟨absent, distinct⟩ := distinct
    rw [given, ih distinct, lookup_pair]
    by_cases here : key = s.name
    · subst here
      have once : later.lookup s.name = none := by
        rw [List.lookup_eq_none_iff]
        intro pair member
        have other : s.name ≠ pair.1 := fun same => absent (same ▸ List.mem_map_of_mem member)
        simpa using other
      simp [once]
    · simp [here]

namespace Setting

/-- The values that a setting may have. -/
def Admits : Setting → RawValue → Prop
  | format, .text t => t ∈ (["pretty", "plain", "json", "compact"] : List Text)
  | color, .text t => t ∈ (["auto", "always", "never"] : List Text)
  | precision, .number x => x.isInteger ∧ Binary64.lessOrEqual 1 x ∧ Binary64.lessOrEqual x 100
  | angles, .text t => t ∈ (["degrees", "radians"] : List Text)
  | memory, .number x => x.isFinite
  | timeout, .number x => x.isInteger ∧ Binary64.lessOrEqual 0 x
  | concurrent, .bool _ => True
  | _, _ => False

theorem admits_format (f : Format) : Admits format (.text f.name) := by
  cases f <;> simp [Admits, Format.name]

theorem admits_color (c : ColorMode) : Admits color (.text c.name) := by
  cases c <;> simp [Admits, ColorMode.name]

theorem admits_angles (a : AngleUnit) : Admits angles (.text a.name) := by
  cases a <;> simp [Admits, AngleUnit.name]

theorem toNumber_finite {value : RawValue} {x : Binary64} (read : value.toNumber = some x) :
    x.isFinite = true := by
  cases value with
  | text t =>
    simp only [RawValue.toNumber, Option.ite_none_right_eq_some] at read
    obtain ⟨⟨_, finite⟩, same⟩ := read
    cases same
    exact finite
  | number y =>
    simp only [RawValue.toNumber, Option.ite_none_right_eq_some] at read
    obtain ⟨finite, same⟩ := read
    cases same
    exact finite
  | bool b => cases read
  | other => cases read

theorem toNatural_natural {value : RawValue} {x : Binary64} (read : value.toNatural = some x) :
    x.isInteger = true ∧ Binary64.lessOrEqual 0 x = true := by
  have checked := (Option.filter_eq_some_iff.mp read).2
  simpa only [Bool.and_eq_true] using checked

theorem toPlaces_places {value : RawValue} {x : Binary64} (read : value.toPlaces = some x) :
    x.isInteger = true ∧ Binary64.lessOrEqual 1 x = true ∧ Binary64.lessOrEqual x 100 = true := by
  obtain ⟨natural, checked⟩ := Option.filter_eq_some_iff.mp read
  rw [Bool.and_eq_true] at checked
  exact ⟨(toNatural_natural natural).1, checked⟩

theorem accept_admits {s : Setting} {value v : RawValue} (accepted : s.accept? value = some v) :
    s.Admits v := by
  rw [accept?_eq, Option.bind_eq_some_iff] at accepted
  obtain ⟨change, changed, present⟩ := accepted
  cases s <;>
    obtain ⟨x, read, rfl⟩ := Option.map_eq_some_iff.mp changed <;>
      cases present
  case format => exact admits_format x
  case color => exact admits_color x
  case precision => exact toPlaces_places read
  case angles => exact admits_angles x
  case memory => exact toNumber_finite read
  case timeout => exact toNatural_natural read
  case concurrent => trivial

theorem given_admits {s : Setting} {record : List (Text × RawValue)} {v : RawValue}
    (held : s.given record = some v) : s.Admits v := by
  induction record with
  | nil => cases held
  | cons pair later ih =>
    rcases Option.or_eq_some_iff.mp held with behind | ⟨_, here⟩
    · exact ih behind
    · exact accept_admits (Option.ite_none_right_eq_some.mp here).2

end Setting

end Calculator
