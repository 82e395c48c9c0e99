import Calculator.Proofs.Session.PromptRuns
import Calculator.Proofs.Settings.Records
import Calculator.Settings.Configuration

/-!
Settings in force. A document, a profile in it and the overrides are all records of raw values, and for
each setting the first of these layers that has a value decides.
-/
namespace Calculator

open Yaml (Node Scalar)

namespace Binary64

theorem lessOrEqual_iff {x y : Binary64} :
    lessOrEqual x y = true ↔ ∃ a b, x.position? = some a ∧ y.position? = some b ∧ a ≤ b := by
  unfold lessOrEqual less equal
  cases x.position? with
  | none => simp
  | some a =>
    cases y.position? with
    | none => simp
    | some b => simp [Int.le_iff_lt_or_eq]

theorem toInt_of_places {x : Binary64} (whole : x.isInteger = true) (low : lessOrEqual 1 x = true)
    (high : lessOrEqual x 100 = true) : 1 ≤ x.toInt ∧ x.toInt ≤ 100 := by
  have first : (1 : Binary64).position? = some (one : Int) := by decide +kernel
  have last : (100 : Binary64).position? = some (100 * one : Int) := by decide +kernel
  have unit : 0 < one := by decide +kernel
  obtain ⟨a, b, from1, place, above⟩ := lessOrEqual_iff.mp low
  obtain ⟨b', c, place', to100, below⟩ := lessOrEqual_iff.mp high
  cases x with
  | nan => cases whole
  | infinite s => cases whole
  | finite s m fits =>
    obtain rfl : (one : Int) = a := Option.some.inj (first.symm.trans from1)
    obtain rfl : (100 * one : Int) = c := Option.some.inj (last.symm.trans to100)
    obtain rfl : b = b' := Option.some.inj (place.symm.trans place')
    cases s with
    | true =>
      obtain rfl : -(m : Int) = b := Option.some.inj place
      omega
    | false =>
      obtain rfl : (m : Int) = b := Option.some.inj place
      have least : 1 ≤ m / one := (Nat.le_div_iff_mul_le unit).mpr (by omega)
      have most : m / one ≤ 100 := Nat.div_le_of_le_mul (by omega)
      show 1 ≤ ((m / one : Nat) : Int) ∧ ((m / one : Nat) : Int) ≤ 100
      omega

end Binary64

namespace Configuration

/-- The pairs of a mapping whose keys are scalars, as a record of raw values. -/
def record (pairs : List (Node × Option Node)) : List (Text × RawValue) :=
  pairs.filterMap fun (key, value) => key.scalar?.map fun k => (k.keyText, rawValue value)

/-- The pairs of the mapping that stands under a name; of several the last. -/
def mappingUnder (name : Text) : List (Node × Option Node) → Option (List (Node × Option Node))
  | [] => none
  | (key, value) :: later => (mappingUnder name later).or
      (if key.scalar?.map Scalar.keyText = some name then value.bind Node.pairs? else none)

/-- The pairs at the root of a document. A malformed one has none. -/
def rootPairs (document : Yaml.Document) : List (Node × Option Node) :=
  if document.mistakes = [] then (document.root.bind Node.pairs?).getD [] else []

/-- The pairs of the profile of a name, if a document defines it. A set at the root defines none. -/
def profile? (document : Yaml.Document) (name : Text) : Option (List (Node × Option Node)) :=
  match document.mistakes, document.root with
  | [], some (.map _ pairs) =>
    (((profilesPair? pairs).bind Prod.snd).bind Node.pairs?).bind (mappingUnder name)
  | _, _ => none

variable (source : Source)

theorem readSetting_settings (path : List Text) (progress : PartialSettings × List Diagnostic)
    (pair : Node × Option Node) :
    (readSetting source path progress pair).1 =
      (pair.1.scalar?.map fun k => progress.1.store (k.keyText, rawValue pair.2)).getD progress.1 := by
  obtain ⟨target, problems⟩ := progress
  obtain ⟨key, value⟩ := pair
  cases key with
  | scalar extent k isBare =>
    simp only [readSetting, Node.scalar?, Option.map_some, Option.getD_some, PartialSettings.store]
    split
    · -- no setting has the name of the profiles, so there the record changes nothing either
      rename_i skipped
      have other : ∀ s : Setting, k.keyText ≠ s.name := by
        rw [skipped.2]
        intro s
        cases s <;> decide
      rw [Setting.apply_other other]
      rfl
    · split
      next read => rw [read]; rfl
      next read => rw [read]; rfl
  | reference extent => rfl
  | map extent pairs => rfl
  | set extent pairs => rfl
  | sequence extent elements => rfl

theorem readSettings_settings (path : List Text) (pairs : List (Node × Option Node)) :
    (readSettings source path pairs).1 = .ofRecord (record pairs) := by
  have run : ∀ progress, (pairs.foldl (readSetting source path) progress).1 =
      (record pairs).foldl PartialSettings.store progress.1 := by
    induction pairs with
    | nil => exact fun progress => rfl
    | cons pair later ih =>
      intro progress
      rw [List.foldl_cons, ih, readSetting_settings]
      cases key : pair.1.scalar? with
      | none => simp [record, key]
      | some k => simp [record, key]
  exact run _

theorem lookup_setProfile (name name' : Text) (settings : PartialSettings)
    (profiles : List (Text × PartialSettings)) :
    (setProfile name settings profiles).lookup name' =
      if name = name' then some settings else profiles.lookup name' := by
  induction profiles with
  | nil => rw [setProfile, lookup_pair]
  | cons profile rest ih =>
    obtain ⟨n, held⟩ := profile
    rw [setProfile]
    by_cases here : n = name
    · subst here
      rw [if_pos rfl, lookup_pair, lookup_pair]
      by_cases same : n = name' <;> simp [same]
    · rw [if_neg here, lookup_pair, lookup_pair, ih]
      by_cases found : n = name'
      · have other : name ≠ name' := fun same => here (found.trans same.symm)
        simp [found, other]
      · simp [found]

theorem readProfile_lookup (name : Text) (progress : List (Text × PartialSettings) × List Diagnostic)
    (pair : Node × Option Node) :
    (readProfile source progress pair).1.lookup name =
      ((if pair.1.scalar?.map Scalar.keyText = some name then pair.2.bind Node.pairs? else none).map
        fun pairs => PartialSettings.ofRecord (record pairs)).or (progress.1.lookup name) := by
  obtain ⟨profiles, problems⟩ := progress
  obtain ⟨key, value⟩ := pair
  cases key with
  | scalar extent k isBare =>
    cases value with
    | none => simp [readProfile]
    | some node =>
      simp only [readProfile, Node.scalar?, Option.map_some, Option.bind_some, Option.some.injEq]
      cases mapping : node.pairs? with
      | none => simp
      | some pairs =>
        rw [lookup_setProfile, readSettings_settings]
        by_cases same : k.keyText = name <;> simp [same]
  | reference extent => rfl
  | map extent pairs => rfl
  | set extent pairs => rfl
  | sequence extent elements => rfl

theorem readProfiles_lookup (name : Text) (node : Option Node) :
    (readProfiles source node).1.lookup name =
      ((node.bind Node.pairs?).bind (mappingUnder name)).map fun pairs => .ofRecord (record pairs) := by
  have run : ∀ (pairs : List (Node × Option Node)) (progress : List (Text × PartialSettings) × List Diagnostic),
      (pairs.foldl (readProfile source) progress).1.lookup name =
        ((mappingUnder name pairs).map fun pairs => PartialSettings.ofRecord (record pairs)).or
          (progress.1.lookup name) := by
    intro pairs
    induction pairs with
    | nil => exact fun progress => rfl
    | cons pair later ih =>
      intro progress
      rw [List.foldl_cons, ih, readProfile_lookup, mappingUnder, Option.map_or, Option.or_assoc]
  cases node with
  | none => rfl
  | some node =>
    cases node with
    | map extent pairs => exact (run pairs ([], [])).trans (Option.or_none ..)
    | set extent pairs => exact (run pairs ([], [])).trans (Option.or_none ..)
    | scalar extent value isBare => rfl
    | reference extent => rfl
    | sequence extent elements => rfl

theorem ofDocument_settings (document : Yaml.Document) :
    (ofDocument source document).settings = .ofRecord (record (rootPairs document)) := by
  unfold ofDocument rootPairs
  split
  · cases root : document.root with
    | none => rfl
    | some node =>
      cases mapping : node.pairs? with
      | none => simp [ofRoot, mapping, record, PartialSettings.ofRecord]
      | some pairs => simp [ofRoot, mapping, readSettings_settings]
  · rfl

theorem ofDocument_profiles (document : Yaml.Document) (name : Text) :
    (ofDocument source document).profiles.lookup name =
      (profile? document name).map fun pairs => .ofRecord (record pairs) := by
  obtain ⟨root, mistakes, lineStarts⟩ := document
  cases mistakes with
  | cons place more => rfl
  | nil =>
    cases root with
    | none => rfl
    | some node =>
      cases node with
      | map extent pairs => exact readProfiles_lookup source name _
      | set extent pairs =>
        show (rootProfiles source pairs (.set extent pairs)).1.lookup name = none
        simp only [rootProfiles]
        split <;> rfl
      | scalar extent value isBare => rfl
      | reference extent => rfl
      | sequence extent elements => rfl

end Configuration

theorem Setting.default_admits {s : Setting} {v : RawValue} (held : Settings.default.layer.value? s = some v) :
    s.Admits v := by
  cases s <;> cases held
  case format => exact admits_format _
  case color => exact admits_color _
  case angles => exact admits_angles _
  case memory => simpa only [Admits, Settings.default] using Binary64.isFinite_zero
  case concurrent => trivial

theorem Settings.value?_resolveLayers (config : LoadedConfig) (profile : Option Text)
    (overrides : PartialSettings) (s : Setting) :
    (resolveLayers config profile overrides).1.layer.value? s =
      (overrides.value? s).or
        (((profile.bind fun name => config.profiles.lookup name).bind fun layer => layer.value? s).or
          ((config.settings.value? s).or (Settings.default.layer.value? s))) := by
  simp only [resolveLayers, List.foldl_cons, List.foldl_nil, value?_overlay]
  cases profile.bind fun name => config.profiles.lookup name with
  | none => rw [Option.getD_none, PartialSettings.value?_empty]; rfl
  | some layer => rfl

theorem warnings_resolveLayers (config : LoadedConfig) (profile : Option Text) (overrides : PartialSettings) :
    (resolveLayers config profile overrides).2 =
      (profile.toList.filter fun name => (config.profiles.lookup name).isNone).map (unknownProfile config) := by
  cases profile with
  | none => rfl
  | some name => cases found : config.profiles.lookup name <;> simp [resolveLayers, found]

section Documents

open Calculator.Configuration

variable (source : Source) (document : Yaml.Document) (profile : Option Text)

theorem value?_resolveSettings (overrides : List (Text × RawValue)) (s : Setting) :
    (resolveSettings (ofDocument source document) profile overrides).1.layer.value? s =
      (s.given overrides).or
        (((profile.bind (profile? document)).bind fun pairs => s.given (record pairs)).or
          ((s.given (record (rootPairs document))).or (Settings.default.layer.value? s))) := by
  have selected : (profile.bind fun name => (ofDocument source document).profiles.lookup name) =
      (profile.bind (profile? document)).map fun pairs => .ofRecord (record pairs) := by
    cases profile with
    | none => rfl
    | some name => exact ofDocument_profiles source document name
  rw [resolveSettings, Settings.value?_resolveLayers, selected, ofDocument_settings, Option.bind_map]
  simp only [PartialSettings.value?_ofRecord, Function.comp_def]

theorem warnings_resolveSettings (overrides : List (Text × RawValue)) :
    (resolveSettings (ofDocument source document) profile overrides).2 =
      (profile.toList.filter fun name => (profile? document name).isNone).map
        (unknownProfile (ofDocument source document)) := by
  rw [resolveSettings, warnings_resolveLayers]
  simp only [ofDocument_profiles, Option.isNone_map]

/-- Every layer holds only what was accepted, so what comes through is valid. -/
theorem resolveSettings_admits (overrides : List (Text × RawValue)) {s : Setting} {v : RawValue}
    (held : (resolveSettings (ofDocument source document) profile overrides).1.layer.value? s = some v) :
    s.Admits v := by
  rw [value?_resolveSettings] at held
  rcases Option.or_eq_some_iff.mp held with override | ⟨_, held⟩
  · exact Setting.given_admits override
  rcases Option.or_eq_some_iff.mp held with selected | ⟨_, held⟩
  · obtain ⟨pairs, _, given⟩ := Option.bind_eq_some_iff.mp selected
    exact Setting.given_admits given
  rcases Option.or_eq_some_iff.mp held with top | ⟨_, default⟩
  · exact Setting.given_admits top
  · exact Setting.default_admits default

theorem resolveSettings_shows (overrides : List (Text × RawValue)) {r : Reporter}
    (places : r.precision = (resolveSettings (ofDocument source document) profile overrides).1.precision.map
      Binary64.toInt) (x : Binary64) : ∃ t, r.formatValue x = .ok t := by
  refine Reporter.formatValue_ok (fun p precise => ?_) x
  rw [places, Option.map_eq_some_iff] at precise
  obtain ⟨y, set, rfl⟩ := precise
  have valid : Setting.precision.Admits (.number y) :=
    resolveSettings_admits source document profile overrides
      (by simp [PartialSettings.value?, Settings.layer, set])
  obtain ⟨whole, low, high⟩ := valid
  exact Binary64.toInt_of_places whole low high

/-- The settings in force with a document, a profile that may be named and a record of overrides. Each is
the value of the first layer that has one, and it is valid; one warning says that a named profile is not
there, and there is no other. -/
theorem resolveSettings_layered {overrides : List (Text × RawValue)}
    (distinct : (overrides.map Prod.fst).Nodup) :
    let config := ofDocument source document
    let resolved := resolveSettings config profile overrides
    (∀ s : Setting, resolved.1.layer.value? s =
      ((overrides.lookup s.name).bind s.accept?).or
        (((profile.bind (profile? document)).bind fun pairs => s.given (record pairs)).or
          ((s.given (record (rootPairs document))).or (Settings.default.layer.value? s)))) ∧
    (∀ s v, resolved.1.layer.value? s = some v → s.Admits v) ∧
    (∀ r : Reporter, r.precision = resolved.1.precision.map Binary64.toInt →
      ∀ x, ∃ t, r.formatValue x = .ok t) ∧
    resolved.2 =
      (profile.toList.filter fun name => (profile? document name).isNone).map (unknownProfile config) ∧
    ∀ name, profile = some name → profile? document name = none →
      ∃ d : Diagnostic, resolved.2 = [d] ∧ d.code = ("CONFIG_UNKNOWN_PROFILE" : Text) ∧
        d.message = ("Profile \"" : Text) ++ name ++ "\" is not defined" ∧ d.severity = .warning := by
  intro config resolved
  have warned := warnings_resolveSettings source document profile overrides
  refine ⟨fun s => ?_, fun s v => resolveSettings_admits source document profile overrides,
    fun r => resolveSettings_shows source document profile overrides, warned, ?_⟩
  · rw [← s.given_of_nodup distinct]
    exact value?_resolveSettings source document profile overrides s
  · rintro name rfl missing
    refine ⟨unknownProfile config name, warned.trans ?_, rfl, rfl, rfl⟩
    simp [missing, config]

/-- An override that is no value for its setting does not hide what the profile says. Another profile is
not there. -/
theorem resolveSettings_profile_layered :
    let place : Yaml.Extent := ⟨0, 0, 0⟩
    let word (t : Text) : Node := .scalar place (.text t) true
    let ci : Node := .map place [(word "format", some (word "json")),
      (word "concurrent", some (.scalar place (.bool false) true))]
    let document : Yaml.Document := ⟨some (.map place [(word "angles", some (word "radians")),
      (word "concurrent", some (.scalar place (.bool true) true)),
      (word "profiles", some (.map place [(word "ci", some ci)]))]), [], [0]⟩
    let overrides : List (Text × RawValue) := [("color", .text "never"), ("concurrent", .text "no")]
    let resolved := resolveSettings (ofDocument ⟨"cfg.yml", [0]⟩ document) (some "ci") overrides
    (overrides.map Prod.fst).Nodup ∧
      resolved.1.layer.value? .format = some (.text "json") ∧
      resolved.1.layer.value? .color = some (.text "never") ∧
      resolved.1.layer.value? .angles = some (.text "radians") ∧
      resolved.1.layer.value? .concurrent = some (.bool false) ∧
      resolved.2 = [] ∧
      ∃ d, (resolveSettings (ofDocument ⟨"cfg.yml", [0]⟩ document) (some "cd") overrides).2 = [d] ∧
        d.code = "CONFIG_UNKNOWN_PROFILE" := by
  intro place word ci document overrides resolved
  have distinct : (overrides.map Prod.fst).Nodup := by decide
  obtain ⟨layered, _, _, warned, _⟩ :=
    resolveSettings_layered ⟨"cfg.yml", [0]⟩ document (some "ci") distinct
  obtain ⟨_, _, _, _, missing⟩ := resolveSettings_layered ⟨"cfg.yml", [0]⟩ document (some "cd") distinct
  obtain ⟨d, one, code, _⟩ := missing "cd" rfl rfl
  exact ⟨distinct, layered .format, layered .color, layered .angles, layered .concurrent, warned, d, one, code⟩

end Documents

end Calculator
