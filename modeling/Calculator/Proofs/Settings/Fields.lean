import Mathlib.Data.List.Nodup
import Calculator.Proofs.Settings.Profiles
import Calculator.Proofs.Settings.Validity

/-!
Fields of a document, at its root and in its profiles. Where no mapping has a name twice, a field is either
applied to its layer or reported once, at the path that leads to it.
-/
namespace Calculator

open Yaml (Node Scalar Extent)

namespace Configuration

/-- A value under a name, with the path to the mapping that it is in and the place of a problem with it. -/
structure Field where
  above : List Text
  key : Text
  value : RawValue
  place : Extent

namespace Field

def of (above : List Text) (place : Extent) (key : Scalar) (value : Option Node) : Field :=
  ⟨above, key.keyText, rawValue value, problemExtent place value⟩

def path (f : Field) : List Text :=
  f.above ++ [f.key]

/-- The report on a field that is not accepted. -/
def report? (source : Source) (f : Field) : Option Diagnostic :=
  (f.value.problem? f.key).map fun problem =>
    invalidField source problem.message (some (source.range f.place.span)) (some f.path)

/-- The validated value is in the layer, and nothing is reported at the path. -/
structure Applied (diagnostics : List Diagnostic) (layer : PartialSettings) (f : Field) : Prop where
  held : ∃ (s : Setting) (v : RawValue), f.key = s.name ∧ s.accept? f.value = some v ∧ s.Admits v ∧
    layer.value? s = some v
  unreported : ∀ d ∈ diagnostics, d.path ≠ some f.path

/-- The layer has no value under the key, and there is one warning at the path. -/
structure Reported (diagnostics : List Diagnostic) (layer : PartialSettings) (f : Field) : Prop where
  absent : ∀ s : Setting, f.key = s.name → layer.value? s = none
  once : ∃ d : Diagnostic, d.code = ("CONFIG_INVALID_FIELD" : Text) ∧ d.severity = .warning ∧
    (diagnostics.filter fun d => d.path = some f.path) = [d]

end Field

/-- The field that a pair is, if its key is a scalar. At the root, the profiles are none. -/
def field? (above : List Text) : Node × Option Node → Option Field
  | (.scalar place key _, value) =>
    if above = [] ∧ key.keyText = "profiles" then none else some (.of above place key value)
  | _ => none

def fieldsIn (above : List Text) (pairs : List (Node × Option Node)) : List Field :=
  pairs.filterMap (field? above)

/-- The profiles that are defined below a root, a name for each with the pairs of its mapping. -/
def profiles (root : Node) : List (Text × List (Node × Option Node)) :=
  (profileEntries root).filterMap profileOf?

def profileFields (profile : Text × List (Node × Option Node)) : List Field :=
  fieldsIn ["profiles", profile.1] profile.2

/-- All fields of a document in order, those at the root first. -/
def fields (root : Node) : List Field :=
  fieldsIn [] (root.pairs?.getD []) ++ (profiles root).flatMap profileFields

/-- The names in a mapping. -/
def names (pairs : List (Node × Option Node)) : List Text :=
  pairs.filterMap fun pair => pair.1.scalar?.map Scalar.keyText

/-- No mapping has a name twice. -/
structure DistinctNames (root : Node) : Prop where
  top : (names (root.pairs?.getD [])).Nodup
  entries : (names (profileEntries root)).Nodup
  inside : ∀ profile ∈ profiles root, (names profile.2).Nodup

/-- What is said of the profiles as a whole: nothing, or that they are no mapping. -/
def OnProfiles (source : Source) (diagnostics : List Diagnostic) : Prop :=
  diagnostics = [] ∨ ∃ range, diagnostics = (invalidProfiles source range).2

section Reports

variable (source : Source) (above : List Text)

theorem readSetting_reports (progress : PartialSettings × List Diagnostic) (pair : Node × Option Node) :
    (readSetting source above progress pair).2 =
      progress.2 ++ ((field? above pair).bind (Field.report? source)).toList := by
  obtain ⟨target, problems⟩ := progress
  obtain ⟨key, value⟩ := pair
  cases key with
  | scalar place k isBare =>
    simp only [readSetting, field?]
    split
    · simp
    · rw [PartialSettings.apply_eq, Option.bind_some, Field.report?, Field.of, Field.path]
      cases (rawValue value).problem? k.keyText <;> simp
  | reference place => simp [readSetting, field?]
  | map place pairs => simp [readSetting, field?]
  | set place pairs => simp [readSetting, field?]
  | sequence place elements => simp [readSetting, field?]

theorem readSettings_reports (pairs : List (Node × Option Node)) :
    (readSettings source above pairs).2 = (fieldsIn above pairs).filterMap (Field.report? source) := by
  have run : ∀ progress, (pairs.foldl (readSetting source above) progress).2 =
      progress.2 ++ (fieldsIn above pairs).filterMap (Field.report? source) := by
    unfold fieldsIn
    induction pairs with
    | nil => simp
    | cons pair later ih =>
      intro progress
      rw [List.foldl_cons, ih, readSetting_reports, List.append_assoc, List.filterMap_cons]
      cases field? above pair with
      | none => rfl
      | some f => cases reported : f.report? source <;> simp [reported]
  exact run ({}, [])

theorem addProfiles_reports (profiles : List (Text × List (Node × Option Node)))
    (progress : List (Text × PartialSettings) × List Diagnostic) :
    (profiles.foldl (addProfile source) progress).2 =
      progress.2 ++ (profiles.flatMap profileFields).filterMap (Field.report? source) := by
  induction profiles generalizing progress with
  | nil => simp
  | cons profile later ih =>
    rw [List.foldl_cons, ih, addProfile, readSettings_reports, List.flatMap_cons, List.filterMap_append,
      List.append_assoc]
    rfl

theorem readProfiles_reports (value : Option Node) :
    ∃ others, (readProfiles source value).2 =
        ((((value.bind Node.pairs?).getD []).filterMap profileOf?).flatMap profileFields).filterMap
          (Field.report? source) ++ others ∧
      OnProfiles source others := by
  cases value with
  | none => exact ⟨[], rfl, .inl rfl⟩
  | some node =>
    cases mapping : node.pairs? with
    | some entries =>
      refine ⟨[], ?_, .inl rfl⟩
      rw [readProfiles_mapping source entries mapping, addProfiles_reports, Option.bind_some, mapping,
        List.append_nil]
      rfl
    | none =>
      refine ⟨(readProfiles source (some node)).2, by simp [mapping], .inr ?_⟩
      cases node with
      | scalar place k isBare => exact ⟨some (source.range place.span), rfl⟩
      | reference place => exact ⟨none, rfl⟩
      | sequence place elements => exact ⟨none, rfl⟩
      | map place pairs => cases mapping
      | set place pairs => cases mapping

theorem rootProfiles_reports {root : Node} {pairs : List (Node × Option Node)}
    (mapping : root.pairs? = some pairs) :
    ∃ others, (rootProfiles source pairs root).2 =
        ((profiles root).flatMap profileFields).filterMap (Field.report? source) ++ others ∧
      OnProfiles source others := by
  cases root with
  | map place pairs' =>
    obtain rfl : pairs' = pairs := Option.some.inj mapping
    exact readProfiles_reports source ((profilesPair? pairs').bind Prod.snd)
  | set place pairs' =>
    refine ⟨(rootProfiles source pairs (.set place pairs')).2, rfl, ?_⟩
    rw [rootProfiles]
    split
    · exact .inr ⟨none, rfl⟩
    · exact .inl rfl
  | scalar place k isBare => cases mapping
  | reference place => cases mapping
  | sequence place elements => cases mapping

/-- All that is reported, in order: the fields of the root, those of the profiles, and the profiles
themselves. -/
theorem ofDocument_reports {root : Node} {pairs : List (Node × Option Node)} (starts : List Nat)
    (mapping : root.pairs? = some pairs) :
    ∃ others, (ofDocument source ⟨some root, [], starts⟩).diagnostics =
        (fields root).filterMap (Field.report? source) ++ others ∧
      OnProfiles source others := by
  obtain ⟨others, below, said⟩ := rootProfiles_reports source mapping
  refine ⟨others, ?_, said⟩
  have read : ofDocument source ⟨some root, [], starts⟩ = ofRoot source (some root) := rfl
  rw [read]
  simp only [ofRoot, mapping, fields, Option.getD_some, List.filterMap_append]
  rw [readSettings_reports, below, List.append_assoc]

end Reports

theorem filterMap_keys_sublist {α β γ : Type} {f : α → Option β} {key : β → γ} {name : α → Option γ}
    (named : ∀ a b, f a = some b → name a = some (key b)) (l : List α) :
    ((l.filterMap f).map key).Sublist (l.filterMap name) := by
  induction l with
  | nil => exact .slnil
  | cons a later ih =>
    cases here : f a with
    | none =>
      cases other : name a with
      | none => simpa [here, other] using ih
      | some c => simpa [here, other] using ih.cons c
    | some b => simpa [here, named a b here] using ih

section Names

variable {above : List Text} {pairs : List (Node × Option Node)} {f : Field}

theorem field?_named {pair : Node × Option Node} (is : field? above pair = some f) :
    f.above = above ∧ pair.1.scalar?.map Scalar.keyText = some f.key := by
  unfold field? at is
  split at is
  · obtain ⟨-, is⟩ := Option.ite_none_left_eq_some.mp is
    cases is
    exact ⟨rfl, rfl⟩
  · cases is

theorem profileOf?_named {entry : Node × Option Node} {profile : Text × List (Node × Option Node)}
    (defines : profileOf? entry = some profile) :
    entry.1.scalar?.map Scalar.keyText = some profile.1 := by
  unfold profileOf? at defines
  split at defines
  · obtain ⟨pairs, -, rfl⟩ := Option.map_eq_some_iff.mp defines
    rfl
  · cases defines

theorem path_of_mem (member : f ∈ fieldsIn above pairs) : f.path = above ++ [f.key] := by
  obtain ⟨pair, -, is⟩ := List.mem_filterMap.mp member
  rw [Field.path, (field?_named is).1]

theorem fieldsIn_paths_nodup (distinct : (names pairs).Nodup) (above : List Text) :
    ((fieldsIn above pairs).map Field.path).Nodup := by
  have keys : ((fieldsIn above pairs).map Field.key).Nodup :=
    distinct.sublist (filterMap_keys_sublist (fun _ _ is => (field?_named is).2) pairs)
  have paths : (fieldsIn above pairs).map Field.path =
      ((fieldsIn above pairs).map Field.key).map fun key => above ++ [key] := by
    rw [List.map_map]
    exact List.map_congr_left fun f member => path_of_mem member
  rw [paths]
  exact keys.map fun key key' same => by simpa using same

theorem profiles_names_nodup {root : Node} (distinct : (names (profileEntries root)).Nodup) :
    ((profiles root).map Prod.fst).Nodup :=
  distinct.sublist (filterMap_keys_sublist (fun _ _ defines => profileOf?_named defines) _)

/-- No two fields have one path: at the root their keys differ, and below it their profiles or their keys. -/
theorem paths_nodup {root : Node} (distinct : DistinctNames root) :
    ((fields root).map Field.path).Nodup := by
  have below : ((profiles root).flatMap fun profile => (profileFields profile).map Field.path).Nodup := by
    refine List.nodup_flatMap.mpr ⟨?_, ?_⟩
    · intro profile member
      exact fieldsIn_paths_nodup (distinct.inside profile member) _
    · refine (List.pairwise_map.mp (profiles_names_nodup distinct.entries)).imp ?_
      intro profile profile' differ path here there
      obtain ⟨f, member, rfl⟩ := List.mem_map.mp here
      obtain ⟨f', member', same⟩ := List.mem_map.mp there
      rw [path_of_mem member, path_of_mem member'] at same
      exact differ (by simpa using (List.cons.inj (List.cons.inj same).2).1.symm)
  rw [fields, List.map_append, List.map_flatMap, List.nodup_append']
  refine ⟨fieldsIn_paths_nodup distinct.top [], below, ?_⟩
  intro path top inside
  obtain ⟨f, member, rfl⟩ := List.mem_map.mp top
  obtain ⟨profile, -, inside⟩ := List.mem_flatMap.mp inside
  obtain ⟨f', member', same⟩ := List.mem_map.mp inside
  rw [path_of_mem member, path_of_mem member'] at same
  simp at same

theorem names_eq (pairs : List (Node × Option Node)) : (record pairs).map Prod.fst = names pairs := by
  simp [record, names, List.map_filterMap, Function.comp_def]

theorem lookup_of_mem {α : Type} {key : Text} {a : α} {l : List (Text × α)}
    (distinct : (l.map Prod.fst).Nodup) (member : (key, a) ∈ l) : l.lookup key = some a := by
  obtain ⟨before, after, rfl⟩ := List.append_of_mem member
  rw [List.map_append, List.map_cons, List.nodup_middle, List.nodup_cons] at distinct
  refine List.lookup_eq_some_iff.mpr ⟨before, after, rfl, ?_⟩
  intro pair among
  have other : key ≠ pair.1 := by
    intro same
    exact distinct.1 (List.mem_append_left _ (List.mem_map.mpr ⟨pair, among, same.symm⟩))
  simpa using other

theorem value?_of_mem (distinct : (names pairs).Nodup) {place : Extent} {key : Scalar} {isBare : Bool}
    {value : Option Node} (member : (.scalar place key isBare, value) ∈ pairs) {s : Setting}
    (named : key.keyText = s.name) :
    (PartialSettings.ofRecord (record pairs)).value? s = s.accept? (rawValue value) := by
  have raw : (s.name, rawValue value) ∈ record pairs :=
    List.mem_filterMap.mpr ⟨_, member, by simp [Node.scalar?, named]⟩
  rw [← names_eq] at distinct
  rw [PartialSettings.value?_ofRecord, s.given_of_nodup distinct, lookup_of_mem distinct raw]
  rfl

end Names

section Settling

variable (source : Source) {f : Field} {diagnostics : List Diagnostic} {layer : PartialSettings}

theorem report_path {d : Diagnostic} (report : f.report? source = some d) : d.path = some f.path := by
  obtain ⟨problem, -, rfl⟩ := Option.map_eq_some_iff.mp report
  rfl

theorem reports_elsewhere {l : List Field} (absent : f.path ∉ l.map Field.path) :
    ((l.filterMap (Field.report? source)).filter fun d => d.path = some f.path) = [] := by
  rw [List.filter_eq_nil_iff]
  intro d member
  obtain ⟨f', among, report⟩ := List.mem_filterMap.mp member
  intro same
  have paths : f'.path = f.path := by simpa [report_path source report] using same
  exact absent (paths ▸ List.mem_map_of_mem among)

/-- Among distinct paths, what is reported at that of a field is the report on it. -/
theorem reports_at {l : List Field} (distinct : (l.map Field.path).Nodup) (member : f ∈ l) :
    ((l.filterMap (Field.report? source)).filter fun d => d.path = some f.path) =
      (f.report? source).toList := by
  obtain ⟨before, after, rfl⟩ := List.append_of_mem member
  rw [List.map_append, List.map_cons, List.nodup_middle, List.nodup_cons, List.mem_append, not_or] at distinct
  obtain ⟨⟨earlier, later⟩, -⟩ := distinct
  have here : (([f].filterMap (Field.report? source)).filter fun d => d.path = some f.path) =
      (f.report? source).toList := by
    cases report : f.report? source with
    | none => simp [report]
    | some d => simp [report, report_path source report]
  rw [List.append_cons, List.filterMap_append, List.filterMap_append, List.filter_append, List.filter_append,
    reports_elsewhere source earlier, reports_elsewhere source later, here]
  simp

theorem applied_xor_reported
    (reports : (diagnostics.filter fun d => d.path = some f.path) = (f.report? source).toList)
    (read : ∀ s : Setting, f.key = s.name → layer.value? s = s.accept? f.value) :
    Xor (f.Applied diagnostics layer) (f.Reported diagnostics layer) := by
  unfold Field.report? at reports
  cases problem : f.value.problem? f.key with
  | none =>
    obtain ⟨s, v, named, accepted⟩ := PartialSettings.problem?_eq_none_iff.mp problem
    have nothing : (diagnostics.filter fun d => d.path = some f.path) = [] := by
      simpa [problem] using reports
    have held : layer.value? s = some v := (read s named).trans accepted
    refine .inl ⟨⟨⟨s, v, named, accepted, Setting.accept_admits accepted, held⟩, ?_⟩, ?_⟩
    · intro d member same
      exact List.filter_eq_nil_iff.mp nothing d member (by simpa using same)
    · rintro ⟨-, d, -, -, one⟩
      cases nothing.symm.trans one
  | some p =>
    have refused : ∀ s v, f.key = Setting.name s → s.accept? f.value ≠ some v := by
      intro s v named accepted
      have fine := PartialSettings.problem?_eq_none_iff.mpr ⟨s, v, named, accepted⟩
      cases fine.symm.trans problem
    refine .inr ⟨⟨?_, ?_⟩, ?_⟩
    · intro s named
      rw [read s named]
      exact Option.eq_none_iff_forall_ne_some.mpr fun v => refused s v named
    · rw [problem] at reports
      exact ⟨_, rfl, rfl, reports⟩
    · rintro ⟨⟨s, v, named, accepted, -, -⟩, -⟩
      exact refused s v named accepted

end Settling

section Documents

variable (source : Source) (starts : List Nat) {root : Node} {pairs : List (Node × Option Node)}
  (mapping : root.pairs? = some pairs) (distinct : DistinctNames root)

include mapping distinct

theorem reports_of_field {f : Field} (member : f ∈ fields root) (field : f.path ≠ ["profiles"]) :
    ((ofDocument source ⟨some root, [], starts⟩).diagnostics.filter fun d => d.path = some f.path) =
      (f.report? source).toList := by
  obtain ⟨others, reports, said⟩ := ofDocument_reports source starts mapping
  have none : (others.filter fun d => d.path = some f.path) = [] := by
    rcases said with rfl | ⟨range, rfl⟩
    · rfl
    · simpa [invalidProfiles, invalidField] using field.symm
  rw [reports, List.filter_append, none, List.append_nil, reports_at source (paths_nodup distinct) member]

theorem settles_at_root {place : Extent} {key : Scalar} {isBare : Bool} {value : Option Node}
    (member : (.scalar place key isBare, value) ∈ pairs) (other : key.keyText ≠ "profiles") :
    let config := ofDocument source ⟨some root, [], starts⟩
    let f := Field.of [] place key value
    Xor (f.Applied config.diagnostics config.settings) (f.Reported config.diagnostics config.settings) := by
  intro config f
  have top : f ∈ fields root := by
    refine List.mem_append_left _ (List.mem_filterMap.mpr ⟨_, by rwa [mapping], ?_⟩)
    simp [field?, other, f]
  have field : f.path ≠ ["profiles"] := by simpa [f, Field.path, Field.of] using other
  have layer : config.settings = .ofRecord (record pairs) := by
    rw [ofDocument_settings, rootPairs, if_pos rfl, Option.bind_some, mapping]
    rfl
  have unrepeated : (names pairs).Nodup := by simpa [mapping] using distinct.top
  refine applied_xor_reported source (reports_of_field source starts mapping distinct top field) ?_
  intro s named
  rw [layer]
  exact value?_of_mem unrepeated member named

theorem settles_in_profile {name : Text} {inside : List (Node × Option Node)}
    (profile : (name, inside) ∈ profiles root) {place : Extent} {key : Scalar} {isBare : Bool}
    {value : Option Node} (member : (.scalar place key isBare, value) ∈ inside) :
    let config := ofDocument source ⟨some root, [], starts⟩
    let f := Field.of ["profiles", name] place key value
    Xor (f.Applied config.diagnostics (.ofRecord (record inside)))
      (f.Reported config.diagnostics (.ofRecord (record inside))) := by
  intro config f
  have below : f ∈ fields root := by
    refine List.mem_append_right _ (List.mem_flatMap.mpr ⟨_, profile, ?_⟩)
    exact List.mem_filterMap.mpr ⟨_, member, by simp [field?, f]⟩
  have field : f.path ≠ ["profiles"] := by simp [f, Field.path, Field.of]
  refine applied_xor_reported source (reports_of_field source starts mapping distinct below field) ?_
  intro s named
  exact value?_of_mem (distinct.inside _ profile) member named

end Documents

theorem Field.not_applied {diagnostics : List Diagnostic} {layer : PartialSettings} {f : Field}
    (unknown : ∀ s : Setting, f.key ≠ s.name) : ¬ f.Applied diagnostics layer := by
  rintro ⟨⟨s, v, named, -⟩, -⟩
  exact unknown s named

/-- A malformed document sets nothing and says why. In any other with a mapping at its root, each field is
applied to its layer or reported, and never both; the reports are in the order of the fields. Only at the
root the name of the profiles is not a setting that is unknown. -/
theorem fields_applied_or_reported (source : Source) (document : Yaml.Document) :
    let config := ofDocument source document
    (document.mistakes ≠ [] → config.settings = {} ∧ config.profiles = [] ∧ config.diagnostics ≠ []) ∧
    ∀ (root : Node) (pairs : List (Node × Option Node)),
      document.mistakes = [] → document.root = some root → root.pairs? = some pairs →
      (∃ others, config.diagnostics = (fields root).filterMap (Field.report? source) ++ others ∧
        OnProfiles source others) ∧
      (DistinctNames root →
        (∀ place key isBare value, (Node.scalar place key isBare, value) ∈ pairs →
          key.keyText ≠ "profiles" →
          let f := Field.of [] place key value
          Xor (f.Applied config.diagnostics config.settings) (f.Reported config.diagnostics config.settings)) ∧
        ∀ name inside, (name, inside) ∈ profiles root →
          ∃ layer, config.profiles.lookup name = some layer ∧
            ∀ place key isBare value, (Node.scalar place key isBare, value) ∈ inside →
              let f := Field.of ["profiles", name] place key value
              Xor (f.Applied config.diagnostics layer) (f.Reported config.diagnostics layer) ∧
                (key.keyText = "profiles" → f.Reported config.diagnostics layer)) := by
  intro config
  obtain ⟨root?, mistakes, starts⟩ := document
  constructor
  · intro malformed
    cases mistakes with
    | nil => exact absurd rfl malformed
    | cons place more => exact ⟨rfl, rfl, List.cons_ne_nil _ _⟩
  · rintro root pairs rfl rfl mapping
    refine ⟨ofDocument_reports source starts mapping, ?_⟩
    intro distinct
    constructor
    · intro place key isBare value member other
      exact settles_at_root source starts mapping distinct member other
    · intro name inside profile
      have defined : config.profiles.lookup name = some (.ofRecord (record inside)) := by
        rw [ofDocument_profiles, profile?_eq,
          mappingUnder_of_mem name _ (profiles_names_nodup distinct.entries) profile]
        rfl
      refine ⟨_, defined, ?_⟩
      intro place key isBare value member f
      have one := settles_in_profile source starts mapping distinct profile member
      refine ⟨one, ?_⟩
      intro same
      have unknown : ∀ s : Setting, f.key ≠ s.name := by
        intro s
        rw [show f.key = _ from same]
        cases s <;> decide
      exact one.or.resolve_left (Field.not_applied unknown)

/-- The format is a field of the root, and within a profile the name of the profiles is one. With a mistake
in its form the same document is reported. -/
theorem fields_of_profile_settled :
    let source : Source := ⟨"cfg.yml", [0]⟩
    let place : Extent := ⟨0, 0, 0⟩
    let word (t : Text) : Node := .scalar place (.text t) true
    let inside := [(word "timeout", some (word "0x10")), (word "profiles", some (word "json"))]
    let pairs := [(word "format", some (.sequence place [])),
      (word "profiles", some (.map place [(word "ci", some (.map place inside)), (word "draft", none)]))]
    let root : Node := .map place pairs
    let config := ofDocument source ⟨some root, [], [0]⟩
    let format := Field.of [] place (.text "format") (some (.sequence place []))
    let nested := Field.of ["profiles", "ci"] place (.text "profiles") (some (word "json"))
    root.pairs? = some pairs ∧ DistinctNames root ∧ (("ci" : Text), inside) ∈ profiles root ∧
      Xor (format.Applied config.diagnostics config.settings)
        (format.Reported config.diagnostics config.settings) ∧
      (∃ layer, config.profiles.lookup ("ci" : Text) = some layer ∧
        nested.Reported config.diagnostics layer) ∧
      (ofDocument source ⟨some root, [⟨0, 1⟩], [0]⟩).diagnostics ≠ [] := by
  intro source place word inside pairs root config format nested
  have mapping : root.pairs? = some pairs := rfl
  have profile : (("ci" : Text), inside) ∈ profiles root := List.mem_singleton.mpr rfl
  have distinct : DistinctNames root := by
    refine ⟨by decide, by decide, ?_⟩
    intro other member
    obtain rfl := List.mem_singleton.mp member
    decide
  obtain ⟨-, settles⟩ := fields_applied_or_reported source ⟨some root, [], [0]⟩
  obtain ⟨-, fields⟩ := settles root pairs rfl rfl mapping
  obtain ⟨top, profiles⟩ := fields distinct
  obtain ⟨layer, defined, settled⟩ := profiles "ci" inside profile
  have first : (word "format", some (.sequence place [])) ∈ pairs := List.mem_cons_self
  have second : (word "profiles", some (word "json")) ∈ inside :=
    List.mem_cons_of_mem _ (List.mem_singleton.mpr rfl)
  obtain ⟨malformed, -⟩ := fields_applied_or_reported source ⟨some root, [⟨0, 1⟩], [0]⟩
  exact ⟨mapping, distinct, profile, top _ _ _ _ first (by decide),
    ⟨layer, defined, (settled _ _ _ _ second).2 rfl⟩, (malformed (List.cons_ne_nil _ _)).2.2⟩

end Configuration

end Calculator
