import Calculator.Proofs.Settings.Resolution

/-!
Profiles of a document. An entry with a name and a mapping behind it defines one. What else stands among
the profiles is passed over: all is read as if it were not there.
-/
namespace Calculator

open Yaml (Node Scalar Extent)

namespace Configuration

/-- The name of the profile that an entry defines, and the pairs of its mapping. -/
def profileOf? : Node × Option Node → Option (Text × List (Node × Option Node))
  | (.scalar _ name _, some node) => node.pairs?.map fun pairs => (name.keyText, pairs)
  | _ => none

/-- The entries of the mapping under `profiles`. A set at the root has none. -/
def profileEntries : Node → List (Node × Option Node)
  | .map _ pairs => (((profilesPair? pairs).bind Prod.snd).bind Node.pairs?).getD []
  | _ => []

/-- A mapping at the root with profiles in it. -/
def withProfiles (extent place : Extent) (isBare : Bool) (before after : List (Node × Option Node))
    (node : Node) : Node :=
  .map extent (before ++ (.scalar place (.text "profiles") isBare, some node) :: after)

section Entries

variable (source : Source) (name : Text) (entries : List (Node × Option Node))

/-- Adds a profile, and what was not accepted in it. -/
def addProfile (progress : List (Text × PartialSettings) × List Diagnostic)
    (profile : Text × List (Node × Option Node)) : List (Text × PartialSettings) × List Diagnostic :=
  let settings := readSettings source ["profiles", profile.1] profile.2
  (setProfile profile.1 settings.1 progress.1, progress.2 ++ settings.2)

theorem readProfile_eq (progress : List (Text × PartialSettings) × List Diagnostic)
    (entry : Node × Option Node) :
    readProfile source progress entry = (profileOf? entry).elim progress (addProfile source progress) := by
  obtain ⟨key, value⟩ := entry
  cases key with
  | scalar extent k isBare =>
    cases value with
    | none => rfl
    | some node =>
      simp only [readProfile, profileOf?]
      cases node.pairs? <;> rfl
  | reference extent => rfl
  | map extent pairs => rfl
  | set extent pairs => rfl
  | sequence extent elements => rfl

theorem foldl_readProfile (progress : List (Text × PartialSettings) × List Diagnostic) :
    entries.foldl (readProfile source) progress =
      (entries.filterMap profileOf?).foldl (addProfile source) progress := by
  induction entries generalizing progress with
  | nil => rfl
  | cons entry later ih =>
    rw [List.foldl_cons, readProfile_eq, ih, List.filterMap_cons]
    cases profileOf? entry <;> rfl

theorem mappingUnder_cons (entry : Node × Option Node) :
    mappingUnder name (entry :: entries) = (mappingUnder name entries).or
      ((profileOf? entry).bind fun profile => if profile.1 = name then some profile.2 else none) := by
  obtain ⟨key, value⟩ := entry
  rw [mappingUnder]
  congr 1
  cases key with
  | scalar extent k isBare =>
    cases value with
    | none => simp [profileOf?]
    | some node => cases mapping : node.pairs? <;> simp [profileOf?, Node.scalar?, mapping]
  | reference extent => rfl
  | map extent pairs => rfl
  | set extent pairs => rfl
  | sequence extent elements => rfl

theorem mappingUnder_isSome_iff :
    (mappingUnder name entries).isSome = true ↔ name ∈ (entries.filterMap profileOf?).map Prod.fst := by
  induction entries with
  | nil => simp [mappingUnder]
  | cons entry later ih =>
    rw [mappingUnder_cons, Option.isSome_or, Bool.or_eq_true, ih, List.filterMap_cons]
    cases profileOf? entry with
    | none => simp
    | some profile =>
      by_cases here : profile.1 = name
      · simp [here]
      · simp [here, Ne.symm here]

/-- Where no name is defined twice, it stands for the mapping that it is defined by. -/
theorem mappingUnder_of_mem {pairs : List (Node × Option Node)}
    (distinct : ((entries.filterMap profileOf?).map Prod.fst).Nodup)
    (member : (name, pairs) ∈ entries.filterMap profileOf?) : mappingUnder name entries = some pairs := by
  induction entries with
  | nil => cases member
  | cons entry later ih =>
    rw [mappingUnder_cons]
    rw [List.filterMap_cons] at distinct member
    cases defines : profileOf? entry with
    | none =>
      rw [defines] at distinct member
      simp [ih distinct member]
    | some profile =>
      rw [defines] at distinct member
      obtain ⟨fresh, distinct⟩ := List.nodup_cons.mp distinct
      rcases List.mem_cons.mp member with rfl | member
      · have once : mappingUnder name later = none := by
          rw [← Option.not_isSome_iff_eq_none, mappingUnder_isSome_iff]
          exact fresh
        simp [once]
      · simp [ih distinct member]

theorem profile?_eq {root : Node} (starts : List Nat) :
    profile? ⟨some root, [], starts⟩ name = mappingUnder name (profileEntries root) := by
  cases root with
  | map extent pairs =>
    show (((profilesPair? pairs).bind Prod.snd).bind Node.pairs?).bind (mappingUnder name) = _
    rw [profileEntries]
    cases ((profilesPair? pairs).bind Prod.snd).bind Node.pairs? <;> rfl
  | set extent pairs => rfl
  | scalar extent k isBare => rfl
  | reference extent => rfl
  | sequence extent elements => rfl

theorem readProfiles_mapping {node : Node} (mapping : node.pairs? = some entries) :
    readProfiles source (some node) =
      (entries.filterMap profileOf?).foldl (addProfile source) ([], []) := by
  rw [← foldl_readProfile]
  simp only [readProfiles, mapping]

/-- Entries that define no profile leave no trace. -/
theorem readProfiles_filter (place : Extent) {node : Node} (mapping : node.pairs? = some entries) :
    readProfiles source (some node) =
      readProfiles source (some (.map place (entries.filter fun entry => (profileOf? entry).isSome))) := by
  have same : (entries.filter fun entry => (profileOf? entry).isSome).filterMap profileOf? =
      entries.filterMap profileOf? := by
    rw [List.filterMap_filter]
    congr 1
    funext entry
    cases profileOf? entry <;> rfl
  rw [readProfiles_mapping source entries mapping, ← same, readProfiles_mapping source _ rfl]

end Entries

section Roots

variable (source : Source) {before : List (Node × Option Node)} (after : List (Node × Option Node))
  (extent place : Extent) (isBare : Bool)

theorem profilesPair?_append (first : profilesPair? before = none) (value : Option Node) :
    profilesPair? (before ++ (.scalar place (.text "profiles") isBare, value) :: after) =
      some (.scalar place (.text "profiles") isBare, value) := by
  unfold profilesPair? at first ⊢
  rw [List.find?_append, first]
  rfl

theorem profileEntries_withProfiles (first : profilesPair? before = none) (node : Node) :
    profileEntries (withProfiles extent place isBare before after node) = node.pairs?.getD [] := by
  rw [withProfiles, profileEntries, profilesPair?_append after place isBare first]
  rfl

theorem readSettings_skip (value : Option Node) :
    readSettings source [] (before ++ (.scalar place (.text "profiles") isBare, value) :: after) =
      readSettings source [] (before ++ after) := by
  simp [readSettings, readSetting, Scalar.keyText]

/-- What is at the root is read apart from what is under `profiles`. -/
theorem ofRoot_withProfiles (first : profilesPair? before = none) (node : Node) :
    ofRoot source (some (withProfiles extent place isBare before after node)) =
      ⟨some source.file, (readSettings source [] (before ++ after)).1, (readProfiles source (some node)).1,
        (readSettings source [] (before ++ after)).2 ++ (readProfiles source (some node)).2⟩ := by
  simp only [ofRoot, withProfiles, Node.pairs?, rootProfiles, readSettings_skip,
    profilesPair?_append after place isBare first, Option.bind_some]

end Roots

/-- The profiles of a document are those that its entries define. An entry that defines none is neither
read nor reported: the document says the same without it. -/
theorem profiles_of_entries (source : Source) (starts : List Nat) (extent place : Extent) (isBare : Bool)
    {before : List (Node × Option Node)} (first : profilesPair? before = none)
    (after : List (Node × Option Node)) {node : Node} {entries : List (Node × Option Node)}
    (mapping : node.pairs? = some entries) :
    let config (node : Node) := ofDocument source
      ⟨some (withProfiles extent place isBare before after node), [], starts⟩
    (∀ name, ((config node).profiles.lookup name).isSome = true ↔
      ∃ entry ∈ entries, ∃ pairs, profileOf? entry = some (name, pairs)) ∧
    ∀ place', config node =
      config (.map place' (entries.filter fun entry => (profileOf? entry).isSome)) := by
  intro config
  constructor
  · intro name
    have found : profileEntries (withProfiles extent place isBare before after node) = entries := by
      rw [profileEntries_withProfiles after extent place isBare first, mapping]
      rfl
    rw [ofDocument_profiles, profile?_eq, found, Option.isSome_map, mappingUnder_isSome_iff, List.mem_map]
    constructor
    · rintro ⟨⟨_, pairs⟩, member, rfl⟩
      obtain ⟨entry, among, defines⟩ := List.mem_filterMap.mp member
      exact ⟨entry, among, pairs, defines⟩
    · rintro ⟨entry, among, pairs, defines⟩
      exact ⟨(name, pairs), List.mem_filterMap.mpr ⟨entry, among, defines⟩, rfl⟩
  · intro place'
    have read : ∀ node, config node =
        ofRoot source (some (withProfiles extent place isBare before after node)) := fun node => rfl
    rw [read, read, ofRoot_withProfiles source after extent place isBare first,
      ofRoot_withProfiles source after extent place isBare first,
      readProfiles_filter source entries place' mapping]

/-- Of four entries one defines a profile; the document is read as if it stood alone. -/
theorem profiles_of_one_entry :
    let place : Extent := ⟨0, 0, 0⟩
    let word (t : Text) : Node := .scalar place (.text t) true
    let ci : Node × Option Node := (word "ci", some (.map place [(word "format", some (word "json"))]))
    let entries := [(word "draft", some (word "json")), ci, (word "empty", none),
      (.sequence place [word "a", word "b"], some (.map place []))]
    let before := [(word "color", some (word "never"))]
    let config (node : Node) := ofDocument ⟨"cfg.yml", [0]⟩
      ⟨some (withProfiles place place true before [] node), [], [0]⟩
    profilesPair? before = none ∧ (Node.map place entries).pairs? = some entries ∧
      ((config (.map place entries)).profiles.lookup ("ci" : Text)).isSome = true ∧
      ¬ ((config (.map place entries)).profiles.lookup ("draft" : Text)).isSome = true ∧
      config (.map place entries) = config (.map place [ci]) := by
  intro place word ci entries before config
  have first : profilesPair? before = none := rfl
  have mapping : (Node.map place entries).pairs? = some entries := rfl
  obtain ⟨defined, alone⟩ :=
    profiles_of_entries ⟨"cfg.yml", [0]⟩ [0] place place true first [] mapping
  refine ⟨first, mapping, (defined "ci").mpr ⟨ci, by simp [entries], _, rfl⟩, ?_, alone place⟩
  intro draft
  obtain ⟨entry, among, pairs, defines⟩ := (defined "draft").mp draft
  simp only [entries, List.mem_cons, List.not_mem_nil, or_false] at among
  rcases among with rfl | rfl | rfl | rfl
  · cases defines
  · have other : ("ci" : Text) ≠ "draft" := by decide
    exact other (congrArg Prod.fst (Option.some.inj defines))
  · cases defines
  · cases defines

/-- A word in the place of a profile: no profile, and no report of it either. -/
theorem profile_unreported :
    let text : Text := "profiles:\n  ci: json\n"
    let document := Yaml.Document.read text
    let config := Configuration.read text "cfg.yml"
    document.mistakes = [] ∧
      document.root.map (fun root => (record (profileEntries root)).map Prod.fst) = some [("ci" : Text)] ∧
      config.profiles = [] ∧ config.diagnostics = [] := by
  decide +kernel

end Configuration

end Calculator
