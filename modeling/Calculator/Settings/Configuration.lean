import Calculator.Settings.Layers
import Calculator.Yaml.Document

/-!
A configuration document: a mapping of settings, and among them a mapping of profiles. A setting that is
not accepted is reported with its place and otherwise left out.
-/
namespace Calculator

open Yaml (Node Scalar Extent)

namespace Configuration

/-- What the tree of a document is read with: the name of its file and the offsets at which lines
start. -/
structure Source where
  file : Text
  lineStarts : List Nat

def Source.location (s : Source) (offset : Nat) : Location :=
  let starts := s.lineStarts.takeWhile fun start => start ≤ offset
  ⟨starts.length, offset - starts.getLast?.getD 0 + 1, offset⟩

def Source.range (s : Source) (span : Span) : SourceRange :=
  ⟨s.location span.start, s.location span.stop⟩

/-- The raw value of a scalar; other values are no settings. -/
def rawValue (value : Option Node) : RawValue :=
  match value.bind Node.scalar? with
  | some (.text t) => .text t
  | some (.number x) => .number x
  | some (.bool b) => .bool b
  | _ => .other

/-- The place of a scalar value, or else of its key. -/
def problemExtent (key : Extent) : Option Node → Extent
  | some (.scalar value _ _) => value
  | _ => key

def invalidField (source : Source) (message : Text) (range : Option SourceRange)
    (path : Option (List Text)) : Diagnostic :=
  { code := "CONFIG_INVALID_FIELD"
    message := message
    severity := .warning
    file := source.file
    range := range
    path := path }

/-- Reads one setting of a mapping. -/
def readSetting (source : Source) (path : List Text) :
    PartialSettings × List Diagnostic → Node × Option Node → PartialSettings × List Diagnostic
  | (settings, problems), (.scalar extent key _, value) =>
    if path = [] ∧ key.keyText = "profiles" then (settings, problems)
    else
      match settings.apply key.keyText (rawValue value) with
      | .ok settings => (settings, problems)
      | .error problem =>
        let range := source.range (problemExtent extent value).span
        (settings, problems ++
          [invalidField source problem.message (some range) (some (path ++ [key.keyText]))])
  | progress, _ => progress

/-- The settings of a mapping, and what was not accepted. -/
def readSettings (source : Source) (path : List Text) (pairs : List (Node × Option Node)) :
    PartialSettings × List Diagnostic :=
  pairs.foldl (readSetting source path) ({}, [])

/-- Replaces what a name stands for, or adds the name. -/
def setProfile (name : Text) (settings : PartialSettings) :
    List (Text × PartialSettings) → List (Text × PartialSettings)
  | [] => [(name, settings)]
  | (n, s) :: rest => if n = name then (n, settings) :: rest else (n, s) :: setProfile name settings rest

/-- Reads one profile. What has no name or is no mapping defines none. -/
def readProfile (source : Source) :
    List (Text × PartialSettings) × List Diagnostic → Node × Option Node →
      List (Text × PartialSettings) × List Diagnostic
  | (profiles, problems), (.scalar _ name _, some node) =>
    match node.pairs? with
    | some pairs =>
      let (settings, more) := readSettings source ["profiles", name.keyText] pairs
      (setProfile name.keyText settings profiles, problems ++ more)
    | none => (profiles, problems)
  | progress, _ => progress

/-- The pair under the text `profiles`. -/
def profilesPair? (pairs : List (Node × Option Node)) : Option (Node × Option Node) :=
  pairs.find? fun
    | (.scalar _ (.text t) _, _) => t == ("profiles" : Text)
    | _ => false

def invalidProfiles (source : Source) (range : Option SourceRange) :
    List (Text × PartialSettings) × List Diagnostic :=
  ([], [invalidField source "\"profiles\" must be a mapping of profile names to settings" range
    (some ["profiles"])])

/-- Reads what stands under `profiles`. Only a scalar is reported with its place. -/
def readProfiles (source : Source) : Option Node → List (Text × PartialSettings) × List Diagnostic
  | none => ([], [])
  | some node =>
    match node, node.pairs? with
    | _, some pairs => pairs.foldl (readProfile source) ([], [])
    | .scalar extent _ _, none => invalidProfiles source (some (source.range extent.span))
    | _, none => invalidProfiles source none

/-- The profiles of a root. In a set the name `profiles` stands for itself, which is no mapping. -/
def rootProfiles (source : Source) (pairs : List (Node × Option Node)) :
    Node → List (Text × PartialSettings) × List Diagnostic
  | .set _ _ => if (profilesPair? pairs).isSome then invalidProfiles source none else ([], [])
  | _ => readProfiles source ((profilesPair? pairs).bind Prod.snd)

/-- What the root of a document says; no root says nothing. -/
def ofRoot (source : Source) : Option Node → LoadedConfig
  | none => ⟨some source.file, {}, [], []⟩
  | some node =>
    match node.pairs? with
    | some pairs =>
      let (settings, problems) := readSettings source [] pairs
      let (profiles, more) := rootProfiles source pairs node
      ⟨some source.file, settings, profiles, problems ++ more⟩
    | none =>
      ⟨some source.file, {}, [], [invalidField source "Configuration must be a mapping of settings"
        (some (source.range node.extent.span)) none]⟩

/-- The text of a diagnostic that stands for every mistake in the form of a document. -/
def malformed (source : Source) (place : Span) : Diagnostic :=
  { code := "CONFIG_YAML_SYNTAX"
    message := "Malformed YAML"
    severity := .error
    file := source.file
    range := some (source.range place) }

/-- What a document says. A malformed one sets nothing. -/
def ofDocument (source : Source) (document : Yaml.Document) : LoadedConfig :=
  if document.mistakes = [] then ofRoot source document.root
  else ⟨some source.file, {}, [], document.mistakes.map (malformed source)⟩

/-- Reads the text of a configuration file. -/
def read (text file : Text) : LoadedConfig :=
  let document := Yaml.Document.read text.stripByteOrderMark
  ofDocument ⟨file, document.lineStarts⟩ document

end Configuration

end Calculator
