import Calculator.Settings.Diagnostic
import Calculator.Settings.Settings

/-!
Settings in layers: an override before the selected profile, the profile before the top level of the
file, and the defaults last.
-/
namespace Calculator

/-- What a configuration file says. -/
structure LoadedConfig where
  file : Option Text
  settings : PartialSettings
  profiles : List (Text × PartialSettings)
  diagnostics : List Diagnostic

/-- Nothing loaded, from no file. -/
def LoadedConfig.none : LoadedConfig :=
  ⟨Option.none, {}, [], []⟩

structure Settings where
  format : Format
  color : ColorMode
  precision : Option Binary64
  angles : AngleUnit
  memory : Binary64
  timeout : Option Binary64
  concurrent : Bool
  deriving DecidableEq

namespace Settings

def default : Settings :=
  ⟨.pretty, .auto, none, .degrees, .zero, none, false⟩

/-- Puts the settings that a layer has over those below it. -/
def overlay (below : Settings) (layer : PartialSettings) : Settings :=
  { format := layer.format.getD below.format
    color := layer.color.getD below.color
    precision := layer.precision.or below.precision
    angles := layer.angles.getD below.angles
    memory := layer.memory.getD below.memory
    timeout := layer.timeout.or below.timeout
    concurrent := layer.concurrent.getD below.concurrent }

end Settings

/-- The settings of a record of raw values, the invalid ones dropped. -/
def PartialSettings.ofRecord (record : List (Text × RawValue)) : PartialSettings :=
  record.foldl (fun target (key, value) => (target.apply key value).toOption.getD target) {}

def unknownProfile (config : LoadedConfig) (name : Text) : Diagnostic :=
  { code := "CONFIG_UNKNOWN_PROFILE"
    message := "Profile \"" ++ name ++ "\" is not defined"
    severity := .warning
    file := config.file.getD "<none>" }

/-- The settings in force, and a warning where the named profile is not defined. -/
def resolveLayers (config : LoadedConfig) (profile : Option Text) (overrides : PartialSettings) :
    Settings × List Diagnostic :=
  let selected := profile.bind fun name => config.profiles.lookup name
  let warnings := match profile, selected with
    | some name, none => [unknownProfile config name]
    | _, _ => []
  let layers := [config.settings, selected.getD {}, overrides]
  (layers.foldl Settings.overlay .default, warnings)

/-- As `resolveLayers`, with overrides that are still to be checked. -/
def resolveSettings (config : LoadedConfig) (profile : Option Text)
    (overrides : List (Text × RawValue)) : Settings × List Diagnostic :=
  resolveLayers config profile (.ofRecord overrides)

end Calculator
