import Calculator.Files.Workspace
import Calculator.Settings.Configuration

/-!
Finding and loading the configuration file: a path that is given, or else the first of the usual names
in the working directory.
-/
namespace Calculator

def configurationNames : List Text := [".safecalc.yml", ".safecalc.yaml"]

inductive LoadError where
  | isDirectory
  deriving DecidableEq

def LoadError.message : LoadError → Text
  | isDirectory => "EISDIR: illegal operation on a directory, read"

namespace Workspace

def exists? (w : Workspace) (path : Text) : Bool :=
  (w.contents? path).isSome || w.isDirectory path

/-- The path of the configuration file, which need not exist if it is given. An empty path is none. -/
def findConfiguration (w : Workspace) (given : Option Text) : Option Text :=
  match given with
  | some (u :: path) => some (Path.resolve w.directory (u :: path))
  | _ => (configurationNames.map (Path.resolve w.directory)).find? w.exists?

def missingFile (path : Text) : Diagnostic :=
  { code := "CONFIG_NOT_FOUND"
    message := "Config file not found: " ++ path
    severity := .error
    file := path }

def loadConfiguration (w : Workspace) (given : Option Text) : Except LoadError LoadedConfig :=
  match w.findConfiguration given with
  | none => .ok .none
  | some path =>
    match w.contents? path with
    | some text => .ok (Configuration.read text path)
    | none =>
      if w.isDirectory path then .error .isDirectory
      else .ok ⟨some path, {}, [], [missingFile path]⟩

end Workspace

end Calculator
