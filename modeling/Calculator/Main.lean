import Calculator.CommandLine.Run

/-!
The program: reads what an invocation needs from the outside, and writes what the run comes to.
-/
namespace Calculator.Console

/-- The file at a path with its contents, if it can be read as text. -/
def readText? (path : String) : IO (Option (Text × Text)) := do
  try
    let contents ← IO.FS.readFile path
    return some (Text.ofString path, Text.ofString contents)
  catch _ => return none

/-- The configuration files that the run may look for. -/
def readConfigurations (directory : Text) (given : Option Text) : IO (List (Text × Text)) :=
  (given.toList ++ configurationNames).filterMapM fun name =>
    readText? (Path.resolve directory name).toString

/-- All files below the working directory, other than those of installed packages. -/
def readFiles : IO (List (Text × Text)) := do
  let paths ← (← IO.currentDir).walkDir fun path => pure (path.fileName != some "node_modules")
  paths.toList.filterMapM fun path => readText? path.toString

end Calculator.Console

open Calculator CommandLine Console

def main (arguments : List String) : IO UInt32 := do
  let start ← IO.monoMsNow
  let stdout ← IO.getStdout
  let arguments := arguments.map Text.ofString
  let directory := Text.ofString (← IO.currentDir).toString
  let (input, files) ← match read arguments with
    | .error _ => pure ([], [])
    | .ok i => do
      let input ← if i.readsInput then (← IO.getStdin).readToEnd else pure ""
      let named ← if i.readsFiles then readFiles else pure []
      pure (Text.ofString input, (← readConfigurations directory i.choices.config) ++ named)
  let result := run
    { version := "0.3.0"
      arguments := arguments
      input := input
      workspace := ⟨directory, files⟩
      noColor := (← IO.getEnv "NO_COLOR").map Text.ofString
      forceColor := (← IO.getEnv "FORCE_COLOR").map Text.ofString
      terminal := ← stdout.isTty
      elapsed := .ofNat ((← IO.monoMsNow) - start) }
  stdout.putStr result.output.toString
  stdout.flush
  (← IO.getStderr).putStr result.errors.toString
  return result.exitCode.toUInt32
