import Calculator.CommandLine.Arguments
import Calculator.CommandLine.Outcome
import Calculator.CommandLine.Usage
import Calculator.Settings.Lookup

/-!
A whole run of the program: from arguments, input and files to what is written and the exit code.
-/
namespace Calculator.CommandLine

structure Environment where
  version : Text
  arguments : List Text
  /-- All of the standard input. -/
  input : Text
  workspace : Workspace
  noColor : Option Text
  forceColor : Option Text
  /-- Whether the output is a terminal. -/
  terminal : Bool
  /-- Milliseconds since the start. -/
  elapsed : Binary64

structure Output where
  output : Text
  errors : Text
  exitCode : Nat

namespace Environment

def hasArgument (e : Environment) (names : List Text) : Bool :=
  e.arguments.any fun arg => names.contains arg

/-- Whether the terminal shows styles at all: an objection counts before a demand. -/
def showsStyles (e : Environment) : Bool :=
  let objection := (e.noColor.map (· != [])).getD false
    || e.forceColor == some ("0" : Text) || e.forceColor == some ("false" : Text)
    || e.hasArgument ["--no-color", "--color=never", "--color=false"]
  let demand := e.forceColor.isSome
    || e.hasArgument ["--color", "--color=", "--color=true", "--color=always"]
  !objection && (demand || e.terminal)

def reporter (e : Environment) (s : Settings) (verbose : Bool) : Reporter :=
  let color : ColorSetting := ⟨s.color, e.noColor.isSome, e.forceColor.isSome, e.terminal⟩
  { format := s.format
    colored := color.decide s.format && e.showsStyles
    precision := s.precision.map Binary64.toInt
    verbose := verbose
    elapsed := e.elapsed }

end Environment

namespace Output

/-- What the lines of the given channels come to. -/
def write (channels : List Channel) (lines : List Line) : Text :=
  (lines.filter fun l => channels.contains l.channel).flatMap fun l => l.text ++ "\n"

def ofOutcome (o : Outcome) : Output :=
  ⟨write [.log] o.lines, write [.warn, .error] o.lines, o.exitCode⟩

/-- A failure of the program itself. -/
def ofFailure (message : Text) : Output :=
  ⟨[], message ++ "\n", 1⟩

def ofDetour (version : Text) : Detour → Output
  | .showVersion => ⟨version ++ "\n", [], 0⟩
  | .help none => ⟨Usage.program, [], 0⟩
  | .help (some action) => ⟨Usage.command action, [], 0⟩
  | .noAction => ⟨[], Usage.program, 1⟩
  | .refused e => ofFailure e.message

end Output

/-- The settings that the options override. -/
def Choices.overrides (c : Choices) : PartialSettings :=
  if c.json then { c.settings with format := some .json } else c.settings

/-- Carries out an action under its settings. -/
def perform (e : Environment) (i : Invocation) (s : Settings) (r : Reporter) :
    Except TaskError Outcome :=
  match i.action with
  | .eval =>
    if i.choices.ast then .ok (.ofTrees s.session r i.operands) else Outcome.ofExpressions s r i.operands
  | .batch =>
    if i.operands = [] then Outcome.ofBatch s r e.version (splitExpressions e.input)
    else Outcome.ofFiles s r e.version e.workspace i.operands
  | .repl => Outcome.ofPrompt s r e.input

/-- What is printed before an action: where the configuration is from, and what is wrong with it. -/
def preamble (r : Reporter) (config : LoadedConfig) (problems : List Diagnostic) : List Line :=
  (match config.file with
    | some path => r.printDebug ("config: " ++ path)
    | none => []) ++
  (config.diagnostics ++ problems).flatMap r.printDiagnostic

def invoke (e : Environment) (i : Invocation) : Output :=
  match e.workspace.loadConfiguration i.choices.config with
  | .error problem => .ofFailure problem.message
  | .ok config =>
    let (s, problems) := resolveLayers config i.choices.profile i.choices.overrides
    let r := e.reporter s i.choices.verbose
    let first := preamble r config problems
    match perform e i s r with
    | .ok outcome => .ofOutcome ⟨first ++ outcome.lines, outcome.exitCode⟩
    | .error problem =>
      let before := Output.ofOutcome ⟨first, 1⟩
      { before with errors := before.errors ++ problem.message ++ "\n" }

def run (e : Environment) : Output :=
  match read e.arguments with
  | .error detour => .ofDetour e.version detour
  | .ok i => invoke e i

end Calculator.CommandLine
