import Calculator.Settings.Settings

/-!
The commands of the program with their options and arguments.
-/
namespace Calculator.CommandLine

inductive Switch where
  | version
  | format
  | json
  | color
  | precision
  | angles
  | memory
  | config
  | profile
  | verbose
  | ast
  | concurrent
  | timeout
  deriving DecidableEq

/-- An option with its description. A flag that is off unless given says so in the usage text. -/
structure OptionSpec where
  switch : Switch
  short : Option Text := none
  long : Text
  argument : Option Text := none
  description : Text
  showsDefault : Bool := false

/-- The option as it is written, with its argument. -/
def OptionSpec.flags (o : OptionSpec) : Text :=
  (match o.short with
    | some short => short ++ ", "
    | none => []) ++ o.long ++
  (match o.argument with
    | some argument => " <" ++ argument ++ ">"
    | none => [])

/-- The arguments of a command; all that are given belong to it. -/
structure ArgumentSpec where
  name : Text
  required : Bool
  description : Text

def ArgumentSpec.term (a : ArgumentSpec) : Text :=
  if a.required then "<" ++ a.name ++ "...>" else "[" ++ a.name ++ "...]"

inductive Action where
  | eval
  | batch
  | repl
  deriving DecidableEq

structure CommandSpec where
  name : Text
  description : Text
  argument : Option ArgumentSpec
  options : List OptionSpec

/-- The options of the program itself, which may stand anywhere. -/
def globalOptions : List OptionSpec :=
  [ { switch := .version, short := some "-V", long := "--version"
      description := "output the version number" },
    { switch := .format, long := "--format", argument := some "pretty|plain|json|compact"
      description := "Output format (pretty, plain, json, compact)" },
    { switch := .json, long := "--json", description := "Shorthand for --format json"
      showsDefault := true },
    { switch := .color, long := "--color", argument := some "auto|always|never"
      description := "Color output (auto, always, never)" },
    { switch := .precision, long := "--precision", argument := some "digits"
      description := "Significant digits shown for results" },
    { switch := .angles, long := "--angles", argument := some "degrees|radians"
      description := "Angle unit for trigonometric functions" },
    { switch := .memory, long := "--memory", argument := some "value"
      description := "Initial memory value" },
    { switch := .config, long := "--config", argument := some "path"
      description := "Path to a config file (defaults to .safecalc.yml in the working directory)" },
    { switch := .profile, long := "--profile", argument := some "name"
      description := "Use a specific profile from the config file" },
    { switch := .verbose, long := "--verbose", description := "Print debug information to stderr"
      showsDefault := true } ]

def concurrentOption : OptionSpec :=
  { switch := .concurrent, long := "--concurrent"
    description := "Evaluate all expressions concurrently" }

def timeoutOption : OptionSpec :=
  { switch := .timeout, long := "--timeout", argument := some "ms"
    description := "Per-expression timeout in milliseconds" }

def Action.all : List Action := [.eval, .batch, .repl]

def Action.spec : Action → CommandSpec
  | eval =>
    { name := "eval"
      description := "Evaluate one or more expressions given as arguments"
      argument := some
        { name := "expressions", required := true
          description := "Expressions to evaluate, e.g. \"2 ^ 10\" \"sqrt(25) + fact(5)\"" }
      options :=
        [ { switch := .ast, long := "--ast"
            description := "Print the parsed syntax tree instead of evaluating", showsDefault := true },
          concurrentOption, timeoutOption ] }
  | batch =>
    { name := "batch"
      description :=
        "Evaluate expressions, one per line, from files (glob patterns allowed) or stdin"
      argument := some
        { name := "files", required := false
          description := "Files or glob patterns; reads stdin when omitted" }
      options := [concurrentOption, timeoutOption] }
  | repl =>
    { name := "repl"
      description := "Interactive prompt with memory store, recall and clear"
      argument := none
      options := [] }

def Action.named? (name : Text) : Option Action :=
  all.find? fun action => action.spec.name == name

end Calculator.CommandLine
