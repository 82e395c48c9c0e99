import Calculator.CommandLine.Command
import Calculator.CommandLine.Suggestion

/-!
Reading the command line: which action it asks for, with which settings, or why it cannot be carried out.
-/
namespace Calculator.CommandLine

/-- What the options say. -/
structure Choices where
  settings : PartialSettings := {}
  json : Bool := false
  verbose : Bool := false
  ast : Bool := false
  config : Option Text := none
  profile : Option Text := none
  deriving DecidableEq

inductive UsageError where
  | missingValue (o : OptionSpec)
  | invalidValue (o : OptionSpec) (value : Text) (problem : SettingProblem)
  | unknownOption (flag : Text) (known : List Text)
  | unknownCommand (name : Text)
  | missingArgument (name : Text)

def UsageError.message : UsageError → Text
  | missingValue o => "error: option '" ++ o.flags ++ "' argument missing"
  | invalidValue o value problem =>
    "error: option '" ++ o.flags ++ "' argument '" ++ value ++ "' is invalid. " ++ problem.message
  | unknownOption flag known =>
    "error: unknown option '" ++ flag ++ "'" ++ Suggestion.forOption flag known
  | unknownCommand name =>
    "error: unknown command '" ++ name ++ "'"
      ++ Suggestion.forWord name (Action.all.map (fun action => action.spec.name) ++ [("help" : Text)])
  | missingArgument name => "error: missing required argument '" ++ name ++ "'"

/-- An action with its operands. -/
structure Invocation where
  action : Action
  operands : List Text
  choices : Choices

/-- Whether the action reads the standard input. -/
def Invocation.readsInput (i : Invocation) : Bool :=
  i.action == .repl || (i.action == .batch && i.operands.isEmpty)

/-- Whether the action reads files that patterns name. -/
def Invocation.readsFiles (i : Invocation) : Bool :=
  i.action == .batch && !i.operands.isEmpty

/-- What is done instead of an action. `noAction` shows the usage text as an error. -/
inductive Detour where
  | showVersion
  | help (action : Option Action)
  | noAction
  | refused (e : UsageError)

namespace Choices

/-- The name of the setting that an option gives a value to. -/
def settingName? : Switch → Option Text
  | .format => some "format"
  | .color => some "color"
  | .precision => some "precision"
  | .angles => some "angles"
  | .memory => some "memory"
  | .timeout => some "timeout"
  | _ => none

/-- Takes note of an option with a value. -/
def setValue (c : Choices) (o : OptionSpec) (value : Text) : Except Detour Choices :=
  match settingName? o.switch with
  | some name =>
    match c.settings.apply name (.text value) with
    | .ok settings => .ok { c with settings := settings }
    | .error problem => .error (.refused (.invalidValue o value problem))
  | none =>
    if o.switch = .config then .ok { c with config := some value }
    else .ok { c with profile := some value }

/-- Takes note of an option without a value. -/
def setFlag (c : Choices) (o : OptionSpec) : Except Detour Choices :=
  match o.switch with
  | .version => .error .showVersion
  | .json => .ok { c with json := true }
  | .verbose => .ok { c with verbose := true }
  | .ast => .ok { c with ast := true }
  | _ => .ok { c with settings := { c.settings with concurrent := some true } }

end Choices

/-- Arguments sorted into operands and, from the first unknown option on, what is left for later. -/
structure Sorted where
  operands : List Text := []
  unknown : List Text := []
  choices : Choices

/-- A dash and more. -/
def looksLikeOption (arg : Text) : Bool :=
  1 < arg.length && arg.head? == some 0x2D

def findOption (options : List OptionSpec) (arg : Text) : Option OptionSpec :=
  options.find? fun o => o.long == arg || o.short == some arg

/-- A short option that further units follow in the same argument. -/
def findCluster (options : List OptionSpec) (arg : Text) : Option OptionSpec :=
  match arg with
  | 0x2D :: u :: _ :: _ => if u = 0x2D then none else findOption options [0x2D, u]
  | _ => none

/-- An option and its value in one argument, with an equals sign between them. -/
def findAssigned (options : List OptionSpec) (arg : Text) : Option (OptionSpec × Text) :=
  let name := arg.takeWhile (· != 0x3D)
  if ("--" : Text).isPrefixOf name && 2 < name.length && name.length < arg.length then
    ((findOption options name).filter fun o => o.argument.isSome).map fun o =>
      (o, arg.drop (name.length + 1))
  else none

/-- Adds an argument to the operands, or behind an unknown option to the rest. -/
def Sorted.add (s : Sorted) (arg : Text) : Sorted :=
  if looksLikeOption arg || !s.unknown.isEmpty then { s with unknown := s.unknown ++ [arg] }
  else { s with operands := s.operands ++ [arg] }

/-- Everything behind two dashes is an operand. -/
def Sorted.addAll (s : Sorted) (args : List Text) : Sorted :=
  if s.unknown.isEmpty then { s with operands := s.operands ++ args }
  else { s with unknown := s.unknown ++ ("--" : Text) :: args }

/-- Sorts arguments by the known options. -/
def sort (options : List OptionSpec) : List Text → Sorted → Except Detour Sorted
  | [], s => .ok s
  | arg :: rest, s =>
    if arg = "--" then .ok (s.addAll rest)
    else
      match findOption options arg, findCluster options arg, findAssigned options arg with
      | some o, _, _ =>
        if o.argument.isSome then
          match rest with
          | [] => .error (.refused (.missingValue o))
          | value :: rest =>
            match s.choices.setValue o value with
            | .error e => .error e
            | .ok choices => sort options rest { s with choices := choices }
        else
          match s.choices.setFlag o with
          | .error e => .error e
          | .ok choices => sort options rest { s with choices := choices }
      | none, some o, _ =>
        match s.choices.setFlag o with
        | .error e => .error e
        | .ok choices => sort options rest { s with choices := choices }
      | none, none, some (o, value) =>
        match s.choices.setValue o value with
        | .error e => .error e
        | .ok choices => sort options rest { s with choices := choices }
      | none, none, none => sort options rest (s.add arg)

def asksForHelp (args : List Text) : Bool :=
  args.any fun arg => arg == ("-h" : Text) || arg == ("--help" : Text)

def longFlags (options : List OptionSpec) : List Text :=
  options.map OptionSpec.long ++ [("--help" : Text)]

/-- Reads the arguments of an action: operands that are known already, and what the program's own options
left over. -/
def readAction (action : Action) (operands unknown : List Text) (choices : Choices) :
    Except Detour Invocation :=
  let spec := action.spec
  match sort spec.options unknown { choices := choices } with
  | .error e => .error e
  | .ok s =>
    let operands := operands ++ s.operands
    if asksForHelp s.unknown then .error (.help (some action))
    else
      match s.unknown.head?, operands, spec.argument with
      | some flag, _, _ =>
        .error (.refused (.unknownOption flag (longFlags spec.options ++ longFlags globalOptions)))
      | none, [], some a =>
        if a.required then .error (.refused (.missingArgument a.name))
        else .ok ⟨action, [], s.choices⟩
      | none, _, _ => .ok ⟨action, operands, s.choices⟩

/-- Reads a command line. -/
def read (args : List Text) : Except Detour Invocation :=
  match sort globalOptions args { choices := {} } with
  | .error e => .error e
  | .ok s =>
    match s.operands with
    | [] =>
      match s.unknown with
      | [] => .error .noAction
      | flag :: _ =>
        if asksForHelp s.unknown then .error (.help none)
        else .error (.refused (.unknownOption flag (longFlags globalOptions)))
    | name :: operands =>
      match Action.named? name with
      | some action => readAction action operands s.unknown s.choices
      | none =>
        if name = "help" then
          match operands with
          | [] => .error (.help none)
          | command :: _ =>
            if command = [] then .error (.help none)
            else
              match Action.named? command with
              | some action => .error (.help (some action))
              | none => .error .noAction
        else if asksForHelp s.unknown then .error (.help none)
        else .error (.refused (.unknownCommand name))

end Calculator.CommandLine
