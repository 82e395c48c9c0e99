import Calculator.CommandLine.Command
import Calculator.Text.Blank

/-!
Usage texts: terms in one column and their descriptions in another, broken into lines of eighty columns.
-/
namespace Calculator.CommandLine.Usage

def lineWidth : Nat := 80

/-- Puts words on lines of at most the given width, as many on each as fit. -/
def fill (width : Nat) : (line : Text) → List Text → List Text
  | line, [] => [line]
  | line, word :: rest =>
    if line = [] then fill width word rest
    else if line.length + 1 + word.length ≤ width then fill width (line ++ " " ++ word) rest
    else line :: fill width word rest

/-- Breaks a text for a column of the given width; the last column stays free. -/
def wrap (columns : Nat) (t : Text) : List Text :=
  fill (columns - 1) [] (Text.splitBlanks t)

def spaces (n : Nat) : Text :=
  List.replicate n 0x20

/-- A term and its description, in columns; `width` is the longest term. -/
def item (width : Nat) (term description : Text) : List Text :=
  let indent := 2 + width + 2
  match wrap (lineWidth - indent) description with
  | [] => [spaces 2 ++ term]
  | first :: rest =>
    (spaces 2 ++ term ++ spaces (width + 2 - term.length) ++ first) :: rest.map (spaces indent ++ ·)

/-- A headed list of terms, with an empty line behind it; nothing at all without terms. -/
def table (heading : Text) (width : Nat) (items : List (Text × Text)) : List Text :=
  if items = [] then []
  else [heading ++ ":"] ++ items.flatMap (fun (term, description) => item width term description) ++ [[]]

def optionDescription (o : OptionSpec) : Text :=
  o.description ++ (if o.showsDefault then (" (default: false)" : Text) else [])

def optionItems (options : List OptionSpec) : List (Text × Text) :=
  options.map (fun o => (o.flags, optionDescription o))
    ++ [(("-h, --help" : Text), ("display help for command" : Text))]

def commandTerm (c : CommandSpec) : Text :=
  c.name ++ (if c.options.isEmpty then [] else (" [options]" : Text)) ++
  (match c.argument with
    | some a => " " ++ a.term
    | none => [])

def commandItems : List (Text × Text) :=
  Action.all.map (fun action => (commandTerm action.spec, action.spec.description))
    ++ [(("help [command]" : Text), ("display help for command" : Text))]

def longest (items : List (Text × Text)) : Nat :=
  items.foldl (fun n (term, _) => max n term.length) 0

/-- The usage text of the program. -/
def program : Text :=
  let options := optionItems globalOptions
  let width := longest (options ++ commandItems)
  Text.join "\n" ([("Usage: safecalc [options] [command]" : Text), []]
    ++ wrap lineWidth
      "Sandboxed calculator: evaluates arithmetic expressions against a fixed allow-list of functions"
    ++ [[]] ++ table "Options" width options ++ table "Commands" width commandItems)

/-- The usage text of a command. -/
def command (action : Action) : Text :=
  let c := action.spec
  let arguments := c.argument.toList.map fun a => (a.name, a.description)
  let options := optionItems c.options
  let width := longest (arguments ++ options)
  let term : Text := " [options]" ++
    (match c.argument with
      | some a => " " ++ a.term
      | none => [])
  Text.join "\n" (["Usage: safecalc " ++ c.name ++ term, []] ++ wrap lineWidth c.description ++ [[]]
    ++ table "Arguments" width arguments ++ table "Options" width options)

end Calculator.CommandLine.Usage
