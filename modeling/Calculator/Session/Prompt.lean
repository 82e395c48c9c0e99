import Calculator.Report.Reporter

/-!
The prompt: each line is an expression or, after a colon, a command. A line yields what to show, or why
nothing can be shown, and in either case the state after it.
-/
namespace Calculator

structure PromptState where
  session : Session
  /-- The value of the last expression that had one. -/
  last : Option Binary64

structure PromptReply where
  output : Option Text
  exit : Bool

inductive PromptError where
  | display (e : Binary64.DisplayError)
  | store (e : StoreError)
  deriving DecidableEq

def PromptError.message : PromptError → Text
  | display e => e.message
  | store e => e.message

/-- What a line comes to. The state is the one after the line even if there is no reply. -/
structure PromptTurn where
  reply : Except PromptError PromptReply
  state : PromptState

inductive Command where
  | quit
  | help
  | names
  | store (argument : Text)
  | recall
  | clear
  | unknown (name : Text)
  deriving DecidableEq

inductive PromptLine where
  | blank
  | expression (text : Text)
  | command (c : Command)
  deriving DecidableEq

namespace Prompt

def help : Text :=
  Text.join "\n"
    [ "Enter an expression such as 3 * (4 + 5) or sqrt(25) + fact(5).",
      "Use ^ or ** for powers and mem (or mem()) for the stored memory value.",
      "",
      "Commands:",
      "  :store          Store the last result in memory",
      "  :store <expr>   Evaluate <expr> and store it in memory",
      "  :recall         Show the memory value",
      "  :clear          Reset memory to 0",
      "  :names          List available constants and functions",
      "  :help           Show this help",
      "  :quit           Exit" ]

/-- The command of a line, given what stands behind the colon. The words of an argument are joined by
single spaces. -/
def readCommand (t : Text) : Command :=
  match Text.splitBlanks t with
  | [] => .unknown []
  | name :: words =>
    if name = "q" ∨ name = "quit" ∨ name = "exit" then .quit
    else if name = "help" ∨ name = "h" then .help
    else if name = "names" then .names
    else if name = "store" then .store (Text.join [0x20] words)
    else if name = "recall" then .recall
    else if name = "clear" then .clear
    else .unknown name

def readLine (line : Text) : PromptLine :=
  match line.trim with
  | [] => .blank
  | 0x3A :: rest => .command (readCommand rest)
  | t => .expression t

def show? (output : Text) : PromptReply := ⟨some output, false⟩

/-- A reply with a text that may be refused. -/
def showing (output : Except Binary64.DisplayError Text) : Except PromptError PromptReply :=
  (output.map show?).mapError .display

def catalogLine (c : CatalogEntry) : Text :=
  "  " ++ c.name ++ (if c.entry.isFunction then "()" else "") ++ "  " ++ c.description

/-- A result with the place of its failure below it, if there is one to point at. -/
def withContext (r : Reporter) (record : ResultRecord) (shown : Text) : Text :=
  match r.formatContext record with
  | some context => if context = [] then shown else shown ++ "\n" ++ context
  | none => shown

/-- An expression is evaluated and, if it has a value, remembered. -/
def evaluate (r : Reporter) (s : PromptState) (text : Text) : PromptTurn :=
  let e := s.session.evaluate text
  { reply := showing ((r.formatResult e.record none).map (withContext r e.record))
    state := match e.outcome with
      | .ok x => { s with last := some x }
      | .error _ => s }

/-- Stores a number and says so. -/
def storeNumber (r : Reporter) (s : PromptState) (x : Binary64) : PromptTurn :=
  match s.session.store x with
  | .error e => ⟨.error (.store e), s⟩
  | .ok session =>
    { reply := showing ((r.formatValue x).map fun shown => "Stored " ++ shown ++ " into memory.")
      state := { s with session := session } }

/-- Stores the last result, or evaluates the argument first and stores its value. -/
def store (r : Reporter) (s : PromptState) (argument : Text) : PromptTurn :=
  if argument = [] then
    match s.last with
    | none => ⟨.ok (show? "No last result to store. Evaluate something first."), s⟩
    | some x => storeNumber r s x
  else
    let e := s.session.evaluate argument
    match e.outcome with
    | .error _ => ⟨showing (r.formatResult e.record none), s⟩
    | .ok x => storeNumber r { s with last := some x } x

def run (r : Reporter) (s : PromptState) : Command → PromptTurn
  | .quit => ⟨.ok ⟨none, true⟩, s⟩
  | .help => ⟨.ok (show? help), s⟩
  | .names => ⟨.ok (show? (Text.join "\n" (s.session.catalog.map catalogLine))), s⟩
  | .store argument => store r s argument
  | .recall => ⟨showing ((r.formatValue s.session.memory).map fun shown => "Memory: " ++ shown), s⟩
  | .clear => ⟨.ok (show? "Memory cleared."), { s with session := s.session.clear }⟩
  | .unknown name =>
    ⟨.ok (show? ("Unknown command \":" ++ name ++ "\". Type :help for a list of commands.")), s⟩

/-- Handles one input line. -/
def process (r : Reporter) (s : PromptState) (line : Text) : PromptTurn :=
  match readLine line with
  | .blank => ⟨.ok ⟨none, false⟩, s⟩
  | .expression text => evaluate r s text
  | .command c => run r s c

/-- Line ends of the prompt: a line feed, a carriage return or both, and the two Unicode separators. The
last line counts if there is anything on it. -/
def splitLines : Text → List Text
  | [] => []
  | 0x0D :: 0x0A :: rest => [] :: splitLines rest
  | u :: rest =>
    if u = 0x0A ∨ u = 0x0D ∨ u = 0x2028 ∨ u = 0x2029 then [] :: splitLines rest
    else
      match rest with
      | [] => [[u]]
      | _ => Text.prependToHead u (splitLines rest)

/-- Answers lines until one asks to quit; a reply without text prints nothing. -/
def answerAll (r : Reporter) : PromptState → List Text → Except PromptError (List Line)
  | _, [] => .ok []
  | s, line :: rest =>
    let turn := process r s line
    match turn.reply with
    | .error e => .error e
    | .ok reply =>
      let shown := match reply.output with
        | some (u :: t) => [Reporter.log (u :: t)]
        | _ => []
      if reply.exit then .ok shown
      else (answerAll r turn.state rest).map (shown ++ ·)

end Prompt

end Calculator
