import Calculator.Session.Session
import Calculator.Text.Blank

/-!
Evaluating many expressions, one after the other or all at once, with a time limit for each. A stalled
evaluation never finishes: it is cut off at the limit or, where there is none, holds up the batch for
ever, which is `none`.
-/
namespace Calculator

inductive BatchMode where
  | sequential
  | concurrent
  deriving DecidableEq

structure BatchEntry where
  index : Nat
  expression : Text
  result : Evaluation

structure BatchSummary where
  total : Nat
  passed : Nat
  failed : Nat
  deriving DecidableEq

/-- The session, the limit in milliseconds if one is set, and which positions never finish. -/
structure Batch where
  session : Session
  limit : Option Binary64
  stalled : Nat → Bool

/-- A limit that is not positive is none. -/
def effectiveLimit? (limit : Option Binary64) : Option Binary64 :=
  limit.filter fun ms => Binary64.less 0 ms

def timeoutEvaluation (expression : Text) (ms : Binary64) : Evaluation :=
  ⟨expression, normalize expression, .error (.timedOut ms)⟩

/-- The result of a pending evaluation, `none` if it never finishes, under a limit. -/
def withLimit (pending : Option Evaluation) (expression : Text) (limit : Option Binary64) :
    Option Evaluation :=
  match pending with
  | some e => some e
  | none => (effectiveLimit? limit).map (timeoutEvaluation expression)

namespace Batch

def settle (b : Batch) (index : Nat) (expression : Text) : Option Evaluation :=
  withLimit (if b.stalled index then none else some (b.session.evaluate expression)) expression b.limit

/-- One expression after the other, from the given position on. -/
def sequentialFrom (b : Batch) (index : Nat) : List Text → Option (List BatchEntry)
  | [] => some []
  | expression :: rest =>
    match b.settle index expression with
    | none => none
    | some result =>
      match sequentialFrom b (index + 1) rest with
      | none => none
      | some entries => some (⟨index, expression, result⟩ :: entries)

/-- What can happen while a batch runs concurrently. -/
inductive Event where
  | finish (index : Nat)
  | expire (index : Nat)
  deriving DecidableEq

/-- The results that are in, by position. -/
abbrev Board := List (Option Evaluation)

def start (expressions : List Text) : Board :=
  expressions.map fun _ => none

/-- A pending evaluation finishes unless it is stalled; a stalled one is cut off at its limit. Any
other event changes nothing. -/
def step (b : Batch) (expressions : List Text) (board : Board) : Event → Board
  | .finish i =>
    match board[i]?, expressions[i]? with
    | some none, some expression =>
      if b.stalled i then board else board.set i (some (b.session.evaluate expression))
    | _, _ => board
  | .expire i =>
    match board[i]?, expressions[i]?, effectiveLimit? b.limit with
    | some none, some expression, some ms =>
      if b.stalled i then board.set i (some (timeoutEvaluation expression ms)) else board
    | _, _, _ => board

def run (b : Batch) (expressions : List Text) (events : List Event) : Board :=
  events.foldl (b.step expressions) (start expressions)

/-- Every result once all are in. -/
def collect : Board → Option (List Evaluation)
  | [] => some []
  | none :: _ => none
  | some e :: rest => (collect rest).map (e :: ·)

def label (index : Nat) : List Text → List Evaluation → List BatchEntry
  | expression :: rest, result :: results =>
    ⟨index, expression, result⟩ :: label (index + 1) rest results
  | _, _ => []

/-- The events of a batch in the order of its expressions. -/
def inOrder (b : Batch) (count : Nat) : List Event :=
  (List.range count).map fun i => if b.stalled i then .expire i else .finish i

def concurrent (b : Batch) (expressions : List Text) : Option (List BatchEntry) :=
  (collect (b.run expressions (b.inOrder expressions.length))).map (label 0 expressions)

def entries (b : Batch) (mode : BatchMode) (expressions : List Text) : Option (List BatchEntry) :=
  match mode with
  | .sequential => b.sequentialFrom 0 expressions
  | .concurrent => b.concurrent expressions

end Batch

def summarize (entries : List BatchEntry) : BatchSummary :=
  let passed := (entries.filter fun e => e.result.ok).length
  ⟨entries.length, passed, entries.length - passed⟩

/-- The expressions of a text: its lines without the white space around them, less those that are
empty or begin with a number sign. -/
def splitExpressions (text : Text) : List Text :=
  ((Text.splitLines text).map Text.trim).filter fun line => line ≠ [] ∧ line.head? ≠ some 0x23

end Calculator
