import Calculator.Number.Decimal
import Calculator.Expression.Lexer
import Calculator.Expression.Syntax

/-!
Reading an expression by precedence climbing. Nesting and the depth of the tree are both limited: the
first bounds this reader's own recursion, the second the recursion over the finished tree, which long
chains of operators build without nesting.
-/
namespace Calculator

inductive SyntaxCause where
  | lexical (cause : LexicalCause)
  | empty
  | unexpectedEnd
  | unexpected (lexeme : Lexeme)
  | trailing (lexeme : Lexeme)
  | numberOutOfRange (raw : Text)
  | unclosedArguments
  | unclosedGroup
  | unclosedList
  | tooDeep
  deriving DecidableEq

def SyntaxCause.message : SyntaxCause → Text
  | lexical cause => cause.message
  | empty => "Empty expression"
  | unexpectedEnd => "Unexpected end of expression"
  | unexpected lexeme => "Unexpected " ++ lexeme.describe
  | trailing .rightParen => "Unbalanced parentheses: unexpected \")\""
  | trailing lexeme => "Unexpected " ++ lexeme.describe ++ " after expression"
  | numberOutOfRange raw => "Number literal out of range: '" ++ raw ++ "'"
  | unclosedArguments => "Unbalanced parentheses: expected \")\" after function arguments"
  | unclosedGroup => "Unbalanced parentheses: expected \")\""
  | unclosedList => "Unbalanced brackets: expected \"]\""
  | tooDeep => "Expression nested too deeply"

structure SyntaxError where
  cause : SyntaxCause
  range : Span
  deriving DecidableEq

namespace Parser

/-- Deepest nesting of groups, arguments, elements, signs and right operands. -/
def maxNesting : Nat := 500

/-- Deepest tree. -/
def maxDepth : Nat := 4000

/-- What was read, and the tokens behind it. -/
abbrev Reading (α : Type) := Except SyntaxError (α × List Token)

/-- The place of the next token, or the empty place at the end of the text. -/
def place (stop : Nat) : List Token → Span
  | [] => ⟨stop, stop⟩
  | token :: _ => token.range

def fail {α : Type} (stop : Nat) (cause : SyntaxCause) (tokens : List Token) : Except SyntaxError α :=
  .error ⟨cause, place stop tokens⟩

/-- Lets a new node pass unless the tree has become too deep. -/
def accept (stop : Nat) (node : Expr) (rest : List Token) : Reading Expr :=
  if maxDepth < node.depth then fail stop .tooDeep rest else .ok (node, rest)

/-- The end of a closing token's range, if the next token is one. -/
def closing? (lexeme : Lexeme) : List Token → Option (Nat × List Token)
  | token :: rest => if token.lexeme = lexeme then some (token.range.stop, rest) else none
  | [] => none

/-- Expressions with commas between them, up to a closing token; one comma may follow the last. -/
def items (operand : List Token → Reading Expr) (closing : Lexeme) :
    Nat → List Token → Reading (List Expr)
  | 0, tokens => .ok ([], tokens)
  | fuel + 1, tokens =>
    if (closing? closing tokens).isSome then .ok ([], tokens)
    else
      match operand tokens with
      | .error e => .error e
      | .ok (item, rest) =>
        match closing? .comma rest with
        | none => .ok ([item], rest)
        | some (_, rest) =>
          match items operand closing fuel rest with
          | .error e => .error e
          | .ok (more, rest) => .ok (item :: more, rest)

/-- Items and the token that closes them. -/
def closedItems (operand : List Token → Reading Expr) (stop : Nat) (closing : Lexeme)
    (missing : SyntaxCause) (tokens : List Token) : Reading (List Expr × Nat) :=
  match items operand closing (tokens.length + 1) tokens with
  | .error e => .error e
  | .ok (elements, rest) =>
    match closing? closing rest with
    | none => fail stop missing rest
    | some (last, rest) => .ok ((elements, last), rest)

/-- A number, a name, a call, a group, a list, or a sign with its operand. -/
def primary (operand : Nat → List Token → Reading Expr) (stop : Nat) : List Token → Reading Expr
  | [] => fail stop .unexpectedEnd []
  | ⟨.number raw, range⟩ :: rest =>
    if (Binary64.ofText raw).isFinite then .ok (.number (.ofText raw) raw range, rest)
    else .error ⟨.numberOutOfRange raw, range⟩
  | ⟨.name text, range⟩ :: rest =>
    match closing? .leftParen rest with
    | none => .ok (.name text range, rest)
    | some (_, inner) =>
      match closedItems (operand 1) stop .rightParen .unclosedArguments inner with
      | .error e => .error e
      | .ok ((args, last), rest) => accept stop (.call text args ⟨range.start, last⟩) rest
  | ⟨.leftParen, _⟩ :: rest =>
    match operand 1 rest with
    | .error e => .error e
    | .ok (inner, rest) =>
      match closing? .rightParen rest with
      | none => fail stop .unclosedGroup rest
      | some (_, rest) => .ok (inner, rest)
  | ⟨.leftBracket, range⟩ :: rest =>
    match closedItems (operand 1) stop .rightBracket .unclosedList rest with
    | .error e => .error e
    | .ok ((elements, last), rest) => accept stop (.list elements ⟨range.start, last⟩) rest
  | ⟨.operator .minus, range⟩ :: rest =>
    match operand Operator.signLevel rest with
    | .error e => .error e
    | .ok (inner, rest) => accept stop (.unary .minus inner ⟨range.start, inner.range.stop⟩) rest
  | ⟨.operator .plus, range⟩ :: rest =>
    match operand Operator.signLevel rest with
    | .error e => .error e
    | .ok (inner, rest) => accept stop (.unary .plus inner ⟨range.start, inner.range.stop⟩) rest
  | ⟨lexeme, range⟩ :: _ => .error ⟨.unexpected lexeme, range⟩

/-- Extends a left operand by the operators of at least the given level that follow it. -/
def climb (operand : Nat → List Token → Reading Expr) (stop level : Nat) :
    Nat → Expr → List Token → Reading Expr
  | 0, left, tokens => .ok (left, tokens)
  | _ + 1, left, [] => .ok (left, [])
  | fuel + 1, left, token :: rest =>
    match token.lexeme with
    | .operator op =>
      if op.level < level then .ok (left, token :: rest)
      else
        match operand op.rightLevel rest with
        | .error e => .error e
        | .ok (right, rest) =>
          match accept stop (.binary (.known op) left right ⟨left.range.start, right.range.stop⟩) rest with
          | .error e => .error e
          | .ok (node, rest) => climb operand stop level fuel node rest
    | _ => .ok (left, token :: rest)

/-- An expression whose operators have at least the given level; `room` more levels of nesting are
left. -/
def expression (stop : Nat) : (room level : Nat) → List Token → Reading Expr
  | 0, _, tokens => fail stop .tooDeep tokens
  | room + 1, level, tokens =>
    match primary (expression stop room) stop tokens with
    | .error e => .error e
    | .ok (left, rest) => climb (expression stop room) stop level rest.length left rest

/-- Reads a whole token list; `stop` is the length of the text. -/
def whole (stop : Nat) (tokens : List Token) : Except SyntaxError Expr :=
  match tokens with
  | [] => fail stop .empty []
  | _ =>
    match expression stop maxNesting 1 tokens with
    | .error e => .error e
    | .ok (e, []) => .ok e
    | .ok (_, token :: _) => .error ⟨.trailing token.lexeme, token.range⟩

end Parser

/-- Reads a text as an expression. -/
def parse (t : Text) : Except SyntaxError Expr :=
  match tokenize t with
  | .error e => .error ⟨.lexical e.cause, e.range⟩
  | .ok tokens => Parser.whole t.length tokens

end Calculator
