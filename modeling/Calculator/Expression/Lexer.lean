import Calculator.Expression.Token

/-!
Splitting a text into tokens. Spaces, tabs and line ends separate tokens and mean nothing else. The
scanner moves along the text one unit at a time; after a token it first passes the token's own units.
-/
namespace Calculator

inductive LexicalCause where
  | malformedNumber (text : Text)
  | unexpectedUnit (unit : CodeUnit)
  deriving DecidableEq

def LexicalCause.message : LexicalCause → Text
  | malformedNumber t => "Malformed number literal: '" ++ t ++ "'"
  | unexpectedUnit u => "Unexpected character: '" ++ [u] ++ "'"

structure LexicalError where
  cause : LexicalCause
  range : Span
  deriving DecidableEq

namespace Lexer

/-- The white space of expressions. -/
def isSpace (u : CodeUnit) : Bool :=
  u == 0x20 || u == 0x09 || u == 0x0A || u == 0x0D

def digitCount (t : Text) : Nat :=
  (t.takeWhile Text.isDigit).length

/-- Units of the digits, the point and the further digits at the front of a text. -/
def mantissaLength (t : Text) : Nat :=
  match t.drop (digitCount t) with
  | 0x2E :: rest => digitCount t + 1 + digitCount rest
  | _ => digitCount t

def signLength : Text → Nat
  | u :: _ => if u = 0x2B ∨ u = 0x2D then 1 else 0
  | [] => 0

inductive Extent where
  | whole (length : Nat)
  | malformed (length : Nat)
  deriving DecidableEq

/-- The exponent part at the front of a text, if one begins there: it needs a digit. -/
def exponentExtent : Text → Extent
  | [] => .whole 0
  | u :: rest =>
    if u = 0x65 ∨ u = 0x45 then
      let sign := signLength rest
      let digits := digitCount (rest.drop sign)
      if digits = 0 then .malformed (1 + sign) else .whole (1 + sign + digits)
    else .whole 0

/-- Units that would run a number on into more text. -/
def continuesNumber (u : CodeUnit) : Bool :=
  u == 0x2E || Text.isWordUnit u

/-- The number at the front of a text, or the extent of what is no number there. -/
def numberExtent (t : Text) : Extent :=
  let mantissa := mantissaLength t
  match exponentExtent (t.drop mantissa) with
  | .malformed n => .malformed (mantissa + n)
  | .whole n =>
    let tail := ((t.drop (mantissa + n)).takeWhile continuesNumber).length
    if tail = 0 then .whole (mantissa + n) else .malformed (mantissa + n + tail)

def startsNumber : Text → Bool
  | [] => false
  | u :: rest => Text.isDigit u || (u == 0x2E && (rest.head?.map Text.isDigit).getD false)

def punctuation? (u : CodeUnit) : Option Lexeme :=
  if u = 0x28 then some .leftParen
  else if u = 0x29 then some .rightParen
  else if u = 0x5B then some .leftBracket
  else if u = 0x5D then some .rightBracket
  else if u = 0x2C then some .comma
  else none

/-- The operator at the front of a text, two units before one. -/
def operator? (t : Text) : Option Operator :=
  Operator.all.find? fun op => op.symbol.isPrefixOf t

inductive Front where
  | found (lexeme : Lexeme)
  | wrong (cause : LexicalCause) (length : Nat)

/-- What stands at the front of a text that begins with no white space. -/
def front (t : Text) : Front :=
  if startsNumber t then
    match numberExtent t with
    | .whole n => .found (.number (t.take n))
    | .malformed n => .wrong (.malformedNumber (t.take n)) n
  else if (t.head?.map Text.isLetter).getD false then
    .found (.name (t.takeWhile Text.isWordUnit))
  else
    match operator? t with
    | some op => .found (.operator op)
    | none =>
      match t.head?.bind punctuation? with
      | some lexeme => .found lexeme
      | none => .wrong (.unexpectedUnit (t.headD 0)) 1

/-- Tokens of a text whose first unit has offset `start`; `passing` units of it belong to the token
before. -/
def scan : (start passing : Nat) → Text → Except LexicalError (List Token)
  | _, _, [] => .ok []
  | start, passing + 1, _ :: rest => scan (start + 1) passing rest
  | start, 0, u :: rest =>
    if isSpace u then scan (start + 1) 0 rest
    else
      match front (u :: rest) with
      | .wrong cause length => .error ⟨cause, start, start + length⟩
      | .found lexeme =>
        match scan (start + 1) (lexeme.text.length - 1) rest with
        | .ok tokens => .ok (⟨lexeme, start, start + lexeme.text.length⟩ :: tokens)
        | .error e => .error e

end Lexer

/-- The tokens of a text, from left to right. -/
def tokenize (t : Text) : Except LexicalError (List Token) :=
  Lexer.scan 0 0 t

end Calculator
