import Calculator.Text.Units

/-!
Terminal styles. A style opens in front of each line of a text and closes behind it, so that it never
reaches over a line end; an empty text stays empty.
-/
namespace Calculator

inductive Style where
  | red
  | green
  | yellow
  | cyan
  | gray
  | bold
  | dim
  deriving DecidableEq

namespace Style

def openCode : Style → Text
  | red => "31"
  | green => "32"
  | yellow => "33"
  | cyan => "36"
  | gray => "90"
  | bold => "1"
  | dim => "2"

def closeCode : Style → Text
  | bold => "22"
  | dim => "22"
  | _ => "39"

def sequence (code : Text) : Text :=
  0x1B :: 0x5B :: code ++ "m"

def opening (s : Style) : Text := sequence s.openCode

def closing (s : Style) : Text := sequence s.closeCode

/-- Opens the style again wherever the text itself closes it; `passing` units belong to a closing
sequence already replaced. -/
def reopen (s : Style) : (passing : Nat) → Text → Text
  | _, [] => []
  | passing + 1, _ :: rest => reopen s passing rest
  | 0, u :: rest =>
    if s.closing.isPrefixOf (u :: rest) then s.opening ++ reopen s (s.closing.length - 1) rest
    else u :: reopen s 0 rest

/-- Closes the style before each line end and opens it behind. -/
def acrossLines (s : Style) : Text → Text
  | [] => []
  | 0x0D :: 0x0A :: rest => s.closing ++ [0x0D, 0x0A] ++ s.opening ++ acrossLines s rest
  | 0x0A :: rest => s.closing ++ [0x0A] ++ s.opening ++ acrossLines s rest
  | u :: rest => u :: acrossLines s rest

def paint (s : Style) (t : Text) : Text :=
  if t = [] then [] else s.opening ++ acrossLines s (reopen s 0 t) ++ s.closing

end Style

end Calculator
