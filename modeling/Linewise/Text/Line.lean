import Linewise.Text.ByteOffset

/-!
# Lines of a source text

A line is a maximal run of characters up to and with its line feed; the last
line of a text may go without one.  A byte position belongs to the line that
holds it.  The position just behind the text belongs to its last line, or, when
the text is empty or ends with a line feed, to the empty line that follows.
-/

namespace Linewise
namespace Text

def lines : List Char -> List (List Char)
  | [] => []
  | c :: cs =>
      if c = '\n' then
        [c] :: lines cs
      else
        match lines cs with
        | [] => [[c]]
        | line :: rest => (c :: line) :: rest

/-- Where a position stands in a text: the number of its line, counted from one,
the text of that line, and the bytes before the position in it. -/
structure Place where
  number : Nat
  text : String
  column : Nat
deriving DecidableEq

/-- Whether a position, counted from the start of a line, belongs to that line. -/
def holds (line : List Char) (position : Nat) : Bool :=
  decide (position < byteLength line) ||
    (position == byteLength line && line.getLast? != some '\n')

/-- Looks a position up in lines that are numbered from `number` on. -/
def placeFrom (number : Nat) : List (List Char) -> Nat -> Option Place
  | [], position =>
      if position = 0 then some { number := number, text := "", column := 0 } else none
  | line :: rest, position =>
      if holds line position then
        some { number := number, text := String.ofList line, column := position }
      else if byteLength line <= position then
        placeFrom (number + 1) rest (position - byteLength line)
      else
        none

/-- The place of a byte position, if it is not past the end of the text. -/
def placeOf (source : String) (position : Nat) : Option Place :=
  placeFrom 1 (lines source.toList) position

end Text
end Linewise
