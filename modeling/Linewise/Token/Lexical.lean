import Linewise.Text.DecimalDigit
import Linewise.Text.WordChar
import Linewise.Token.Basic

/-!
# Lexical classes

Every class of tokens is given by a function that measures the longest member of
the class at the head of a text, in characters; zero means that there is none.
The token at the head of a text is the longest of these, and of two that are
equally long the one whose class is listed first.
-/

namespace Linewise
namespace Lexical

/-!
## Trivia
-/

def isBlank (c : Char) : Bool := c == ' ' || c == '\t' || c == '\r'

def commentLength : List Char -> Nat
  | '-' :: '-' :: rest => 2 + (rest.takeWhile (fun c => c != '\n')).length
  | _ => 0

/-- The blank lines at the head of a text, up to the last line feed, when
`pending` blanks were read before on the same line. -/
def blankLinesLength (pending : Nat) : List Char -> Nat
  | [] => 0
  | c :: rest =>
      if c = '\n' then
        pending + 1 + blankLinesLength 0 rest
      else if isBlank c then
        blankLinesLength (pending + 1) rest
      else
        0

def lineBreakLength : List Char -> Nat
  | '\n' :: rest => 1 + blankLinesLength 0 rest
  | _ => 0

/-!
## Literals
-/

def textLength : List Char -> Nat
  | '"' :: rest =>
      let body := rest.takeWhile (fun c => c != '"')
      if body.length < rest.length then body.length + 2 else 0
  | _ => 0

def digitsLength (cs : List Char) : Nat := (cs.takeWhile Text.isDigit).length

def fractionLength : List Char -> Nat
  | '.' :: rest => if digitsLength rest = 0 then 0 else 1 + digitsLength rest
  | _ => 0

def numberLength (cs : List Char) : Nat :=
  let whole := digitsLength cs
  if whole = 0 then 0 else whole + fractionLength (cs.drop whole)

def signedNumberLength : List Char -> Nat
  | [] => 0
  | c :: rest =>
      if (c == '+' || c == '-') && numberLength rest != 0 then 1 + numberLength rest else 0

/-!
## Names
-/

/-- The rest of a name: word characters, and dashes that have a word character
behind them. -/
def wordTailLength : List Char -> Nat
  | [] => 0
  | c :: rest =>
      if Text.isWordChar c then
        1 + wordTailLength rest
      else if c = '-' then
        match rest with
        | [] => 0
        | d :: rest => if Text.isWordChar d then 2 + wordTailLength rest else 0
      else
        0

def closingLength : List Char -> Nat
  | [] => 0
  | c :: _ => if c == '!' || c == '?' then 1 else 0

def nameTailLength (cs : List Char) : Nat :=
  let word := wordTailLength cs
  word + closingLength (cs.drop word)

/-- A name that begins with a capital letter, before which single digits may
stand, each with a dash. -/
def capitalNameLength : List Char -> Nat
  | [] => 0
  | c :: rest =>
      if c.isUpper then
        1 + nameTailLength rest
      else if Text.isDigit c then
        match rest with
        | '-' :: rest => if capitalNameLength rest = 0 then 0 else 2 + capitalNameLength rest
        | _ => 0
      else
        0

def nameLength : List Char -> Nat
  | [] => 0
  | c :: rest => if Text.isWordChar c then 1 + nameTailLength rest else 0

/-!
## Marks
-/

def markLength (mark : Mark) (cs : List Char) : Nat :=
  let spelling := mark.spelling.toList
  if spelling.isPrefixOf cs then spelling.length else 0

/-!
## The token at the head of a text
-/

def wordKind (word : String) : Kind := (Kind.ofReserved? word).getD .lowercaseName

/-- The kinds of tokens that the head of a text may be, with their lengths.  A
sign belongs to a number only where `signed` says so. -/
def candidates (signed : Bool) (cs : List Char) : List (Kind × Nat) :=
  [(.comment, commentLength cs),
    (.text, textLength cs),
    (.number, if signed then signedNumberLength cs else 0),
    (.number, numberLength cs),
    (.capitalName, capitalNameLength cs),
    (wordKind (String.ofList (cs.take (nameLength cs))), nameLength cs),
    (.lineBreak, lineBreakLength cs)] ++
  Mark.all.map (fun mark => (.mark mark, markLength mark cs))

/-- The longest candidate that is not empty; the first of several. -/
def longest : List (Kind × Nat) -> Option (Kind × Nat)
  | [] => none
  | (kind, length) :: rest =>
      match longest rest with
      | some (other, most) =>
          if length < most then some (other, most) else some (kind, length)
      | none => if length = 0 then none else some (kind, length)

/-- The kind of the token at the head of a text and its length in characters. -/
def head? (signed : Bool) (cs : List Char) : Option (Kind × Nat) :=
  longest (candidates signed cs)

end Lexical
end Linewise
