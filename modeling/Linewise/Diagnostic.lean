import Linewise.Span
import Linewise.Text.Line
import Linewise.Text.Quoted
import Linewise.Text.Whitespace

/-!
# Diagnostics

A diagnostic is a cause together with the span it points at.  The wording of
every message lives here: the plain message, the tip, and the rendering that
shows the source line with a caret under the place.
-/

namespace Linewise

inductive Cause where
  /-- A character that begins no token. -/
  | unrecognised (character : String)
  /-- A token other than the one asked for. -/
  | unexpected (expected found : String)
  /-- The text ended where something was asked for. -/
  | endOfInput (expected : String)
  /-- A reserved word stands where something else was asked for. -/
  | reservedWord (word expected : String)
  /-- More constructs are open than may nest in one another. -/
  | nestingTooDeep (limit : Nat)
  /-- A sequence that is neither a tuple nor a collection. -/
  | ambiguousElision (construct message : String)
deriving DecidableEq

inductive Category where
  | lexical
  | structural
  | ambiguousElision
deriving DecidableEq

namespace Cause

def category : Cause -> Category
  | .unrecognised _ => .lexical
  | .unexpected _ _ => .structural
  | .endOfInput _ => .structural
  | .reservedWord _ _ => .structural
  | .nestingTooDeep _ => .structural
  | .ambiguousElision _ _ => .ambiguousElision

def name : Cause -> String
  | .unrecognised _ => "UnrecognisedToken"
  | .unexpected _ _ => "UnexpectedToken"
  | .endOfInput _ => "UnexpectedEndOfInput"
  | .reservedWord _ _ => "ReservedWord"
  | .nestingTooDeep _ => "NestingTooDeep"
  | .ambiguousElision _ _ => "AmbiguousElision"

def message : Cause -> String
  | .unrecognised character => "unrecognised character " ++ Text.quoted character
  | .unexpected expected found => "expected " ++ expected ++ ", found " ++ found
  | .endOfInput expected => "expected " ++ expected ++ ", found end of input"
  | .reservedWord word expected =>
      "expected " ++ expected ++ ", found reserved word `" ++ word ++ "`"
  | .nestingTooDeep limit =>
      "nesting too deep (more than " ++ toString limit ++ " levels)"
  | .ambiguousElision construct message => "ambiguous " ++ construct ++ ": " ++ message

def tip? : Cause -> Option String
  | .unrecognised _ => none
  | .unexpected expected found => some ("expected " ++ expected ++ ", found " ++ found)
  | .endOfInput expected => some ("expected " ++ expected ++ " before the end of input")
  | .reservedWord word _ =>
      some ("`" ++ word ++ "` is a reserved word and can't be used as a name")
  | .nestingTooDeep _ => some "move some of the inner code into separate definitions"
  | .ambiguousElision _ _ => some "use only `;` for a tuple or only `,` for a collection"

end Cause

/-- A cause and the place it is reported at. -/
structure Diagnostic where
  cause : Cause
  span : Span
deriving DecidableEq

namespace Diagnostic

/-- The number of characters before the caret: the bytes between the first
character shown and the position, counted from the left end of the line. -/
def caretOffset (line : List Char) (column : Nat) : Nat :=
  column - (line.takeWhile (fun c => c == ' ' || c == '\t')).length

/-- The part of a line that is shown: without the spaces and tabs in front and
the whitespace behind. -/
def shownLine (line : List Char) : List Char :=
  let front := line.dropWhile (fun c => c == ' ' || c == '\t')
  (front.reverse.dropWhile Text.isWhitespace).reverse

def margin (number : String) : String :=
  String.ofList (List.replicate (number.length + 1) ' ') ++ "|"

/-- The source line of a place under its number, with a caret below. -/
def excerpt (place : Text.Place) : String :=
  let number := toString place.number
  let line := place.text.toList
  margin number ++ "\n" ++
    number ++ " | " ++ String.ofList (shownLine line) ++ "\n" ++
    margin number ++ " " ++
    String.ofList (List.replicate (caretOffset line place.column) '-') ++ "^\n"

/-- The diagnostic as shown to the author of `source`, which came from `file`:
the tip, or the message where there is no tip, and the line it points at. -/
def render (diagnostic : Diagnostic) (source file : String) : String :=
  let cause := diagnostic.cause
  let headline :=
    "Error: " ++ cause.name ++ " (" ++ cause.tip?.getD cause.message ++ ")\n" ++
      "-> " ++ file ++ "\n"
  match Text.placeOf source diagnostic.span.start with
  | some place => headline ++ excerpt place
  | none => headline

/-!
## Lists of diagnostics
-/

/-- Puts a diagnostic in front of the first one that does not start before it. -/
def insert (diagnostic : Diagnostic) : List Diagnostic -> List Diagnostic
  | [] => [diagnostic]
  | first :: rest =>
      if diagnostic.span.start <= first.span.start then
        diagnostic :: first :: rest
      else
        first :: insert diagnostic rest

/-- Sorts by the start of the span; diagnostics with the same start keep their
order. -/
def sort : List Diagnostic -> List Diagnostic
  | [] => []
  | first :: rest => insert first (sort rest)

def dropRepeats : List Diagnostic -> List Diagnostic
  | [] => []
  | [only] => [only]
  | first :: second :: rest =>
      if first = second then
        dropRepeats (second :: rest)
      else
        first :: dropRepeats (second :: rest)

end Diagnostic

end Linewise
