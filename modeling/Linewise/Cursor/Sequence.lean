import Linewise.Cursor.Parser

/-!
# Lines and parentheses

Two layouts are shared by all sublanguages: items on lines of their own, and
elements between parentheses.
-/

namespace Linewise
namespace Parser

variable {α : Type}

/-!
## Lines
-/

def wholeLine (terminator : Kind) (item : Parser α) : Parser α := do
  let value <- item
  let skipped <- skipLineBreaks
  let ended <- isAt terminator
  if skipped || ended then
    pure value
  else
    unexpected ("line break or " ++ terminator.describe)

/-- Items on lines of their own, up to the terminator, which is not read. -/
def lines (terminator : Kind) (item : Parser α) : Parser (List α) := do
  let _ <- skipLineBreaks
  repeatWhile (fun cursor => !cursor.isAt terminator && cursor.hasTokens)
    (wholeLine terminator item)

/-!
## Parentheses
-/

inductive Enclosed (α : Type) where
  /-- Written `()`. -/
  | unit
  /-- Written `(x)`. -/
  | group (value : α)
  /-- Written `(a ; b)`, `(a , b ,)`, `(;)`. -/
  | sequence (separator : Kind) (elements : List α)

def mixedSeparators (construct : String) : Parser α := fun cursor =>
  let cause := Cause.ambiguousElision construct "`;` and `,` can't be mixed in one sequence"
  .error { cause := cause, span := cursor.current.span } cursor

def separatorsExpected (separators : List Kind) : String :=
  " or ".intercalate (separators.map Kind.describe) ++ " before the end of the line"

/-- Reads separators and elements up to the closing parenthesis, which is not
read.  All separators have to be the same as `separator`, if there is one.  An
element that is the last on its line needs a separator, so behind a line break
the parenthesis may close only after one.  Gives the separator and the elements,
and takes at most `bound` separators. -/
def separated (construct : String) (separators : List Kind) (element : Parser α) :
    Nat -> Option Kind -> Bool -> Parser (Option Kind × List α)
  | 0, _, _ => faulty .stalled
  | bound + 1, separator, multiline => do
      let kind <- currentKind
      if separators.contains kind then
        if separator.isSome && separator != some kind then
          mixedSeparators construct
        else
          let _ <- advance
          let skipped <- skipLineBreaks
          let closed <- isAt (.mark .closeParen)
          if closed then
            pure (some kind, [])
          else
            let next <- element
            let (last, rest) <-
              separated construct separators element bound (some kind) (multiline || skipped)
            pure (last, next :: rest)
      else if kind = .mark .closeParen && !multiline then
        pure (separator, [])
      else
        unexpected (separatorsExpected separators)

/-- Reads the rest of a parenthesized form behind its first element, the closing
parenthesis included. -/
def enclosedRest (construct : String) (separators : List Kind) (first : α)
    (multiline : Bool) (element : Parser α) : Parser (Enclosed α) := do
  let bound <- look (fun cursor => cursor.ahead.length + 1)
  let (separator, rest) <- separated construct separators element bound none multiline
  let _ <- expect (.mark .closeParen)
  match separator with
  | none => pure (.group first)
  | some separator => pure (.sequence separator (first :: rest))

def enclosed (construct : String) (separators : List Kind) (element : Parser α) :
    Parser (Enclosed α) := do
  let _ <- expect (.mark .openParen)
  let empty <- isAt (.mark .closeParen)
  if empty then
    let _ <- advance
    pure .unit
  else
    let multiline <- skipLineBreaks
    let kind <- currentKind
    if separators.contains kind then
      let _ <- advance
      let _ <- skipLineBreaks
      let _ <- expect (.mark .closeParen)
      pure (.sequence kind [])
    else
      let first <- element
      enclosedRest construct separators first multiline element

end Parser
end Linewise
