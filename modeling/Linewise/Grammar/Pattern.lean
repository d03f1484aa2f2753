import Linewise.Grammar.Type

/-!
# The grammar of patterns

Subpatterns stand in lists; variant and `set` patterns are built on top of them;
`or` joins patterns and groups to the left; `;` makes tuples.
-/

namespace Linewise
namespace Grammar

open Linewise.Parser

/-!
## Tuples and alternatives
-/

def elementBehind {α : Type} (element : Parser α) : Parser α := do
  let _ <- advance
  element

def pattern (level : Level) : Parser Pattern := do
  let start <- currentSpan
  let first <- level.pattern
  let rest <- repeatWhile (Cursor.isAt (.mark .semicolon)) (elementBehind level.pattern)
  if rest.isEmpty then
    pure first
  else
    let span <- spanFrom start
    pure (.tuple (first :: rest) span)

/-!
## Subpatterns
-/

def wildcardPattern : Parser Pattern := do
  let token <- expect (.mark .underscore)
  pure (.wildcard token.span)

def variablePattern : Parser Pattern := do
  let name <- variableName
  pure (.variable name)

def numberPattern : Parser Pattern := do
  let literal <- number
  pure (.number literal)

def textPattern : Parser Pattern := do
  let literal <- text
  pure (.text literal)

def destructureField (level : Level) : Parser (Entry Lexeme Pattern) := do
  let start <- currentSpan
  let name <- variableName
  let _ <- expect (.mark .colon)
  let _ <- skipLineBreaks
  let value <- pattern level
  let span <- spanFrom start
  pure { key := name, value := value, span := span }

def destructurePattern (level : Level) : Parser Pattern := do
  let opening <- expect (.mark .openCurly)
  let fields <- lines (.mark .closeCurly) (destructureField level)
  if fields.isEmpty then
    unexpected "field pattern"
  else
    let _ <- expect (.mark .closeCurly)
    let span <- spanFrom opening.span
    pure (.destructure fields span)

def enclosedPattern (start : Span) (enclosed : Enclosed Pattern) : Parser Pattern := do
  let span <- spanFrom start
  match enclosed with
  | .unit => pure (.unit span)
  | .group pattern => pure pattern
  | .sequence _ elements => pure (.tuple elements span)

/-- Whether a parenthesis opens a form that has no element on its line. -/
def opensWithoutElement (cursor : Cursor) : Bool :=
  [Kind.mark .closeParen, .lineBreak, .mark .semicolon].contains cursor.peek.kind

/-- The unit pattern, a pattern with a type, a pattern in parentheses or a tuple.
The token behind the first element tells which. -/
def parenthesizedPattern (level : Level) : Parser Pattern := do
  let start <- currentSpan
  let plain <- look opensWithoutElement
  if plain then
    let form <- enclosed "tuple pattern" [.mark .semicolon] level.pattern
    enclosedPattern start form
  else
    let _ <- expect (.mark .openParen)
    let first <- level.pattern
    let annotated <- isAt (.mark .doubleColon)
    if annotated then
      let _ <- advance
      let _ <- skipLineBreaks
      let type <- level.type
      let _ <- expect (.mark .closeParen)
      let span <- spanFrom start
      pure (.annotate first type span)
    else
      let form <- enclosedRest "tuple pattern" [.mark .semicolon] first false level.pattern
      enclosedPattern start form

/-- A pattern that needs no parentheses to stand in a list of patterns. -/
def subpattern (level : Level) : Parser Pattern := do
  let kind <- currentKind
  match kind with
  | .mark .underscore => wildcardPattern
  | .lowercaseName => variablePattern
  | .number => numberPattern
  | .text => textPattern
  | .mark .openCurly => destructurePattern level
  | .mark .openParen => parenthesizedPattern level
  | _ => unexpected "pattern"

def subpatterns (level : Level) : Parser (List Pattern) :=
  repeatWhile (fun cursor => cursor.current.startsPattern) (subpattern level)

/-!
## Pattern elements
-/

def patternOperand (level : Level) : Parser Pattern := do
  let start <- currentSpan
  let kind <- currentKind
  match kind with
  | .reserved .setWord =>
      let _ <- advance
      let name <- variableName
      let span <- spanFrom start
      pure (.set name span)
  | .capitalName =>
      let name <- variantName
      let elements <- subpatterns level
      let span <- spanFrom start
      pure (.variant name elements span)
  | _ => subpattern level

def atOr (cursor : Cursor) : Bool :=
  cursor.isAt .lowercaseName && cursor.current.value == "or"

/-- An alternative behind the word `or`, with the span up to its end. -/
def alternative (level : Level) (start : Span) : Parser (Pattern × Span) := do
  let _ <- advance
  let _ <- skipLineBreaks
  let right <- patternOperand level
  let span <- spanFrom start
  pure (right, span)

def joinAlternatives (first : Pattern) (rest : List (Pattern × Span)) : Pattern :=
  rest.foldl (fun left (right, span) => .or left right span) first

def orPattern (level : Level) : Parser Pattern := do
  let start <- currentSpan
  let first <- patternOperand level
  let rest <- repeatWhile atOr (alternative level start)
  pure (joinAlternatives first rest)

end Grammar
end Linewise
