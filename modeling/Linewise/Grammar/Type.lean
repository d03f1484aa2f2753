import Linewise.Grammar.Level

/-!
# The grammar of types

A type element is a function type, a named type with parameters or a single
subtype.  `Maybe a -> b` is a function type with two inputs; a named type with
parameters needs parentheses to be one of the inputs.
-/

namespace Linewise
namespace Grammar

open Linewise.Parser

/-!
## Subtypes
-/

def placeholderType : Parser TypeExpr := do
  let token <- expect (.mark .underscore)
  pure (.placeholder token.span)

def parameterType : Parser TypeExpr := do
  let name <- typeParameterName
  pure (.parameter name)

def namedType : Parser TypeExpr := do
  let name <- typeName
  pure (.named name [] name.span)

def blockType (level : Level) : Parser TypeExpr := do
  let opening <- expect (.mark .openCurly)
  let _ <- skipLineBreaks
  let output <- level.type
  let _ <- skipLineBreaks
  let _ <- expect (.mark .closeCurly)
  let span <- spanFrom opening.span
  pure (.block output span)

def parenthesizedType (level : Level) : Parser TypeExpr := do
  let start <- currentSpan
  let enclosed <- enclosed "tuple type" [.mark .semicolon] level.type
  let span <- spanFrom start
  match enclosed with
  | .unit => pure (.unit span)
  | .group type => pure type
  | .sequence _ elements => pure (.tuple elements span)

def subtype (level : Level) : Parser TypeExpr := do
  let kind <- currentKind
  match kind with
  | .mark .underscore => placeholderType
  | .lowercaseName => parameterType
  | .capitalName => namedType
  | .mark .openCurly => blockType level
  | .mark .openParen => parenthesizedType level
  | _ => unexpected "type"

def subtypes (level : Level) : Parser (List TypeExpr) :=
  repeatWhile (fun cursor => cursor.current.startsType) (subtype level)

/-!
## Type elements
-/

def bareName? : TypeExpr -> Option Lexeme
  | .named name _ _ => some name
  | _ => none

/-- A function type, a named type with parameters or a subtype.  Only a name that
is not in parentheses takes parameters. -/
def functionOrNamedType (level : Level) : Parser TypeExpr := do
  let start <- currentSpan
  let bare <- isAt .capitalName
  let first <- subtype level
  let rest <- subtypes level
  let arrow <- isAt (.mark .arrow)
  if arrow then
    let _ <- advance
    let _ <- skipLineBreaks
    let output <- level.type
    let span <- spanFrom start
    pure (.function (first :: rest) output span)
  else if rest.isEmpty then
    pure first
  else
    match bare, bareName? first with
    | true, some name =>
        let span <- spanFrom start
        pure (.named name rest span)
    | _, _ => unexpected "`->`"

/-!
## Constraints and signatures
-/

def constraintBody (level : Level) : Parser Constraint := do
  let start <- currentSpan
  let kind <- currentKind
  match kind with
  | .reserved .inferWord =>
      let _ <- advance
      let parameter <- typeParameterName
      let span <- spanFrom start
      pure (.infer parameter span)
  | .lowercaseName =>
      let parameter <- typeParameterName
      let _ <- expect (.mark .colon)
      let _ <- skipLineBreaks
      let value <- level.type
      let span <- spanFrom start
      pure (.fallback parameter value span)
  | .capitalName =>
      let trait <- typeName
      let first <- subtype level
      let rest <- subtypes level
      let span <- spanFrom start
      pure (.bound trait (first :: rest) span)
  | _ => unexpected "constraint"

def constraint (level : Level) : Parser Constraint := do
  let _ <- expect (.mark .openParen)
  let constraint <- constraintBody level
  let _ <- expect (.mark .closeParen)
  pure constraint

def whereClause (level : Level) : Parser (Option WhereClause) := do
  let present <- isAt (.reserved .whereWord)
  if present then
    let opening <- advance
    let first <- constraint level
    let rest <- repeatWhile (Cursor.isAt (.mark .openParen)) (constraint level)
    let span <- spanFrom opening.span
    pure (some { constraints := first :: rest, span := span })
  else
    pure none

def signature (level : Level) : Parser Signature := do
  let start <- currentSpan
  let type <- level.type
  let clause <- whereClause level
  let span <- spanFrom start
  pure { type := type, clause := clause, span := span }

/-- The parameters of a type definition, up to the arrow and the line breaks
behind it. -/
def typeFunction : Parser TypeFunction := do
  let start <- currentSpan
  let first <- typeParameterName
  let rest <- repeatWhile (Cursor.isAt .lowercaseName) typeParameterName
  let _ <- expect (.mark .fatArrow)
  let span <- spanFrom start
  let _ <- skipLineBreaks
  pure { parameters := first :: rest, span := span }

end Grammar
end Linewise
