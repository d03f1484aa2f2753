import Linewise.Grammar.Expression

/-!
# The grammar of statements

The forms of statements are tried in a fixed order: instances, types and traits,
constants, assignments and plain expressions.  The first that fits is taken, so
`x : 1` is always an assignment.
-/

namespace Linewise
namespace Grammar

open Linewise.Parser

/-!
## Attributes
-/

def attributeValue (name : Lexeme) (start : Span) : Parser Attribute := do
  let kind <- currentKind
  match kind with
  | .text =>
      let value <- text
      let _ <- expect (.mark .closeBracket)
      let span <- spanFrom start
      pure (.withText name value span)
  | .number =>
      let value <- number
      let _ <- expect (.mark .closeBracket)
      let span <- spanFrom start
      pure (.withNumber name value span)
  | _ => unexpected "text or number"

def bracketedAttribute : Parser Attribute := do
  let opening <- expect (.mark .openBracket)
  let name <- attributeName
  let valued <- isAt (.mark .colon)
  if valued then
    let _ <- advance
    let _ <- skipLineBreaks
    attributeValue name opening.span
  else
    let _ <- expect (.mark .closeBracket)
    let span <- spanFrom opening.span
    pure (.plain name span)

def attributeLine : Parser Attribute := do
  let found <- bracketedAttribute
  let _ <- skipLineBreaks
  pure found

def attributes : Parser (List Attribute) :=
  repeatWhile (Cursor.isAt (.mark .openBracket)) attributeLine

/-!
## Definitions
-/

def fieldDefinition (level : Level) : Parser (Entry Lexeme Signature) := do
  let start <- currentSpan
  let name <- variableName
  let _ <- expect (.mark .doubleColon)
  let _ <- skipLineBreaks
  let signature <- signature level
  let span <- spanFrom start
  pure { key := name, value := signature, span := span }

/-- A line of an enumeration: a variant and the types of its elements. -/
def variantDefinition (level : Level) : Parser (Entry Lexeme (List TypeExpr)) := do
  let start <- currentSpan
  let name <- variantName
  let elements <- subtypes level
  let span <- spanFrom start
  pure { key := name, value := elements, span := span }

/-- The body of a type.  The first name tells whether it has fields or variants. -/
def representation (level : Level) : Parser Representation := do
  let opening <- expect (.mark .openCurly)
  let _ <- skipLineBreaks
  let kind <- currentKind
  match kind with
  | .lowercaseName =>
      let fields <- lines (.mark .closeCurly) (fieldDefinition level)
      let _ <- expect (.mark .closeCurly)
      let span <- spanFrom opening.span
      pure (.structured fields span)
  | .capitalName =>
      let variants <- lines (.mark .closeCurly) (variantDefinition level)
      let _ <- expect (.mark .closeCurly)
      let span <- spanFrom opening.span
      pure (.enumerated variants span)
  | _ => unexpected "field or variant"

/-- The name and the parameters of a type or trait, up to the word that tells
which of the two it is. -/
structure DefinitionHead where
  name : Lexeme
  parameters : Option TypeFunction

def definitionHead : Parser DefinitionHead := do
  let name <- typeName
  let _ <- advance
  let _ <- skipLineBreaks
  let parameters <- speculate typeFunction
  let isType <- isAt (.reserved .typeWord)
  let isTrait <- isAt (.reserved .traitWord)
  if isType || isTrait then
    pure { name := name, parameters := parameters }
  else
    unexpected "definition"

def typeDefinition (level : Level) (start : Span) (header : Header)
    (head : DefinitionHead) : Parser Statement := do
  let _ <- expect (.reserved .typeWord)
  let braced <- isAt (.mark .openCurly)
  let body <- if braced then some <$> representation level else pure none
  let span <- spanFrom start
  pure (.typeDefinition header head.name head.parameters body span)

def traitDefinition (level : Level) (start : Span) (header : Header)
    (head : DefinitionHead) : Parser Statement := do
  let _ <- expect (.reserved .traitWord)
  let typed <- look (fun cursor => cursor.current.startsType)
  let type <- if typed then some <$> subtype level else pure none
  let clause <- whereClause level
  let span <- spanFrom start
  pure (.traitDefinition header head.name head.parameters type clause span)

def constantDefinition (level : Level) (start : Span) (header : Header) :
    Parser Statement := do
  let name <- variableName
  let _ <- expect (.mark .doubleColon)
  let _ <- skipLineBreaks
  let signature <- signature level
  let span <- spanFrom start
  pure (.constantDefinition header name signature span)

def instanceValue (level : Level) : Parser (Option Expression) := do
  let valued <- isAt (.mark .colon)
  if valued then
    let _ <- advance
    let _ <- skipLineBreaks
    some <$> expression level
  else
    pure none

def instanceDefinition (level : Level) (start : Span) (header : Header) :
    Parser Statement := do
  let _ <- expect (.reserved .instanceWord)
  let _ <- expect (.mark .openParen)
  let trait <- typeName
  let first <- subtype level
  let rest <- subtypes level
  let _ <- expect (.mark .closeParen)
  let clause <- whereClause level
  let value <- instanceValue level
  let span <- spanFrom start
  pure (.instanceDefinition header trait (first :: rest) clause value span)

/-!
## Statements
-/

def assignmentHead (level : Level) : Parser Pattern := do
  let pattern <- pattern level
  let _ <- expect (.mark .colon)
  pure pattern

def assignmentOrExpression (level : Level) (start : Span) : Parser Statement := do
  let pattern <- speculate (assignmentHead level)
  match pattern with
  | some pattern =>
      let _ <- skipLineBreaks
      let value <- expression level
      let span <- spanFrom start
      pure (.assignment pattern value span)
  | none =>
      let expression <- expression level
      let span <- spanFrom start
      pure (.expression expression span)

def atPair (first second : Kind) (cursor : Cursor) : Bool :=
  cursor.isAt first && cursor.peek.kind == second

def definitionHead? : Parser (Option DefinitionHead) := do
  let possible <- look (atPair .capitalName (.mark .colon))
  if possible then speculate definitionHead else pure none

/-- A statement that is neither an instance nor a type nor a trait. -/
def plainStatement (level : Level) (start : Span) (header : Header) : Parser Statement := do
  let constant <- look (atPair .lowercaseName (.mark .doubleColon))
  if constant then
    constantDefinition level start header
  else if header.attributes.isEmpty then
    assignmentOrExpression level start
  else
    unexpected "definition"

def statement (level : Level) (comments : List Lexeme) : Parser Statement := do
  let start <- currentSpan
  let attributes <- attributes
  let header : Header := { comments := comments, attributes := attributes }
  let isInstance <- isAt (.reserved .instanceWord)
  if isInstance then
    instanceDefinition level start header
  else
    let head <- definitionHead?
    match head with
    | some head =>
        let isType <- isAt (.reserved .typeWord)
        if isType then
          typeDefinition level start header head
        else
          traitDefinition level start header head
    | none => plainStatement level start header

end Grammar
end Linewise
