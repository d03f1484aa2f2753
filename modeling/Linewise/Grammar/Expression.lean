import Linewise.Grammar.Block
import Linewise.Grammar.Pattern

/-!
# The grammar of expressions

Binary operators are read by climbing their precedences.  An operand is a
function literal, one of the forms that begin with a word, or a subexpression;
more subexpressions behind one make a call, or a formatted text if the first is
a text.
-/

namespace Linewise
namespace Grammar

open Linewise.Parser

/-!
## Sequences
-/

def separators : List Kind := [.mark .semicolon, .mark .comma]

/-- The expression that elements with a separator make: a tuple with `;`, and a
collection with `,`. -/
def sequenceOf (separator : Kind) (elements : List Expression) (span : Span) : Expression :=
  match separator with
  | .mark .semicolon => .tuple elements span
  | _ => .collection elements span

def nextElement (level : Level) (separator : Kind) : Parser Expression := do
  let kind <- currentKind
  if kind = separator then
    let _ <- advance
    level.expression 0
  else
    mixedSeparators "sequence"

/-- An expression element, or a tuple or collection of them on one line. -/
def expression (level : Level) : Parser Expression := do
  let start <- currentSpan
  let first <- level.expression 0
  let separator <- currentKind
  if separators.contains separator then
    let rest <-
      repeatWhile (fun cursor => separators.contains cursor.kind) (nextElement level separator)
    let span <- spanFrom start
    pure (sequenceOf separator (first :: rest) span)
  else
    pure first

/-!
## Subexpressions
-/

def placeholderExpression : Parser Expression := do
  let token <- expect (.mark .underscore)
  pure (.placeholder token.span)

def variableExpression : Parser Expression := do
  let name <- variableName
  pure (.variable name)

def typeNameExpression : Parser Expression := do
  let name <- typeName
  pure (.typeName name)

def numberExpression : Parser Expression := do
  let literal <- number
  pure (.number literal)

def textExpression : Parser Expression := do
  let literal <- text
  pure (.text literal)

/-- The fields of a record, if there is at least one statement and all of them
are assignments to plain variables. -/
def fields? (statements : List Statement) : Option (List (Entry Lexeme Expression)) :=
  if statements.isEmpty then none else statements.mapM Statement.field?

def recordOrBlock (statements : List Statement) (span : Span) : Expression :=
  match fields? statements with
  | some fields => .record fields span
  | none => .block statements span

def bracedExpression (level : Level) : Parser Expression := do
  let opening <- expect (.mark .openCurly)
  let statements <- statements level (.mark .closeCurly)
  let _ <- expect (.mark .closeCurly)
  let span <- spanFrom opening.span
  pure (recordOrBlock statements span)

def parenthesizedExpression (level : Level) : Parser Expression := do
  let start <- currentSpan
  let form <- enclosed "sequence" separators (level.expression 0)
  let span <- spanFrom start
  match form with
  | .unit => pure (.unit span)
  | .group expression => pure expression
  | .sequence separator elements => pure (sequenceOf separator elements span)

/-- An expression that needs no parentheses to stand in a list of expressions. -/
def subexpression (level : Level) : Parser Expression := do
  let kind <- currentKind
  match kind with
  | .mark .underscore => placeholderExpression
  | .lowercaseName => variableExpression
  | .capitalName => typeNameExpression
  | .number => numberExpression
  | .text => textExpression
  | .mark .openCurly => bracedExpression level
  | .mark .openParen => parenthesizedExpression level
  | _ => unexpected "expression"

def inputs (level : Level) : Parser (List Expression) :=
  repeatWhile (fun cursor => cursor.current.startsExpression) (subexpression level)

/-!
## Operands
-/

def performExpression (level : Level) (start : Span) : Parser Expression := do
  let _ <- advance
  let input <- subexpression level
  let span <- spanFrom start
  pure (.perform input span)

def arm (level : Level) : Parser (Entry Pattern Expression) := do
  let start <- currentSpan
  let pattern <- pattern level
  let _ <- expect (.mark .arrow)
  let _ <- skipLineBreaks
  let value <- expression level
  let span <- spanFrom start
  pure { key := pattern, value := value, span := span }

def whenExpression (level : Level) : Parser Expression := do
  let opening <- expect (.reserved .whenWord)
  let input <- subexpression level
  let _ <- expect (.mark .openCurly)
  let arms <- lines (.mark .closeCurly) (arm level)
  let _ <- expect (.mark .closeCurly)
  let span <- spanFrom opening.span
  pure (.when input arms span)

def intrinsicExpression (level : Level) (start : Span) : Parser Expression := do
  let _ <- advance
  let name <- text
  let inputs <- inputs level
  let span <- spanFrom start
  pure (.intrinsic name inputs span)

/-- The expression of a head with inputs behind it.  A text that is not in
parentheses makes a formatted text. -/
def applied (textHead : Bool) (head : Expression) (inputs : List Expression) (span : Span) :
    Expression :=
  match textHead, head with
  | true, .text literal => .formattedText literal inputs span
  | _, _ => .call head inputs span

def callExpression (level : Level) (start : Span) : Parser Expression := do
  let textHead <- isAt .text
  let head <- subexpression level
  let more <- look (fun cursor => cursor.current.startsExpression)
  if more then
    let inputs <- inputs level
    let span <- spanFrom start
    pure (applied textHead head inputs span)
  else
    pure head

def operand (level : Level) : Parser Expression := do
  let start <- currentSpan
  let kind <- currentKind
  match kind with
  | .reserved .doWord => performExpression level start
  | .reserved .whenWord => whenExpression level
  | .reserved .intrinsicWord => intrinsicExpression level start
  | _ => callExpression level start

/-!
## Function literals
-/

/-- Whether an arrow follows a run of subpatterns, of which the first is already
known to begin one.  Tokens inside brackets are passed over unseen. -/
def arrowFollows : Nat -> Bool -> List Token -> Bool
  | _, _, [] => false
  | depth, first, token :: rest =>
      match token.kind with
      | .endOfInput => false
      | .mark .openParen => arrowFollows (depth + 1) false rest
      | .mark .openCurly => arrowFollows (depth + 1) false rest
      | kind =>
          if depth > 0 then
            if kind = .mark .closeParen || kind = .mark .closeCurly then
              arrowFollows (depth - 1) false rest
            else
              arrowFollows depth false rest
          else if kind = .mark .arrow then
            true
          else if first || token.startsPattern then
            arrowFollows depth false rest
          else
            false

def mayBeFunction (cursor : Cursor) : Bool :=
  Token.patternStarts.contains cursor.kind && arrowFollows 0 true cursor.tokensAhead

def functionInputs (level : Level) : Parser (List Pattern) := do
  let first <- subpattern level
  let rest <- subpatterns level
  let _ <- expect (.mark .arrow)
  pure (first :: rest)

/-- A function literal, if one can be read.  Its output reaches as far as
possible. -/
def functionLiteral (level : Level) : Parser (Option Expression) := do
  let start <- currentSpan
  let worthTrying <- look mayBeFunction
  let inputs <- if worthTrying then speculate (functionInputs level) else pure none
  match inputs with
  | none => pure none
  | some inputs =>
      let _ <- skipLineBreaks
      let output <- level.expression 0
      let span <- spanFrom start
      pure (some (.function inputs output span))

/-!
## Operators
-/

def rightOperand (level : Level) (operator : Operator) : Parser Operand :=
  match operator.right with
  | .expression => do
      let expression <- level.expression operator.rightPrecedence
      pure (.expression expression)
  | .type => do
      let type <- level.type
      pure (.type type)
  | .pattern => do
      let pattern <- patternOperand level
      pure (.pattern pattern)

/-- An operator with its right operand, and the span of the expression that they
complete. -/
structure Continuation where
  operator : Operator
  right : Operand
  span : Span

/-- Whether the current token is an operator of at least the given precedence. -/
def atOperator (least : Nat) (cursor : Cursor) : Bool :=
  match cursor.current.operator? with
  | some operator => decide (least <= operator.precedence)
  | none => false

def continuation (level : Level) (start : Span) : Parser Continuation := do
  let token <- advance
  let _ <- skipLineBreaks
  match token.operator? with
  | some operator =>
      let right <- rightOperand level operator
      let span <- spanFrom start
      pure { operator := operator, right := right, span := span }
  | none => unexpected "operator"

def applyContinuations (first : Expression) (rest : List Continuation) : Expression :=
  rest.foldl (fun left next => .binary next.operator left next.right next.span) first

/-- A function literal, or operands with operators of at least the given
precedence between them. -/
def binaryExpression (level : Level) (least : Nat) : Parser Expression := do
  let start <- currentSpan
  let function <- functionLiteral level
  match function with
  | some function => pure function
  | none =>
      let first <- operand level
      let rest <- repeatWhile (atOperator least) (continuation level start)
      pure (applyContinuations first rest)

end Grammar
end Linewise
