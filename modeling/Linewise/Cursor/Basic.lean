import Linewise.Diagnostic
import Linewise.Token.Basic

/-!
# A cursor on tokens

A cursor stands in front of the tokens that are still to be read.  Comments are
invisible to it, except where they are collected on purpose; line breaks are
tokens like any other and have to be skipped on purpose.  The token behind the
text is kept apart, so there is always a current token, and it is never passed.
-/

namespace Linewise

structure Cursor where
  /-- The tokens still to be read, comments included. -/
  ahead : List Token
  /-- The token behind the text. -/
  final : Token
  /-- The span of the last token that was read and is no line break. -/
  previous : Span
  /-- The diagnostics of the statements that were given up. -/
  errors : List Diagnostic
  /-- The number of nesting levels that are open. -/
  depth : Nat

namespace Cursor

/-- A cursor in front of all tokens.  If they do not end with the token behind
the text, one is put there. -/
def ofTokens (tokens : List Token) : Cursor :=
  match tokens.getLast? with
  | some token =>
      if token.kind = .endOfInput then
        { ahead := tokens.dropLast, final := token, previous := default, errors := []
          depth := 0 }
      else
        { ahead := tokens, final := Token.endAt token.span.stop, previous := default
          errors := [], depth := 0 }
  | none =>
      { ahead := [], final := Token.endAt 0, previous := default, errors := [], depth := 0 }

/-!
## Looking ahead
-/

def significant (cursor : Cursor) : List Token := cursor.ahead.dropWhile Token.isComment

def current (cursor : Cursor) : Token := cursor.significant.headD cursor.final

def kind (cursor : Cursor) : Kind := cursor.current.kind

def isAt (kind : Kind) (cursor : Cursor) : Bool := cursor.kind == kind

def hasTokens (cursor : Cursor) : Bool := !cursor.isAt .endOfInput

/-- The token behind the current one, or the current one if it is the last. -/
def peek (cursor : Cursor) : Token :=
  match cursor.significant with
  | [] => cursor.final
  | _ :: rest => (rest.dropWhile Token.isComment).headD cursor.final

def tokensAhead (cursor : Cursor) : List Token :=
  cursor.ahead.filter (fun token => !token.isComment) ++ [cursor.final]

/-- The span from `start` to the end of the last token that was read. -/
def spanFrom (start : Span) (cursor : Cursor) : Span := start.cover cursor.previous

/-!
## Moving on
-/

/-- The span to remember after a token: line breaks are not remembered. -/
def spanAfter (previous : Span) (token : Token) : Span :=
  if token.isLineBreak then previous else token.span

/-- Moves behind the current token.  The end of the input is not passed, wherever
it stands. -/
def advance (cursor : Cursor) : Cursor :=
  match cursor.significant with
  | [] => { cursor with ahead := [] }
  | token :: rest =>
      if token.kind = .endOfInput then
        { cursor with ahead := token :: rest }
      else
        { cursor with ahead := rest, previous := spanAfter cursor.previous token }

/-- What is left behind the line breaks in front, and the comments between them;
none if the first token that is no comment is no line break. -/
def afterLineBreaks? : List Token -> Option (List Token)
  | [] => none
  | token :: rest =>
      if token.isComment then
        afterLineBreaks? rest
      else if token.isLineBreak then
        some ((afterLineBreaks? rest).getD rest)
      else
        none

def skipLineBreaks (cursor : Cursor) : Cursor :=
  { cursor with ahead := (afterLineBreaks? cursor.ahead).getD cursor.ahead }

def isTrivia (token : Token) : Bool := token.isComment || token.isLineBreak

def commentLexeme (token : Token) : Lexeme :=
  let value :=
    match token.value.toList with
    | '-' :: '-' :: rest => String.ofList rest
    | _ => token.value
  { value := value, span := token.span }

def leadingComments (cursor : Cursor) : List Lexeme :=
  ((cursor.ahead.takeWhile isTrivia).filter Token.isComment).map commentLexeme

def skipTrivia (cursor : Cursor) : Cursor :=
  { cursor with ahead := cursor.ahead.dropWhile isTrivia }

/-!
## Giving up a statement
-/

/-- The number of open brackets after a token; a bracket that closes none is
passed over. -/
def bracketDepth (depth : Nat) (token : Token) : Nat :=
  if token.kind.opensBracket then depth + 1
  else if token.kind.closesBracket then depth - 1
  else depth

/-- Whether the rest of a statement ends in front of a token: at the end of the
input, and outside of brackets at a line break or the terminator. -/
def endsStatement (terminator : Kind) (depth : Nat) (token : Token) : Bool :=
  token.kind == .endOfInput ||
    (depth == 0 && (token.isLineBreak || token.kind == terminator))

/-- What is left behind the rest of a statement, with the span to remember; none
if the statement ends in front of the first token that is no comment. -/
def afterStatement? (terminator : Kind) :
    Nat -> Span -> List Token -> Option (List Token × Span)
  | _, _, [] => none
  | depth, previous, token :: rest =>
      if token.isComment then
        afterStatement? terminator depth previous rest
      else if endsStatement terminator depth token then
        none
      else
        let remembered := spanAfter previous token
        some ((afterStatement? terminator (bracketDepth depth token) remembered rest).getD
          (rest, remembered))

def record (diagnostic : Diagnostic) (cursor : Cursor) : Cursor :=
  { cursor with errors := cursor.errors ++ [diagnostic] }

def skipStatement (terminator : Kind) (cursor : Cursor) : Cursor :=
  match afterStatement? terminator 0 cursor.previous cursor.ahead with
  | some (rest, previous) => { cursor with ahead := rest, previous := previous }
  | none => cursor

/-!
## Checkpoints
-/

structure Checkpoint where
  ahead : List Token
  previous : Span
  errorCount : Nat

def checkpoint (cursor : Cursor) : Checkpoint :=
  { ahead := cursor.ahead, previous := cursor.previous, errorCount := cursor.errors.length }

/-- Returns to a checkpoint and forgets the diagnostics noted since. -/
def restore (checkpoint : Checkpoint) (cursor : Cursor) : Cursor :=
  { cursor with
    ahead := checkpoint.ahead
    previous := checkpoint.previous
    errors := cursor.errors.take checkpoint.errorCount }

/-!
## Diagnostics
-/

def unexpectedCause (expected : String) (token : Token) : Cause :=
  match token.kind with
  | .endOfInput => .endOfInput expected
  | .unrecognised => .unrecognised token.value
  | .reserved _ => .reservedWord token.value expected
  | _ => .unexpected expected token.describe

/-- The diagnostic when the current token is not what was expected. -/
def unexpected (expected : String) (cursor : Cursor) : Diagnostic :=
  { cause := unexpectedCause expected cursor.current, span := cursor.current.span }

end Cursor

end Linewise
