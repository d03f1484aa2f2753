import Linewise.Cursor.Basic
import Linewise.Fault
import Linewise.Text.ByteOffset

/-!
# Parsers

A parser reads from a cursor and replies with a value, with a diagnostic, or
with a fault.  A value and a diagnostic both come with the cursor as the parser
left it, so a failed parser has not moved back; going back is the work of
`speculate`.
-/

namespace Linewise

inductive Reply (α : Type) where
  | ok (value : α) (cursor : Cursor)
  | error (diagnostic : Diagnostic) (cursor : Cursor)
  | fault (fault : Fault)

def Parser (α : Type) : Type := Cursor -> Reply α

namespace Parser

variable {α β : Type}

protected def pure (value : α) : Parser α := fun cursor => .ok value cursor

protected def bind (first : Parser α) (next : α -> Parser β) : Parser β := fun cursor =>
  match first cursor with
  | .ok value cursor => next value cursor
  | .error diagnostic cursor => .error diagnostic cursor
  | .fault fault => .fault fault

instance : Monad Parser where
  pure := Parser.pure
  bind := Parser.bind

theorem pure_apply (value : α) (cursor : Cursor) :
    (pure value : Parser α) cursor = .ok value cursor := rfl

theorem bind_apply (first : Parser α) (next : α -> Parser β) (cursor : Cursor) :
    (first >>= next) cursor =
      match first cursor with
      | .ok value cursor => next value cursor
      | .error diagnostic cursor => .error diagnostic cursor
      | .fault fault => .fault fault := rfl

/-!
## Reading the cursor
-/

def look (view : Cursor -> α) : Parser α := fun cursor => .ok (view cursor) cursor

def currentKind : Parser Kind := look Cursor.kind

def currentSpan : Parser Span := look (fun cursor => cursor.current.span)

def isAt (kind : Kind) : Parser Bool := look (Cursor.isAt kind)

def spanFrom (start : Span) : Parser Span := look (Cursor.spanFrom start)

/-!
## Failing
-/

def unexpected (expected : String) : Parser α := fun cursor =>
  .error (cursor.unexpected expected) cursor

def faulty (fault : Fault) : Parser α := fun _ => .fault fault

/-!
## Moving on
-/

def advance : Parser Token := fun cursor => .ok cursor.current cursor.advance

def skipLineBreaks : Parser Bool := fun cursor =>
  .ok (cursor.isAt .lineBreak) cursor.skipLineBreaks

def leadingComments : Parser (List Lexeme) := fun cursor =>
  .ok cursor.leadingComments cursor.skipTrivia

/-- Reads a token of the given kind; the diagnostic for any other is given. -/
def expectOr (kind : Kind) (diagnostic : Cursor -> Diagnostic) : Parser Token := fun cursor =>
  if cursor.isAt kind then
    .ok cursor.current cursor.advance
  else
    .error (diagnostic cursor) cursor

/-- Reads a token of the given kind, which goes by the given description. -/
def expectAs (kind : Kind) (description : String) : Parser Token :=
  expectOr kind (Cursor.unexpected description)

def expect (kind : Kind) : Parser Token := expectAs kind kind.describe

/-!
## Trying and nesting
-/

def speculate (parser : Parser α) : Parser (Option α) := fun cursor =>
  match parser cursor with
  | .ok value cursor => .ok (some value) cursor
  | .error _ failed => .ok none (failed.restore cursor.checkpoint)
  | .fault fault => .fault fault

def maxDepth : Nat := 64

def tooDeep : Parser α := fun cursor =>
  .error { cause := .nestingTooDeep maxDepth, span := cursor.current.span } cursor

def closeLevel : Reply α -> Reply α
  | .ok value cursor =>
      match cursor.depth with
      | 0 => .fault .unbalanced
      | depth + 1 => .ok value { cursor with depth := depth }
  | .error diagnostic cursor =>
      match cursor.depth with
      | 0 => .fault .unbalanced
      | depth + 1 => .error diagnostic { cursor with depth := depth }
  | .fault fault => .fault fault

/-- Runs a parser one level further in; fails without running it if as many
levels are open as may nest. -/
def nested (parser : Parser α) : Parser α := fun cursor =>
  if cursor.depth < maxDepth then
    closeLevel (parser { cursor with depth := cursor.depth + 1 })
  else
    tooDeep cursor

/-!
## Repeating

A loop may run as often as there are tokens left.  A loop that would go on
without taking a token is a fault.
-/

/-- Reads items as long as `more` says so, at most `bound` of them. -/
def repeatUpTo (more : Cursor -> Bool) (item : Parser α) : Nat -> Parser (List α)
  | 0 => fun cursor => if more cursor then .fault .stalled else .ok [] cursor
  | bound + 1 => fun cursor =>
      if more cursor then
        (do
          let first <- item
          let rest <- repeatUpTo more item bound
          pure (first :: rest) : Parser (List α)) cursor
      else
        .ok [] cursor

def repeatWhile (more : Cursor -> Bool) (item : Parser α) : Parser (List α) := fun cursor =>
  repeatUpTo more item cursor.ahead.length cursor

end Parser

end Linewise
