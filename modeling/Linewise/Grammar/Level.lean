import Linewise.Cursor.Sequence
import Linewise.Tree.Expression

/-!
# Levels and names

Every way in which the grammar contains itself passes through one of four rules
that open a nesting level.  A `Level` holds these four, as they are to be used by
the rules around them; each rule of the grammar is a plain function of a level.
The names and literals that need no level stand here as well.
-/

namespace Linewise

structure Level where
  /-- A statement below the given comments. -/
  statement : List Lexeme -> Parser Statement
  /-- An expression whose operators have at least the given precedence. -/
  expression : Nat -> Parser Expression
  pattern : Parser Pattern
  type : Parser TypeExpr

namespace Grammar

open Linewise.Parser

/-!
## Names and literals
-/

def leaf (kind : Kind) (description : String) : Parser Lexeme := do
  let token <- expectAs kind description
  pure token.toLexeme

def typeName : Parser Lexeme := leaf .capitalName "type name"

def variantName : Parser Lexeme := leaf .capitalName "variant name"

def variableName : Parser Lexeme := leaf .lowercaseName "variable name"

def typeParameterName : Parser Lexeme := leaf .lowercaseName "type parameter name"

def attributeName : Parser Lexeme := leaf .lowercaseName "attribute name"

def number : Parser Lexeme := leaf .number Kind.number.describe

def unquoted? (value : String) : Option String :=
  let cs := value.toList
  match Text.slice? 1 (Text.byteLength cs - 1) cs with
  | some inner => some (String.ofList inner)
  | none => none

def text : Parser Lexeme := do
  let token <- expect .text
  match unquoted? token.value with
  | some value => pure { value := value, span := token.span }
  | none => faulty .unquotedText

end Grammar

end Linewise
