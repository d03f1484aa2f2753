import Linewise.Span
import Linewise.Text.Quoted
import Linewise.Token.Kind

/-!
# Tokens

A lexeme is a piece of source text with its span; a token is a lexeme with a
kind.  The names, numbers, texts and comments of a tree are lexemes.
-/

namespace Linewise

/-- A piece of source text and where it stands. -/
structure Lexeme where
  value : String
  span : Span
deriving DecidableEq

structure Token extends Lexeme where
  kind : Kind
deriving DecidableEq

namespace Token

def endAt (position : Nat) : Token :=
  { kind := .endOfInput, value := "", span := Span.between position position }

def isComment (token : Token) : Bool := token.kind == .comment

def isLineBreak (token : Token) : Bool := token.kind == .lineBreak

/-- The lowercase names that are binary operators between two operands. -/
def operatorWords : List String := ["as", "to", "by", "is", "and", "or"]

/-- Whether this is a lowercase name that is spelled like a binary operator. -/
def isOperatorWord (token : Token) : Bool :=
  token.kind == .lowercaseName && operatorWords.contains token.value

def describe (token : Token) : String :=
  match token.kind with
  | .capitalName => "capitalized name `" ++ token.value ++ "`"
  | .lowercaseName => "name `" ++ token.value ++ "`"
  | .number => "number `" ++ token.value ++ "`"
  | .text => "text " ++ token.value
  | .comment => "comment"
  | .unrecognised => "unrecognised character " ++ Text.quoted token.value
  | kind => kind.describe

def display (token : Token) : String :=
  "Token \x7b\nkind: " ++ token.kind.name ++ ",\nvalue: " ++ token.value ++ "\x7d"

/-!
## First tokens

A list of operands goes on as long as the next token can begin an operand.  An
operator word never does, since it joins what stands on its two sides.
-/

def expressionStarts : List Kind :=
  [.mark .underscore, .lowercaseName, .capitalName, .number, .text, .mark .openCurly,
    .mark .openParen]

def patternStarts : List Kind :=
  [.mark .underscore, .lowercaseName, .number, .text, .mark .openCurly, .mark .openParen]

def typeStarts : List Kind :=
  [.mark .underscore, .lowercaseName, .capitalName, .mark .openCurly, .mark .openParen]

def startsExpression (token : Token) : Bool :=
  expressionStarts.contains token.kind && !token.isOperatorWord

def startsPattern (token : Token) : Bool :=
  patternStarts.contains token.kind && !token.isOperatorWord

def startsType (token : Token) : Bool :=
  typeStarts.contains token.kind && !token.isOperatorWord

end Token

end Linewise
