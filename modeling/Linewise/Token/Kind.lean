/-!
# Kinds of tokens

The kind of a token says how it may be used: names and literals, trivia, the
fixed marks and the reserved words.  Marks and reserved words are spelled in
exactly one way.
-/

namespace Linewise

inductive Mark where
  | underscore
  | openBracket
  | closeBracket
  | openCurly
  | closeCurly
  | openParen
  | closeParen
  | colon
  | doubleColon
  | fatArrow
  | arrow
  | caret
  | star
  | slash
  | percent
  | plus
  | dash
  | less
  | lessEquals
  | greater
  | greaterEquals
  | equals
  | slashEquals
  | dot
  | semicolon
  | comma
deriving DecidableEq

namespace Mark

def all : List Mark :=
  [.underscore, .openBracket, .closeBracket, .openCurly, .closeCurly, .openParen,
    .closeParen, .colon, .doubleColon, .fatArrow, .arrow, .caret, .star, .slash, .percent,
    .plus, .dash, .less, .lessEquals, .greater, .greaterEquals, .equals, .slashEquals,
    .dot, .semicolon, .comma]

def spelling : Mark -> String
  | .underscore => "_"
  | .openBracket => "["
  | .closeBracket => "]"
  | .openCurly => "\x7b"
  | .closeCurly => "\x7d"
  | .openParen => "("
  | .closeParen => ")"
  | .colon => ":"
  | .doubleColon => "::"
  | .fatArrow => "=>"
  | .arrow => "->"
  | .caret => "^"
  | .star => "*"
  | .slash => "/"
  | .percent => "%"
  | .plus => "+"
  | .dash => "-"
  | .less => "<"
  | .lessEquals => "<="
  | .greater => ">"
  | .greaterEquals => ">="
  | .equals => "="
  | .slashEquals => "/="
  | .dot => "."
  | .semicolon => ";"
  | .comma => ","

def name : Mark -> String
  | .underscore => "Underscore"
  | .openBracket => "OpenBracket"
  | .closeBracket => "CloseBracket"
  | .openCurly => "OpenCurly"
  | .closeCurly => "CloseCurly"
  | .openParen => "OpenParen"
  | .closeParen => "CloseParen"
  | .colon => "Colon"
  | .doubleColon => "DoubleColon"
  | .fatArrow => "FatArrow"
  | .arrow => "Arrow"
  | .caret => "Caret"
  | .star => "Star"
  | .slash => "Slash"
  | .percent => "Percent"
  | .plus => "Plus"
  | .dash => "Dash"
  | .less => "Less"
  | .lessEquals => "LessEquals"
  | .greater => "Greater"
  | .greaterEquals => "GreaterEquals"
  | .equals => "Equals"
  | .slashEquals => "SlashEquals"
  | .dot => "Dot"
  | .semicolon => "Semicolon"
  | .comma => "Comma"

end Mark

inductive ReservedWord where
  | doWord
  | inferWord
  | instanceWord
  | intrinsicWord
  | setWord
  | traitWord
  | typeWord
  | whenWord
  | whereWord
deriving DecidableEq

namespace ReservedWord

def all : List ReservedWord :=
  [.doWord, .inferWord, .instanceWord, .intrinsicWord, .setWord, .traitWord, .typeWord,
    .whenWord, .whereWord]

def spelling : ReservedWord -> String
  | .doWord => "do"
  | .inferWord => "infer"
  | .instanceWord => "instance"
  | .intrinsicWord => "intrinsic"
  | .setWord => "set"
  | .traitWord => "trait"
  | .typeWord => "type"
  | .whenWord => "when"
  | .whereWord => "where"

def name : ReservedWord -> String
  | .doWord => "Do"
  | .inferWord => "Infer"
  | .instanceWord => "Instance"
  | .intrinsicWord => "Intrinsic"
  | .setWord => "Set"
  | .traitWord => "Trait"
  | .typeWord => "Type"
  | .whenWord => "When"
  | .whereWord => "Where"

end ReservedWord

inductive Kind where
  | endOfInput
  | capitalName
  | lowercaseName
  | number
  | text
  | comment
  | lineBreak
  /-- A character that begins no token; no rule of the grammar accepts it. -/
  | unrecognised
  | mark (mark : Mark)
  | reserved (word : ReservedWord)
deriving DecidableEq

inductive KindClass where
  | capitalName
  | lowercaseName
  | number
  | text
  | comment
  | lineBreak
  | symbol
  | unrecognised
  | endOfInput
deriving DecidableEq

namespace Kind

def all : List Kind :=
  [.endOfInput, .capitalName, .lowercaseName, .number, .text, .comment, .lineBreak,
    .unrecognised] ++ Mark.all.map .mark ++ ReservedWord.all.map .reserved

def name : Kind -> String
  | .endOfInput => "EOF"
  | .capitalName => "CapitalName"
  | .lowercaseName => "LowercaseName"
  | .number => "Number"
  | .text => "Text"
  | .comment => "Comment"
  | .lineBreak => "LineBreak"
  | .unrecognised => "Unrecognised"
  | .mark m => m.name
  | .reserved w => w.name

def ofName? (name : String) : Option Kind :=
  all.find? (fun kind => kind.name == name)

def classOf : Kind -> KindClass
  | .endOfInput => .endOfInput
  | .capitalName => .capitalName
  | .lowercaseName => .lowercaseName
  | .number => .number
  | .text => .text
  | .comment => .comment
  | .lineBreak => .lineBreak
  | .unrecognised => .unrecognised
  | .mark _ => .symbol
  | .reserved _ => .symbol

def isReserved : Kind -> Bool
  | .reserved _ => true
  | _ => false

/-- Whether a token of this kind can be the last one of an operand.  Behind such
a token `+` and `-` are operators; elsewhere they may be the sign of a number. -/
def endsOperand : Kind -> Bool
  | .capitalName => true
  | .lowercaseName => true
  | .number => true
  | .text => true
  | .mark .underscore => true
  | .mark .closeParen => true
  | .mark .closeCurly => true
  | .mark .closeBracket => true
  | _ => false

def opensBracket : Kind -> Bool
  | .mark .openParen => true
  | .mark .openCurly => true
  | .mark .openBracket => true
  | _ => false

def closesBracket : Kind -> Bool
  | .mark .closeParen => true
  | .mark .closeCurly => true
  | .mark .closeBracket => true
  | _ => false

def spelling? : Kind -> Option String
  | .mark m => some m.spelling
  | .reserved w => some w.spelling
  | _ => none

def describe : Kind -> String
  | .endOfInput => "end of input"
  | .capitalName => "capitalized name"
  | .lowercaseName => "name"
  | .number => "number"
  | .text => "text"
  | .comment => "comment"
  | .lineBreak => "line break"
  | .unrecognised => "unrecognised character"
  | .mark m => "`" ++ m.spelling ++ "`"
  | .reserved w => "`" ++ w.spelling ++ "`"

/-- The kind of a word that is not a name: the low line on its own and the
reserved words. -/
def ofReserved? (word : String) : Option Kind :=
  if word = Mark.underscore.spelling then
    some (.mark .underscore)
  else
    match ReservedWord.all.find? (fun w => w.spelling == word) with
    | some w => some (.reserved w)
    | none => none

end Kind

end Linewise
