import Linewise.Grammar.Nesting
import Linewise.Token.Stream

/-!
# Reading source files

Tokens are read into a source file together with the diagnostics of the
statements that were given up.  For a source text the diagnostics of its stray
characters are added, and all of them are put in the order of the text.
-/

namespace Linewise

/-- A source file and what is to be said about it. -/
structure Parsed where
  file : SourceFile
  errors : List Diagnostic

def parseTokens (tokens : List Token) : Except Fault Parsed :=
  match Grammar.statements Level.outermost .endOfInput (Cursor.ofTokens tokens) with
  | .ok statements cursor =>
      let span := Span.between 0 cursor.current.span.stop
      .ok { file := { statements := statements, span := span }, errors := cursor.errors }
  | .error diagnostic cursor =>
      let span := Span.between 0 cursor.current.span.stop
      .ok { file := { statements := [], span := span }, errors := cursor.errors ++ [diagnostic] }
  | .fault fault => .error fault

/-- Puts the diagnostics of a text in order.  A statement that stops at a stray
character repeats the diagnostic of that character, which is kept once. -/
def mergeErrors (lexical structural : List Diagnostic) : List Diagnostic :=
  Diagnostic.dropRepeats (Diagnostic.sort (lexical ++ structural))

def parse (source : String) : Except Fault Parsed :=
  let (tokens, lexical) := tokenize source
  match parseTokens tokens with
  | .ok parsed => .ok { parsed with errors := mergeErrors lexical parsed.errors }
  | .error fault => .error fault

end Linewise
