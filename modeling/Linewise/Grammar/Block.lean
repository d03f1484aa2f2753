import Linewise.Grammar.Level

/-!
# Lists of statements

Statements stand on lines of their own, with their comments above them.  A
statement that cannot be read, or that something other than a line break
follows, is given up: its diagnostic is noted, an error takes its place, and
reading goes on with the next line outside of all brackets.
-/

namespace Linewise
namespace Grammar

open Linewise.Parser

/-- Whether a list of statements may end in front of the current token. -/
def atListEnd (terminator : Kind) (cursor : Cursor) : Bool :=
  cursor.isAt terminator || !cursor.hasTokens

def endOfStatement (terminator : Kind) : Parser Unit := do
  let lineEnds <- isAt .lineBreak
  let listEnds <- look (atListEnd terminator)
  if lineEnds || listEnds then
    pure ()
  else
    unexpected ("line break or " ++ terminator.describe)

def giveUp (terminator : Kind) (start : Span) (diagnostic : Diagnostic) (cursor : Cursor) :
    Statement × Cursor :=
  let behind := (cursor.record diagnostic).skipStatement terminator
  (.error (behind.spanFrom start), behind)

/-- Runs the parser of a statement; a failure is turned into an error statement. -/
def recovering (terminator : Kind) (parser : Parser Statement) : Parser Statement :=
  fun cursor =>
    match parser cursor with
    | .ok statement behind => .ok statement behind
    | .error diagnostic failed =>
        let (statement, behind) := giveUp terminator cursor.current.span diagnostic failed
        .ok statement behind
    | .fault fault => .fault fault

def statementLine (level : Level) (terminator : Kind) (comments : List Lexeme) :
    Parser Statement := do
  let statement <- level.statement comments
  endOfStatement terminator
  pure statement

def statementsUpTo (level : Level) (terminator : Kind) : Nat -> Parser (List Statement)
  | 0 => faulty .stalled
  | bound + 1 => do
      let comments <- leadingComments
      let ended <- look (atListEnd terminator)
      if ended then
        pure []
      else
        let first <- recovering terminator (statementLine level terminator comments)
        let more <- isAt .lineBreak
        if more then
          let _ <- advance
          let rest <- statementsUpTo level terminator bound
          pure (first :: rest)
        else
          pure [first]

def statements (level : Level) (terminator : Kind) : Parser (List Statement) := do
  let bound <- look (fun cursor => cursor.ahead.length + 1)
  statementsUpTo level terminator bound

end Grammar
end Linewise
