/-!
# Layout of written outlines

A written outline is laid out with one form a line, each two blanks deeper than
the form around it.  Parentheses inside quotes are text and stay where they are.
-/

namespace Linewise
namespace Layout

inductive Mode where
  | plain
  | inQuotes
  /-- Inside quotes, behind a backslash. -/
  | escaped
deriving DecidableEq

/-- Takes one blank off the end of a text that is kept in reverse. -/
def dropBlank : List Char -> List Char
  | ' ' :: rest => rest
  | written => written

def freshLine (depth : Nat) (written : List Char) : List Char :=
  List.replicate (2 * depth) ' ' ++ '\n' :: dropBlank written

/-- Lays out the rest of an outline behind what is `written`, which is kept in
reverse. -/
def layoutFrom : Mode -> Nat -> List Char -> List Char -> List Char
  | _, _, written, [] => written.reverse
  | .escaped, depth, written, c :: rest => layoutFrom .inQuotes depth (c :: written) rest
  | .inQuotes, depth, written, c :: rest =>
      let mode := if c = '\\' then .escaped else if c = '"' then .plain else .inQuotes
      layoutFrom mode depth (c :: written) rest
  | .plain, depth, written, c :: rest =>
      if c = '"' then
        layoutFrom .inQuotes depth (c :: written) rest
      else if c = '(' then
        let opened := if written.isEmpty then written else freshLine depth written
        layoutFrom .plain (depth + 1) (c :: opened) rest
      else if c = ')' then
        layoutFrom .plain (depth - 1) (c :: written) rest
      else
        layoutFrom .plain depth (c :: written) rest

end Layout

def layout (outline : String) : String :=
  String.ofList (Layout.layoutFrom .plain 0 [] outline.toList)

end Linewise
