import Linewise.Tree.TypeExpr

/-!
# Patterns

Patterns stand on the left of assignments, in the arms of `when`, as the inputs
of function literals and on the right of `is`.
-/

namespace Linewise

/-- One line of a braced list: what it is about, what it says of that, and where
it stands. -/
structure Entry (κ α : Type) where
  key : κ
  value : α
  span : Span

inductive Pattern where
  /-- Written `_`. -/
  | wildcard (span : Span)
  /-- A lowercase name. -/
  | variable (name : Lexeme)
  | number (literal : Lexeme)
  | text (literal : Lexeme)
  /-- Written `{ name : pattern }`, one field a line. -/
  | destructure (fields : List (Entry Lexeme Pattern)) (span : Span)
  /-- Written `()`. -/
  | unit (span : Span)
  /-- Written `a ; b ; c`. -/
  | tuple (elements : List Pattern) (span : Span)
  /-- Written `left or right`. -/
  | or (left right : Pattern) (span : Span)
  /-- Written `(pattern :: Type)`. -/
  | annotate (pattern : Pattern) (type : TypeExpr) (span : Span)
  /-- Written `set name`. -/
  | set (name : Lexeme) (span : Span)
  /-- Written `Variant element1 element2 ...`. -/
  | variant (name : Lexeme) (elements : List Pattern) (span : Span)

end Linewise
