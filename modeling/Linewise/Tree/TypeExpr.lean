import Linewise.Token.Basic

/-!
# Types

The forms of types as they are written, and what goes with them: constraints,
`where` clauses, signatures and the parameter lists of type definitions.
-/

namespace Linewise

inductive TypeExpr where
  /-- Written `_`. -/
  | placeholder (span : Span)
  /-- A lowercase name. -/
  | parameter (name : Lexeme)
  /-- Written `Name` or `Name param1 param2 ...`. -/
  | named (name : Lexeme) (parameters : List TypeExpr) (span : Span)
  /-- Written `input1 input2 ... -> output`. -/
  | function (inputs : List TypeExpr) (output : TypeExpr) (span : Span)
  /-- Written `{ output }`. -/
  | block (output : TypeExpr) (span : Span)
  /-- Written `()`. -/
  | unit (span : Span)
  /-- Written `(a ; b ; c)`. -/
  | tuple (elements : List TypeExpr) (span : Span)

inductive Constraint where
  /-- Written `(Trait param1 param2 ...)`. -/
  | bound (trait : Lexeme) (parameters : List TypeExpr) (span : Span)
  /-- Written `(infer param)`. -/
  | infer (parameter : Lexeme) (span : Span)
  /-- Written `(param : Type)`. -/
  | fallback (parameter : Lexeme) (value : TypeExpr) (span : Span)

/-- Written `where (constraint1) (constraint2) ...`. -/
structure WhereClause where
  constraints : List Constraint
  span : Span

structure Signature where
  type : TypeExpr
  clause : Option WhereClause
  span : Span

structure TypeFunction where
  parameters : List Lexeme
  span : Span

end Linewise
