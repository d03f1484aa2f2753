import Linewise.Operator
import Linewise.Tree.Pattern

/-!
# Expressions, statements and source files

A source file is a list of statements, one a line.  A statement that could not
be read stays in the list as an error with its span, so that its neighbours keep
their places.  Parentheses have no node of their own.
-/

namespace Linewise

inductive Attribute where
  /-- Written `[name]`. -/
  | plain (name : Lexeme) (span : Span)
  /-- Written `[name : "text"]`. -/
  | withText (name text : Lexeme) (span : Span)
  /-- Written `[name : number]`. -/
  | withNumber (name number : Lexeme) (span : Span)

structure Header where
  comments : List Lexeme
  attributes : List Attribute

inductive Representation where
  /-- Written `{ name :: Type }`, one field a line. -/
  | structured (fields : List (Entry Lexeme Signature)) (span : Span)
  /-- Written `{ Variant element1 element2 ... }`, one variant a line. -/
  | enumerated (variants : List (Entry Lexeme (List TypeExpr))) (span : Span)

mutual

inductive Expression where
  /-- Written `_`. -/
  | placeholder (span : Span)
  /-- A lowercase name. -/
  | variable (name : Lexeme)
  /-- A capitalized name. -/
  | typeName (name : Lexeme)
  | number (literal : Lexeme)
  | text (literal : Lexeme)
  /-- Written `()`. -/
  | unit (span : Span)
  /-- Written `{ name : value }`, one field a line. -/
  | record (fields : List (Entry Lexeme Expression)) (span : Span)
  /-- Written `{ statements }`. -/
  | block (statements : List Statement) (span : Span)
  /-- Written `"text" input1 input2 ...`. -/
  | formattedText (text : Lexeme) (inputs : List Expression) (span : Span)
  /-- Written `function input1 input2 ...`. -/
  | call (function : Expression) (inputs : List Expression) (span : Span)
  /-- Written `do input`. -/
  | perform (input : Expression) (span : Span)
  /-- Written `when input { arms }`, one arm `pattern -> value` a line. -/
  | when (input : Expression) (arms : List (Entry Pattern Expression)) (span : Span)
  /-- Written `intrinsic "name" input1 input2 ...`. -/
  | intrinsic (name : Lexeme) (inputs : List Expression) (span : Span)
  | binary (operator : Operator) (left : Expression) (right : Operand) (span : Span)
  /-- Written `a ; b ; c`. -/
  | tuple (elements : List Expression) (span : Span)
  /-- Written `a , b , c`. -/
  | collection (elements : List Expression) (span : Span)
  /-- Written `input1 input2 ... -> output`. -/
  | function (inputs : List Pattern) (output : Expression) (span : Span)

/-- The right operand of an operator, in the sublanguage the operator asks for. -/
inductive Operand where
  | expression (expression : Expression)
  | pattern (pattern : Pattern)
  | type (type : TypeExpr)

inductive Statement where
  /-- Written `Name : params => type { ... }`. -/
  | typeDefinition (header : Header) (name : Lexeme) (parameters : Option TypeFunction)
      (representation : Option Representation) (span : Span)
  /-- Written `Name : params => trait Type where ...`. -/
  | traitDefinition (header : Header) (name : Lexeme) (parameters : Option TypeFunction)
      (type : Option TypeExpr) (clause : Option WhereClause) (span : Span)
  /-- Written `name :: Type where ...`. -/
  | constantDefinition (header : Header) (name : Lexeme) (signature : Signature)
      (span : Span)
  /-- Written `instance (Trait param1 param2 ...) where ... : value`. -/
  | instanceDefinition (header : Header) (trait : Lexeme) (parameters : List TypeExpr)
      (clause : Option WhereClause) (value : Option Expression) (span : Span)
  /-- Written `pattern : value`. -/
  | assignment (pattern : Pattern) (value : Expression) (span : Span)
  | expression (expression : Expression) (span : Span)
  /-- A statement that could not be read. -/
  | error (span : Span)

end

structure SourceFile where
  statements : List Statement
  span : Span

namespace Statement

def span : Statement -> Span
  | .typeDefinition _ _ _ _ span => span
  | .traitDefinition _ _ _ _ _ span => span
  | .constantDefinition _ _ _ span => span
  | .instanceDefinition _ _ _ _ _ span => span
  | .assignment _ _ span => span
  | .expression _ span => span
  | .error span => span

def isError : Statement -> Bool
  | .error _ => true
  | _ => false

/-- An assignment to a plain variable, read as a field of a record. -/
def field? : Statement -> Option (Entry Lexeme Expression)
  | .assignment (.variable name) value span =>
      some { key := name, value := value, span := span }
  | _ => none

end Statement

def Entry.toStatement (field : Entry Lexeme Expression) : Statement :=
  .assignment (.variable field.key) field.value field.span

namespace SourceFile

/-- The number of statements of the file itself that could not be read. -/
def errorCount (file : SourceFile) : Nat := (file.statements.filter Statement.isError).length

end SourceFile

end Linewise
