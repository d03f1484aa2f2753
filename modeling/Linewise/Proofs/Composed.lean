import Linewise.Proofs.Script

/-!
# Properties of all scripts

Scripts are put together in few ways: words stand one behind the other, in curly
or in square brackets, and statements are announced.  A property that survives
these holds of the script of every tree.
-/

namespace Linewise

namespace Kind

def isSingle : Kind -> Bool
  | .capitalName => true
  | .lowercaseName => true
  | .number => true
  | .text => true
  | .reserved _ => true
  | .mark .openParen => false
  | .mark .closeParen => false
  | .mark .openCurly => false
  | .mark .closeCurly => false
  | .mark .openBracket => false
  | .mark .closeBracket => false
  | .mark .semicolon => false
  | .mark .comma => false
  | .mark _ => true
  | _ => false

end Kind

namespace Symbol

structure Composed (P : List Symbol -> Prop) : Prop where
  nil : P []
  append : forall {first second}, P first -> P second -> P (first ++ second)
  word : forall {kind : Kind} value, kind.isSingle = true -> P [.word kind value]
  curly : forall {inner}, P inner -> P (mark .openCurly :: (inner ++ [mark .closeCurly]))
  square : forall {inner}, P inner -> P (mark .openBracket :: (inner ++ [mark .closeBracket]))
  announced : forall begun {rest}, P rest -> P (.statement begun :: rest)

namespace Composed

variable {P : List Symbol -> Prop}

theorem cons (h : Composed P) {symbol : Symbol} {rest : List Symbol} (hsymbol : P [symbol])
    (hrest : P rest) : P (symbol :: rest) := h.append hsymbol hrest

theorem flatMap (h : Composed P) {α : Type} {script : α -> List Symbol} {parts : List α}
    (hparts : forall part, part ∈ parts -> P (script part)) : P (parts.flatMap script) := by
  induction parts with
  | nil => exact h.nil
  | cons part rest ih =>
      rw [List.flatMap_cons]
      exact h.append (hparts part (by simp))
        (ih (fun other hother => hparts other (by simp [hother])))

theorem optionScript (h : Composed P) {α : Type} {script : α -> List Symbol} (part : Option α)
    (hpart : forall found, P (script found)) : P (optionScript script part) := by
  cases part with
  | none => exact h.nil
  | some found => exact hpart found

theorem leaf (h : Composed P) {kind : Kind} (lexeme : Lexeme) (hkind : kind.isSingle = true) :
    P [.leaf kind lexeme] := h.word lexeme.value hkind

theorem text (h : Composed P) (lexeme : Lexeme) : P [.text lexeme] := h.word _ rfl

theorem mark (h : Composed P) {found : Mark} (hmark : (Kind.mark found).isSingle = true) :
    P [.mark found] := h.word _ hmark

theorem reserved (h : Composed P) (word : ReservedWord) : P [.reserved word] := h.word _ rfl

theorem operator (h : Composed P) (found : Operator) : P [found.symbol] := by
  cases found <;> exact h.word _ rfl

end Composed
end Symbol

open Linewise.Symbol

variable {P : List Symbol -> Prop}

/-!
## Types
-/

namespace TypeExpr

mutual

theorem script_composed (h : Composed P) (type : TypeExpr) : P type.script := by
  cases type with
  | placeholder span => exact h.mark rfl
  | parameter name => exact h.leaf name rfl
  | named name parameters span =>
      exact h.cons (h.leaf name rfl) (scripts_composed h parameters)
  | function inputs output span =>
      exact h.append (scripts_composed h inputs)
        (h.cons (h.mark rfl) (script_composed h output))
  | block output span => exact h.curly (script_composed h output)
  | unit span => exact h.nil
  | tuple elements span => exact scripts_composed h elements

theorem scripts_composed (h : Composed P) (types : List TypeExpr) : P (scripts types) := by
  cases types with
  | nil => exact h.nil
  | cons type rest => exact h.append (script_composed h type) (scripts_composed h rest)

end

end TypeExpr

theorem Constraint.script_composed (h : Composed P) (constraint : Constraint) :
    P constraint.script := by
  cases constraint with
  | bound trait parameters span =>
      exact h.cons (h.leaf trait rfl) (TypeExpr.scripts_composed h parameters)
  | infer parameter span => exact h.cons (h.reserved _) (h.leaf parameter rfl)
  | fallback parameter value span =>
      exact h.cons (h.leaf parameter rfl)
        (h.cons (h.mark rfl) (TypeExpr.script_composed h value))

theorem WhereClause.script_composed (h : Composed P) (clause : WhereClause) :
    P clause.script :=
  h.cons (h.reserved _) (h.flatMap (fun constraint _ => constraint.script_composed h))

theorem Signature.script_composed (h : Composed P) (signature : Signature) :
    P signature.script :=
  h.append (TypeExpr.script_composed h signature.type)
    (h.optionScript _ (WhereClause.script_composed h))

theorem TypeFunction.script_composed (h : Composed P) (function : TypeFunction) :
    P function.script := by
  apply h.append _ (h.mark rfl)
  rw [List.map_eq_flatMap]
  exact h.flatMap (fun name _ => h.leaf name rfl)

/-!
## Patterns
-/

namespace Pattern

mutual

theorem script_composed (h : Composed P) (pattern : Pattern) : P pattern.script := by
  cases pattern with
  | wildcard span => exact h.mark rfl
  | «variable» name => exact h.leaf name rfl
  | number literal => exact h.leaf literal rfl
  | text literal => exact h.text literal
  | destructure fields span => exact h.curly (fieldScripts_composed h fields)
  | unit span => exact h.nil
  | tuple elements span => exact scripts_composed h elements
  | or left right span =>
      exact h.append (script_composed h left) (h.cons (h.word _ rfl) (script_composed h right))
  | annotate pattern type span =>
      exact h.append (script_composed h pattern)
        (h.cons (h.mark rfl) (TypeExpr.script_composed h type))
  | set name span => exact h.cons (h.reserved _) (h.leaf name rfl)
  | variant name elements span =>
      exact h.cons (h.leaf name rfl) (scripts_composed h elements)

theorem scripts_composed (h : Composed P) (patterns : List Pattern) : P (scripts patterns) := by
  cases patterns with
  | nil => exact h.nil
  | cons pattern rest => exact h.append (script_composed h pattern) (scripts_composed h rest)

theorem fieldScripts_composed (h : Composed P) (fields : List (Entry Lexeme Pattern)) :
    P (fieldScripts fields) := by
  cases fields with
  | nil => exact h.nil
  | cons field rest =>
      cases field with
      | mk key value span =>
          exact h.cons (h.leaf key rfl) (h.cons (h.mark rfl)
            (h.append (script_composed h value) (fieldScripts_composed h rest)))

end

end Pattern

/-!
## What stands around definitions
-/

theorem Attribute.script_composed (h : Composed P) (found : Attribute) : P found.script := by
  cases found with
  | plain name span => exact h.square (h.leaf name rfl)
  | withText name value span =>
      exact h.square (h.cons (h.leaf name rfl) (h.cons (h.mark rfl) (h.text value)))
  | withNumber name value span =>
      exact h.square (h.cons (h.leaf name rfl) (h.cons (h.mark rfl) (h.leaf value rfl)))

theorem Header.script_composed (h : Composed P) (header : Header) : P header.script :=
  h.flatMap (fun found _ => found.script_composed h)

theorem Representation.script_composed (h : Composed P) (representation : Representation) :
    P representation.script := by
  cases representation with
  | structured fields span =>
      apply h.curly
      apply h.flatMap
      intro field _
      exact h.cons (h.leaf _ rfl) (h.cons (h.mark rfl) (field.value.script_composed h))
  | enumerated variants span =>
      apply h.curly
      apply h.flatMap
      intro variant _
      exact h.cons (h.leaf _ rfl) (TypeExpr.scripts_composed h variant.value)

/-!
## Expressions and statements
-/

mutual

theorem Expression.script_composed (h : Composed P) (expression : Expression) :
    P expression.script := by
  cases expression with
  | placeholder span => exact h.mark rfl
  | «variable» name => exact h.leaf name rfl
  | typeName name => exact h.leaf name rfl
  | number literal => exact h.leaf literal rfl
  | text literal => exact h.text literal
  | unit span => exact h.nil
  | record fields span => exact h.curly (Expression.fieldScripts_composed h fields)
  | block statements span => exact h.curly (Statement.scripts_composed h statements)
  | formattedText text inputs span =>
      exact h.cons (h.text text) (Expression.scripts_composed h inputs)
  | call function inputs span =>
      exact h.append (function.script_composed h) (Expression.scripts_composed h inputs)
  | perform input span => exact h.cons (h.reserved _) (input.script_composed h)
  | when input arms span =>
      exact h.cons (h.reserved _)
        (h.append (input.script_composed h) (h.curly (Expression.armScripts_composed h arms)))
  | intrinsic name inputs span =>
      exact h.cons (h.reserved _)
        (h.cons (h.text name) (Expression.scripts_composed h inputs))
  | binary operator left right span =>
      exact h.append (left.script_composed h)
        (h.cons (h.operator operator) (right.script_composed h))
  | tuple elements span => exact Expression.scripts_composed h elements
  | collection elements span => exact Expression.scripts_composed h elements
  | function inputs output span =>
      exact h.append (Pattern.scripts_composed h inputs)
        (h.cons (h.mark rfl) (output.script_composed h))

theorem Expression.scripts_composed (h : Composed P) (expressions : List Expression) :
    P (Expression.scripts expressions) := by
  cases expressions with
  | nil => exact h.nil
  | cons expression rest =>
      exact h.append (expression.script_composed h) (Expression.scripts_composed h rest)

theorem Expression.fieldScripts_composed (h : Composed P)
    (fields : List (Entry Lexeme Expression)) : P (Expression.fieldScripts fields) := by
  cases fields with
  | nil => exact h.nil
  | cons field rest =>
      cases field with
      | mk key value span =>
          exact h.cons (h.leaf key rfl) (h.cons (h.mark rfl)
            (h.append (value.script_composed h) (Expression.fieldScripts_composed h rest)))

theorem Expression.armScripts_composed (h : Composed P)
    (arms : List (Entry Pattern Expression)) : P (Expression.armScripts arms) := by
  cases arms with
  | nil => exact h.nil
  | cons arm rest =>
      cases arm with
      | mk key value span =>
          exact h.append (key.script_composed h) (h.cons (h.mark rfl)
            (h.append (value.script_composed h) (Expression.armScripts_composed h rest)))

theorem Operand.script_composed (h : Composed P) (operand : Operand) : P operand.script := by
  cases operand with
  | expression expression => exact expression.script_composed h
  | pattern pattern => exact pattern.script_composed h
  | type type => exact type.script_composed h

theorem Statement.contents_composed (h : Composed P) (statement : Statement) :
    P statement.contents := by
  cases statement with
  | typeDefinition header name parameters representation span =>
      apply h.append (header.script_composed h)
      apply h.cons (h.leaf name rfl)
      apply h.cons (h.mark rfl)
      apply h.append (h.optionScript parameters (TypeFunction.script_composed h))
      exact h.cons (h.reserved _)
        (h.optionScript representation (Representation.script_composed h))
  | traitDefinition header name parameters type clause span =>
      apply h.append (header.script_composed h)
      apply h.cons (h.leaf name rfl)
      apply h.cons (h.mark rfl)
      apply h.append (h.optionScript parameters (TypeFunction.script_composed h))
      apply h.cons (h.reserved _)
      exact h.append (h.optionScript type (TypeExpr.script_composed h))
        (h.optionScript clause (WhereClause.script_composed h))
  | constantDefinition header name signature span =>
      apply h.append (header.script_composed h)
      exact h.cons (h.leaf name rfl) (h.cons (h.mark rfl) (signature.script_composed h))
  | instanceDefinition header trait parameters clause value span =>
      apply h.append (header.script_composed h)
      apply h.cons (h.reserved _)
      apply h.cons (h.leaf trait rfl)
      apply h.append (TypeExpr.scripts_composed h parameters)
      exact h.append (h.optionScript clause (WhereClause.script_composed h))
        (Expression.valueScript_composed h value)
  | assignment pattern value span =>
      exact h.append (pattern.script_composed h)
        (h.cons (h.mark rfl) (value.script_composed h))
  | expression expression span => exact expression.script_composed h
  | error span => exact h.nil

theorem Expression.valueScript_composed (h : Composed P) (value : Option Expression) :
    P (Expression.valueScript value) := by
  cases value with
  | none => exact h.nil
  | some expression => exact h.cons (h.mark rfl) (expression.script_composed h)

theorem Statement.scripts_composed (h : Composed P) (statements : List Statement) :
    P (Statement.scripts statements) := by
  cases statements with
  | nil => exact h.nil
  | cons statement rest =>
      exact h.announced statement
        (h.append (statement.contents_composed h) (Statement.scripts_composed h rest))

end

end Linewise
