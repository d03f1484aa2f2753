import Linewise.Tree.Expression

/-!
# Scripts

The script of a tree is what one gets by reading it from left to right and
writing down the word of every token that a node stands for.  Parentheses and
separators have no place in a tree and none in its script.  Every statement is
announced in front of its words, so the script also tells which statements the
tree holds, at all levels.
-/

namespace Linewise

/-- One entry of a script. -/
inductive Symbol where
  /-- A token, by its kind and its text. -/
  | word (kind : Kind) (value : String)
  /-- A statement begins here. -/
  | statement (statement : Statement)

namespace Symbol

def mark (mark : Mark) : Symbol := .word (.mark mark) mark.spelling

def reserved (word : ReservedWord) : Symbol := .word (.reserved word) word.spelling

def leaf (kind : Kind) (lexeme : Lexeme) : Symbol := .word kind lexeme.value

def quoted (value : String) : String := "\"" ++ value ++ "\""

def text (lexeme : Lexeme) : Symbol := .word .text (quoted lexeme.value)

def word? : Symbol -> Option (Kind × String)
  | .word kind value => some (kind, value)
  | .statement _ => none

def statement? : Symbol -> Option Statement
  | .word _ _ => none
  | .statement begun => some begun

end Symbol

/-- The kind of the token that an operator is written with. -/
def Operator.kind : Operator -> Kind
  | .annotate => .mark .doubleColon
  | .asType => .lowercaseName
  | .toBound => .lowercaseName
  | .byStep => .lowercaseName
  | .power => .mark .caret
  | .multiply => .mark .star
  | .divide => .mark .slash
  | .remainder => .mark .percent
  | .add => .mark .plus
  | .subtract => .mark .dash
  | .lessThan => .mark .less
  | .lessThanOrEqual => .mark .lessEquals
  | .greaterThan => .mark .greater
  | .greaterThanOrEqual => .mark .greaterEquals
  | .equal => .mark .equals
  | .notEqual => .mark .slashEquals
  | .isPattern => .lowercaseName
  | .and => .lowercaseName
  | .or => .lowercaseName
  | .apply => .mark .dot

def Operator.symbol (operator : Operator) : Symbol := .word operator.kind operator.spelling

/-!
## Types
-/

namespace TypeExpr

mutual

def script : TypeExpr -> List Symbol
  | .placeholder _ => [.mark .underscore]
  | .parameter name => [.leaf .lowercaseName name]
  | .named name parameters _ => .leaf .capitalName name :: scripts parameters
  | .function inputs output _ => scripts inputs ++ .mark .arrow :: script output
  | .block output _ => .mark .openCurly :: (script output ++ [.mark .closeCurly])
  | .unit _ => []
  | .tuple elements _ => scripts elements

def scripts : List TypeExpr -> List Symbol
  | [] => []
  | type :: rest => script type ++ scripts rest

end

theorem scripts_eq_flatMap (types : List TypeExpr) : scripts types = types.flatMap script := by
  induction types with
  | nil => rfl
  | cons type rest ih => simp [scripts, ih]

end TypeExpr

namespace Constraint

def script : Constraint -> List Symbol
  | .bound trait parameters _ => .leaf .capitalName trait :: TypeExpr.scripts parameters
  | .infer parameter _ => [.reserved .inferWord, .leaf .lowercaseName parameter]
  | .fallback parameter value _ =>
      .leaf .lowercaseName parameter :: .mark .colon :: value.script

end Constraint

namespace WhereClause

def script (clause : WhereClause) : List Symbol :=
  .reserved .whereWord :: clause.constraints.flatMap Constraint.script

end WhereClause

/-- The script of a part that may be left out. -/
def optionScript {α : Type} (script : α -> List Symbol) : Option α -> List Symbol
  | none => []
  | some part => script part

namespace Signature

def script (signature : Signature) : List Symbol :=
  signature.type.script ++ optionScript WhereClause.script signature.clause

end Signature

namespace TypeFunction

def script (function : TypeFunction) : List Symbol :=
  function.parameters.map (.leaf .lowercaseName) ++ [.mark .fatArrow]

end TypeFunction

/-!
## Patterns
-/

namespace Pattern

mutual

def script : Pattern -> List Symbol
  | .wildcard _ => [.mark .underscore]
  | .variable name => [.leaf .lowercaseName name]
  | .number literal => [.leaf .number literal]
  | .text literal => [.text literal]
  | .destructure fields _ => .mark .openCurly :: (fieldScripts fields ++ [.mark .closeCurly])
  | .unit _ => []
  | .tuple elements _ => scripts elements
  | .or left right _ => script left ++ .word .lowercaseName "or" :: script right
  | .annotate pattern type _ => script pattern ++ .mark .doubleColon :: type.script
  | .set name _ => [.reserved .setWord, .leaf .lowercaseName name]
  | .variant name elements _ => .leaf .capitalName name :: scripts elements

def scripts : List Pattern -> List Symbol
  | [] => []
  | pattern :: rest => script pattern ++ scripts rest

def fieldScripts : List (Entry Lexeme Pattern) -> List Symbol
  | [] => []
  | { key, value, span := _ } :: rest =>
      .leaf .lowercaseName key :: .mark .colon :: (script value ++ fieldScripts rest)

end

def fieldScript (field : Entry Lexeme Pattern) : List Symbol :=
  .leaf .lowercaseName field.key :: .mark .colon :: field.value.script

theorem scripts_eq_flatMap (patterns : List Pattern) :
    scripts patterns = patterns.flatMap script := by
  induction patterns with
  | nil => rfl
  | cons pattern rest ih => simp [scripts, ih]

theorem fieldScripts_eq_flatMap (fields : List (Entry Lexeme Pattern)) :
    fieldScripts fields = fields.flatMap fieldScript := by
  induction fields with
  | nil => rfl
  | cons field rest ih => simp [fieldScripts, fieldScript, ih]

end Pattern

/-!
## What stands around definitions
-/

namespace Attribute

def script : Attribute -> List Symbol
  | .plain name _ => [.mark .openBracket, .leaf .lowercaseName name, .mark .closeBracket]
  | .withText name text _ =>
      [.mark .openBracket, .leaf .lowercaseName name, .mark .colon, .text text,
        .mark .closeBracket]
  | .withNumber name number _ =>
      [.mark .openBracket, .leaf .lowercaseName name, .mark .colon, .leaf .number number,
        .mark .closeBracket]

end Attribute

namespace Header

def script (header : Header) : List Symbol := header.attributes.flatMap Attribute.script

end Header

namespace Representation

def fieldScript (field : Entry Lexeme Signature) : List Symbol :=
  .leaf .lowercaseName field.key :: .mark .doubleColon :: field.value.script

def variantScript (variant : Entry Lexeme (List TypeExpr)) : List Symbol :=
  .leaf .capitalName variant.key :: TypeExpr.scripts variant.value

def script : Representation -> List Symbol
  | .structured fields _ =>
      .mark .openCurly :: (fields.flatMap fieldScript ++ [.mark .closeCurly])
  | .enumerated variants _ =>
      .mark .openCurly :: (variants.flatMap variantScript ++ [.mark .closeCurly])

end Representation

/-!
## Expressions and statements
-/

mutual

def Expression.script : Expression -> List Symbol
  | .placeholder _ => [.mark .underscore]
  | .variable name => [.leaf .lowercaseName name]
  | .typeName name => [.leaf .capitalName name]
  | .number literal => [.leaf .number literal]
  | .text literal => [.text literal]
  | .unit _ => []
  | .record fields _ =>
      .mark .openCurly :: (Expression.fieldScripts fields ++ [.mark .closeCurly])
  | .block statements _ =>
      .mark .openCurly :: (Statement.scripts statements ++ [.mark .closeCurly])
  | .formattedText text inputs _ => .text text :: Expression.scripts inputs
  | .call function inputs _ => function.script ++ Expression.scripts inputs
  | .perform input _ => .reserved .doWord :: input.script
  | .when input arms _ =>
      .reserved .whenWord ::
        (input.script ++ .mark .openCurly ::
          (Expression.armScripts arms ++ [.mark .closeCurly]))
  | .intrinsic name inputs _ =>
      .reserved .intrinsicWord :: .text name :: Expression.scripts inputs
  | .binary operator left right _ => left.script ++ operator.symbol :: right.script
  | .tuple elements _ => Expression.scripts elements
  | .collection elements _ => Expression.scripts elements
  | .function inputs output _ => Pattern.scripts inputs ++ .mark .arrow :: output.script

def Expression.scripts : List Expression -> List Symbol
  | [] => []
  | expression :: rest => expression.script ++ Expression.scripts rest

def Expression.fieldScripts : List (Entry Lexeme Expression) -> List Symbol
  | [] => []
  | { key, value, span := _ } :: rest =>
      .leaf .lowercaseName key :: .mark .colon ::
        (value.script ++ Expression.fieldScripts rest)

def Expression.armScripts : List (Entry Pattern Expression) -> List Symbol
  | [] => []
  | { key, value, span := _ } :: rest =>
      key.script ++ .mark .arrow :: (value.script ++ Expression.armScripts rest)

def Operand.script : Operand -> List Symbol
  | .expression expression => expression.script
  | .pattern pattern => pattern.script
  | .type type => type.script

/-- The words of a statement, without the announcement of the statement itself. -/
def Statement.contents : Statement -> List Symbol
  | .typeDefinition header name parameters representation _ =>
      header.script ++ .leaf .capitalName name :: .mark .colon ::
        (optionScript TypeFunction.script parameters ++ .reserved .typeWord ::
          optionScript Representation.script representation)
  | .traitDefinition header name parameters type clause _ =>
      header.script ++ .leaf .capitalName name :: .mark .colon ::
        (optionScript TypeFunction.script parameters ++ .reserved .traitWord ::
          (optionScript TypeExpr.script type ++ optionScript WhereClause.script clause))
  | .constantDefinition header name signature _ =>
      header.script ++ .leaf .lowercaseName name :: .mark .doubleColon :: signature.script
  | .instanceDefinition header trait parameters clause value _ =>
      header.script ++ .reserved .instanceWord :: .leaf .capitalName trait ::
        (TypeExpr.scripts parameters ++
          (optionScript WhereClause.script clause ++ Expression.valueScript value))
  | .assignment pattern value _ => pattern.script ++ .mark .colon :: value.script
  | .expression expression _ => expression.script
  | .error _ => []

def Expression.valueScript : Option Expression -> List Symbol
  | none => []
  | some value => .mark .colon :: value.script

def Statement.scripts : List Statement -> List Symbol
  | [] => []
  | statement :: rest => .statement statement :: (statement.contents ++ Statement.scripts rest)

end

namespace Expression

def armScript (arm : Entry Pattern Expression) : List Symbol :=
  arm.key.script ++ .mark .arrow :: arm.value.script

theorem scripts_eq_flatMap (expressions : List Expression) :
    scripts expressions = expressions.flatMap script := by
  induction expressions with
  | nil => rfl
  | cons expression rest ih => simp [scripts, ih]

theorem armScripts_eq_flatMap (arms : List (Entry Pattern Expression)) :
    armScripts arms = arms.flatMap armScript := by
  induction arms with
  | nil => rfl
  | cons arm rest ih => simp [armScripts, armScript, ih]

end Expression

namespace Statement

def script (statement : Statement) : List Symbol := .statement statement :: statement.contents

end Statement

namespace SourceFile

def script (file : SourceFile) : List Symbol := Statement.scripts file.statements

/-- The words of a source file, from left to right. -/
def words (file : SourceFile) : List (Kind × String) := file.script.filterMap Symbol.word?

/-- The statements of a source file at all levels, each in front of those that it
contains. -/
def allStatements (file : SourceFile) : List Statement :=
  file.script.filterMap Symbol.statement?

end SourceFile

end Linewise
