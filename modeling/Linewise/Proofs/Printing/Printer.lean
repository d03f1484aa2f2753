import Linewise.Proofs.Script

/-!
# The canonical printer

A tree is written down so that nothing about it is left to be guessed: every
compound form stands in parentheses, the lines of braces end with a line break,
and behind every element of a sequence there is a separator.  What is written is
a list of pieces, which are tokens without their spans.
-/

namespace Linewise

abbrev Piece := Kind × String

/-- What a token looks like without its span. -/
def Token.piece (token : Token) : Piece := (token.kind, token.value)

namespace Piece

def mark (mark : Mark) : Piece := (.mark mark, mark.spelling)

def reserved (word : ReservedWord) : Piece := (.reserved word, word.spelling)

def text (lexeme : Lexeme) : Piece := (.text, Symbol.quoted lexeme.value)

def lineBreak : Piece := (.lineBreak, "\n")

def operator (operator : Operator) : Piece := (operator.kind, operator.spelling)

def parens (inner : List Piece) : List Piece :=
  mark .openParen :: (inner ++ [mark .closeParen])

def braces (inner : List Piece) : List Piece :=
  mark .openCurly :: (inner ++ [mark .closeCurly])

end Piece

def Lexeme.isFree (lexeme : Lexeme) : Bool := !Token.operatorWords.contains lexeme.value

def Lexeme.erase (lexeme : Lexeme) : Lexeme := { lexeme with span := default }

/-!
## Types
-/

namespace TypeExpr

mutual

def erase : TypeExpr -> TypeExpr
  | .placeholder _ => .placeholder default
  | .parameter name => .parameter name.erase
  | .named name parameters _ => .named name.erase (eraseAll parameters) default
  | .function inputs output _ => .function (eraseAll inputs) (erase output) default
  | .block output _ => .block (erase output) default
  | .unit _ => .unit default
  | .tuple elements _ => .tuple (eraseAll elements) default

def eraseAll : List TypeExpr -> List TypeExpr
  | [] => []
  | type :: rest => erase type :: eraseAll rest

end

mutual

def print : TypeExpr -> List Piece
  | .placeholder _ => [.mark .underscore]
  | .parameter name => [(.lowercaseName, name.value)]
  | .named name parameters _ =>
      if parameters.isEmpty then
        [(.capitalName, name.value)]
      else
        Piece.parens ((.capitalName, name.value) :: prints parameters)
  | .function inputs output _ => Piece.parens (prints inputs ++ .mark .arrow :: print output)
  | .block output _ => Piece.braces (print output ++ [.lineBreak])
  | .unit _ => Piece.parens []
  | .tuple elements _ =>
      if elements.isEmpty then
        Piece.parens [.mark .semicolon]
      else
        Piece.parens (printsBefore (.mark .semicolon) elements)

def prints : List TypeExpr -> List Piece
  | [] => []
  | type :: rest => print type ++ prints rest

def printsBefore (separator : Piece) : List TypeExpr -> List Piece
  | [] => []
  | type :: rest => print type ++ separator :: printsBefore separator rest

end

mutual

def isPrintable : TypeExpr -> Bool
  | .placeholder _ => true
  | .parameter name => name.isFree
  | .named _ parameters _ => arePrintable parameters
  | .function inputs output _ => !inputs.isEmpty && arePrintable inputs && isPrintable output
  | .block output _ => isPrintable output
  | .unit _ => true
  | .tuple elements _ => arePrintable elements

def arePrintable : List TypeExpr -> Bool
  | [] => true
  | type :: rest => isPrintable type && arePrintable rest

end

mutual

def levels : TypeExpr -> Nat
  | .placeholder _ => 0
  | .parameter _ => 0
  | .named _ parameters _ => if parameters.isEmpty then 0 else levelsOf parameters + 1
  | .function inputs output _ => max (levelsOf inputs) (levels output + 1) + 1
  | .block output _ => levels output + 1
  | .unit _ => 0
  | .tuple elements _ => if elements.isEmpty then 0 else levelsOf elements + 1

def levelsOf : List TypeExpr -> Nat
  | [] => 0
  | type :: rest => max (levels type) (levelsOf rest)

end

/-!
### Lists
-/

theorem prints_eq_flatMap (items : List TypeExpr) :
    prints items = items.flatMap print := by
  induction items with
  | nil => rfl
  | cons item rest ih => rw [prints, ih, List.flatMap_cons]

theorem printsBefore_eq_flatMap (separator : Piece) (items : List TypeExpr) :
    printsBefore separator items =
      items.flatMap (fun item => print item ++ [separator]) := by
  induction items with
  | nil => rfl
  | cons item rest ih => simp [printsBefore, ih]

theorem eraseAll_eq_map (items : List TypeExpr) :
    eraseAll items = items.map erase := by
  induction items with
  | nil => rfl
  | cons item rest ih => rw [eraseAll, ih, List.map_cons]

theorem arePrintable_iff {items : List TypeExpr} :
    arePrintable items = true <-> forall item, item ∈ items -> item.isPrintable = true := by
  induction items with
  | nil => simp [arePrintable]
  | cons item rest ih => simp [arePrintable, ih]

theorem levelsOf_le_iff {items : List TypeExpr} {room : Nat} :
    levelsOf items <= room <-> forall item, item ∈ items -> item.levels <= room := by
  induction items with
  | nil => simp [levelsOf]
  | cons item rest ih => rw [levelsOf, Nat.max_le, ih, List.forall_mem_cons]

end TypeExpr

/-!
## Patterns
-/

namespace Pattern

mutual

def erase : Pattern -> Pattern
  | .wildcard _ => .wildcard default
  | .variable name => .variable name.erase
  | .number literal => .number literal.erase
  | .text literal => .text literal.erase
  | .destructure fields _ => .destructure (eraseFields fields) default
  | .unit _ => .unit default
  | .tuple elements _ => .tuple (eraseAll elements) default
  | .or left right _ => .or (erase left) (erase right) default
  | .annotate pattern type _ => .annotate (erase pattern) type.erase default
  | .set name _ => .set name.erase default
  | .variant name elements _ => .variant name.erase (eraseAll elements) default

def eraseAll : List Pattern -> List Pattern
  | [] => []
  | pattern :: rest => erase pattern :: eraseAll rest

def eraseFields : List (Entry Lexeme Pattern) -> List (Entry Lexeme Pattern)
  | [] => []
  | { key, value, span := _ } :: rest =>
      { key := key.erase, value := erase value, span := default } :: eraseFields rest

end

mutual

def print : Pattern -> List Piece
  | .wildcard _ => [.mark .underscore]
  | .variable name => [(.lowercaseName, name.value)]
  | .number literal => [(.number, literal.value)]
  | .text literal => [.text literal]
  | .destructure fields _ => Piece.braces (printFields fields)
  | .unit _ => Piece.parens []
  | .tuple elements _ =>
      if elements.isEmpty then
        Piece.parens [.mark .semicolon]
      else
        Piece.parens (printsBefore (.mark .semicolon) elements)
  | .or left right _ => Piece.parens (print left ++ (.lowercaseName, "or") :: print right)
  | .annotate pattern type _ =>
      Piece.parens (print pattern ++ .mark .doubleColon :: type.print)
  | .set name _ => Piece.parens [.reserved .setWord, (.lowercaseName, name.value)]
  | .variant name elements _ => Piece.parens ((.capitalName, name.value) :: prints elements)

def prints : List Pattern -> List Piece
  | [] => []
  | pattern :: rest => print pattern ++ prints rest

def printsBefore (separator : Piece) : List Pattern -> List Piece
  | [] => []
  | pattern :: rest => print pattern ++ separator :: printsBefore separator rest

def printFields : List (Entry Lexeme Pattern) -> List Piece
  | [] => []
  | { key, value, span := _ } :: rest =>
      (.lowercaseName, key.value) :: .mark .colon ::
        (print value ++ .lineBreak :: printFields rest)

end

mutual

def isPrintable : Pattern -> Bool
  | .wildcard _ => true
  | .variable name => name.isFree
  | .number _ => true
  | .text _ => true
  | .destructure fields _ => !fields.isEmpty && arePrintableFields fields
  | .unit _ => true
  | .tuple elements _ => arePrintable elements
  | .or left right _ => isPrintable left && isPrintable right
  | .annotate pattern type _ => isPrintable pattern && type.isPrintable
  | .set name _ => name.isFree
  | .variant _ elements _ => arePrintable elements

def arePrintable : List Pattern -> Bool
  | [] => true
  | pattern :: rest => isPrintable pattern && arePrintable rest

def arePrintableFields : List (Entry Lexeme Pattern) -> Bool
  | [] => true
  | { key, value, span := _ } :: rest =>
      key.isFree && isPrintable value && arePrintableFields rest

end

mutual

def levels : Pattern -> Nat
  | .wildcard _ => 0
  | .variable _ => 0
  | .number _ => 0
  | .text _ => 0
  | .destructure fields _ => levelsOfFields fields + 1
  | .unit _ => 0
  | .tuple elements _ => if elements.isEmpty then 0 else levelsOf elements + 1
  | .or left right _ => max (levels left) (levels right) + 1
  | .annotate pattern type _ => max (levels pattern) type.levels + 1
  | .set _ _ => 1
  | .variant _ elements _ => levelsOf elements + 1

def levelsOf : List Pattern -> Nat
  | [] => 0
  | pattern :: rest => max (levels pattern) (levelsOf rest)

def levelsOfFields : List (Entry Lexeme Pattern) -> Nat
  | [] => 0
  | { key := _, value, span := _ } :: rest => max (levels value) (levelsOfFields rest)

end

/-!
### Lists
-/

theorem prints_eq_flatMap (items : List Pattern) :
    prints items = items.flatMap print := by
  induction items with
  | nil => rfl
  | cons item rest ih => rw [prints, ih, List.flatMap_cons]

theorem printsBefore_eq_flatMap (separator : Piece) (items : List Pattern) :
    printsBefore separator items =
      items.flatMap (fun item => print item ++ [separator]) := by
  induction items with
  | nil => rfl
  | cons item rest ih => simp [printsBefore, ih]

theorem eraseAll_eq_map (items : List Pattern) :
    eraseAll items = items.map erase := by
  induction items with
  | nil => rfl
  | cons item rest ih => rw [eraseAll, ih, List.map_cons]

theorem arePrintable_iff {items : List Pattern} :
    arePrintable items = true <-> forall item, item ∈ items -> item.isPrintable = true := by
  induction items with
  | nil => simp [arePrintable]
  | cons item rest ih => simp [arePrintable, ih]

theorem levelsOf_le_iff {items : List Pattern} {room : Nat} :
    levelsOf items <= room <-> forall item, item ∈ items -> item.levels <= room := by
  induction items with
  | nil => simp [levelsOf]
  | cons item rest ih => rw [levelsOf, Nat.max_le, ih, List.forall_mem_cons]

def printField (field : Entry Lexeme Pattern) : List Piece :=
  (.lowercaseName, field.key.value) :: .mark .colon :: print field.value

def eraseField (field : Entry Lexeme Pattern) : Entry Lexeme Pattern :=
  { key := field.key.erase, value := erase field.value, span := default }

theorem printFields_eq_flatMap (fields : List (Entry Lexeme Pattern)) :
    printFields fields = fields.flatMap (fun field => printField field ++ [.lineBreak]) := by
  induction fields with
  | nil => rfl
  | cons field rest ih => simp [printFields, printField, ih]

theorem eraseFields_eq_map (fields : List (Entry Lexeme Pattern)) :
    eraseFields fields = fields.map eraseField := by
  induction fields with
  | nil => rfl
  | cons field rest ih => simp [eraseFields, eraseField, ih]

theorem arePrintableFields_iff {fields : List (Entry Lexeme Pattern)} :
    arePrintableFields fields = true <->
      forall field, field ∈ fields -> field.key.isFree = true ∧ field.value.isPrintable = true := by
  induction fields with
  | nil => simp [arePrintableFields]
  | cons field rest ih => simp [arePrintableFields, ih]

theorem levelsOfFields_le_iff {fields : List (Entry Lexeme Pattern)} {room : Nat} :
    levelsOfFields fields <= room <->
      forall field, field ∈ fields -> field.value.levels <= room := by
  induction fields with
  | nil => simp [levelsOfFields]
  | cons field rest ih => rw [levelsOfFields, Nat.max_le, ih, List.forall_mem_cons]

end Pattern

/-!
## Expressions and statements
-/

def Expression.isText : Expression -> Bool
  | .text _ => true
  | _ => false

def Operand.fits (operator : Operator) : Operand -> Bool
  | .expression _ => operator.right == .expression
  | .pattern _ => operator.right == .pattern
  | .type _ => operator.right == .type

mutual

/-- The expression without its spans. -/
def Expression.erase : Expression -> Expression
  | .placeholder _ => .placeholder default
  | .variable name => .variable name.erase
  | .typeName name => .typeName name.erase
  | .number literal => .number literal.erase
  | .text literal => .text literal.erase
  | .unit _ => .unit default
  | .record fields _ => .record (Expression.eraseFields fields) default
  | .block statements _ => .block (Statement.eraseAll statements) default
  | .formattedText text inputs _ =>
      .formattedText text.erase (Expression.eraseAll inputs) default
  | .call function inputs _ => .call function.erase (Expression.eraseAll inputs) default
  | .perform input _ => .perform input.erase default
  | .when input arms _ => .when input.erase (Expression.eraseArms arms) default
  | .intrinsic name inputs _ => .intrinsic name.erase (Expression.eraseAll inputs) default
  | .binary operator left right _ => .binary operator left.erase right.erase default
  | .tuple elements _ => .tuple (Expression.eraseAll elements) default
  | .collection elements _ => .collection (Expression.eraseAll elements) default
  | .function inputs output _ => .function (Pattern.eraseAll inputs) output.erase default

def Expression.eraseAll : List Expression -> List Expression
  | [] => []
  | expression :: rest => expression.erase :: Expression.eraseAll rest

def Expression.eraseFields :
    List (Entry Lexeme Expression) -> List (Entry Lexeme Expression)
  | [] => []
  | { key, value, span := _ } :: rest =>
      { key := key.erase, value := value.erase, span := default } ::
        Expression.eraseFields rest

def Expression.eraseArms : List (Entry Pattern Expression) -> List (Entry Pattern Expression)
  | [] => []
  | { key, value, span := _ } :: rest =>
      { key := key.erase, value := value.erase, span := default } :: Expression.eraseArms rest

def Operand.erase : Operand -> Operand
  | .expression expression => .expression expression.erase
  | .pattern pattern => .pattern pattern.erase
  | .type type => .type type.erase

def Statement.erase : Statement -> Statement
  | .assignment pattern value _ => .assignment pattern.erase value.erase default
  | .expression expression _ => .expression expression.erase default
  | other => other

def Statement.eraseAll : List Statement -> List Statement
  | [] => []
  | statement :: rest => statement.erase :: Statement.eraseAll rest

end

attribute [simp] TypeExpr.erase Pattern.erase Expression.erase Operand.erase

mutual

def Expression.print : Expression -> List Piece
  | .placeholder _ => [.mark .underscore]
  | .variable name => [(.lowercaseName, name.value)]
  | .typeName name => [(.capitalName, name.value)]
  | .number literal => [(.number, literal.value)]
  | .text literal => [.text literal]
  | .unit _ => Piece.parens []
  | .record fields _ => Piece.braces (Expression.printFields fields)
  | .block statements _ => Piece.braces (Statement.prints statements)
  | .formattedText text inputs _ => Piece.parens (.text text :: Expression.prints inputs)
  | .call function inputs _ =>
      if function.isText then
        Piece.parens (Piece.parens function.print ++ Expression.prints inputs)
      else
        Piece.parens (function.print ++ Expression.prints inputs)
  | .perform input _ => Piece.parens (.reserved .doWord :: input.print)
  | .when input arms _ =>
      Piece.parens (.reserved .whenWord ::
        (input.print ++ Piece.braces (Expression.printArms arms)))
  | .intrinsic name inputs _ =>
      Piece.parens (.reserved .intrinsicWord :: .text name :: Expression.prints inputs)
  | .binary operator left right _ =>
      Piece.parens (left.print ++ .operator operator :: right.print)
  | .tuple elements _ =>
      if elements.isEmpty then
        Piece.parens [.mark .semicolon]
      else
        Piece.parens (Expression.printsBefore (.mark .semicolon) elements)
  | .collection elements _ =>
      if elements.isEmpty then
        Piece.parens [.mark .comma]
      else
        Piece.parens (Expression.printsBefore (.mark .comma) elements)
  | .function inputs output _ =>
      Piece.parens (Pattern.prints inputs ++ .mark .arrow :: output.print)

def Expression.prints : List Expression -> List Piece
  | [] => []
  | expression :: rest => expression.print ++ Expression.prints rest

def Expression.printsBefore (separator : Piece) : List Expression -> List Piece
  | [] => []
  | expression :: rest =>
      expression.print ++ separator :: Expression.printsBefore separator rest

def Expression.printFields : List (Entry Lexeme Expression) -> List Piece
  | [] => []
  | { key, value, span := _ } :: rest =>
      (.lowercaseName, key.value) :: .mark .colon ::
        (value.print ++ .lineBreak :: Expression.printFields rest)

def Expression.printArms : List (Entry Pattern Expression) -> List Piece
  | [] => []
  | { key, value, span := _ } :: rest =>
      key.print ++ .mark .arrow ::
        (value.print ++ .lineBreak :: Expression.printArms rest)

def Operand.print : Operand -> List Piece
  | .expression expression => expression.print
  | .pattern pattern => pattern.print
  | .type type => type.print

def Statement.print : Statement -> List Piece
  | .assignment pattern value _ => pattern.print ++ .mark .colon :: value.print
  | .expression expression _ => expression.print
  | _ => []

def Statement.prints : List Statement -> List Piece
  | [] => []
  | statement :: rest => statement.print ++ .lineBreak :: Statement.prints rest

end

mutual

/-- Whether the expression can be written: names are no operator words, right operands
are of the sublanguage of their operator, calls, formatted texts and functions have
inputs, records have lines, and blocks hold assignments and expressions but are no
records. -/
def Expression.isPrintable : Expression -> Bool
  | .placeholder _ => true
  | .variable name => name.isFree
  | .typeName _ => true
  | .number _ => true
  | .text _ => true
  | .unit _ => true
  | .record fields _ => !fields.isEmpty && Expression.arePrintableFields fields
  | .block statements _ =>
      (statements.isEmpty || !statements.all (fun found => found.field?.isSome)) &&
        Statement.arePrintable statements
  | .formattedText _ inputs _ => !inputs.isEmpty && Expression.arePrintable inputs
  | .call function inputs _ =>
      function.isPrintable && !inputs.isEmpty && Expression.arePrintable inputs
  | .perform input _ => input.isPrintable
  | .when input arms _ => input.isPrintable && Expression.arePrintableArms arms
  | .intrinsic _ inputs _ => Expression.arePrintable inputs
  | .binary operator left right _ =>
      left.isPrintable && right.fits operator && right.isPrintable
  | .tuple elements _ => Expression.arePrintable elements
  | .collection elements _ => Expression.arePrintable elements
  | .function inputs output _ =>
      !inputs.isEmpty && Pattern.arePrintable inputs && output.isPrintable

def Expression.arePrintable : List Expression -> Bool
  | [] => true
  | expression :: rest => expression.isPrintable && Expression.arePrintable rest

def Expression.arePrintableFields : List (Entry Lexeme Expression) -> Bool
  | [] => true
  | { key, value, span := _ } :: rest =>
      key.isFree && value.isPrintable && Expression.arePrintableFields rest

def Expression.arePrintableArms : List (Entry Pattern Expression) -> Bool
  | [] => true
  | { key, value, span := _ } :: rest =>
      key.isPrintable && value.isPrintable && Expression.arePrintableArms rest

def Operand.isPrintable : Operand -> Bool
  | .expression expression => expression.isPrintable
  | .pattern pattern => pattern.isPrintable
  | .type type => type.isPrintable

def Statement.isPrintable : Statement -> Bool
  | .assignment pattern value _ => pattern.isPrintable && value.isPrintable
  | .expression expression _ => expression.isPrintable
  | _ => false

def Statement.arePrintable : List Statement -> Bool
  | [] => true
  | statement :: rest => statement.isPrintable && Statement.arePrintable rest

end

mutual

/-- The number of nesting levels that are opened inside the written expression. -/
def Expression.levels : Expression -> Nat
  | .placeholder _ => 0
  | .variable _ => 0
  | .typeName _ => 0
  | .number _ => 0
  | .text _ => 0
  | .unit _ => 0
  | .record fields _ => Expression.levelsOfFields fields + 2
  | .block statements _ => if statements.isEmpty then 0 else Statement.levelsOf statements + 2
  | .formattedText _ inputs _ => Expression.levelsOf inputs + 1
  | .call function inputs _ =>
      if function.isText then
        max 1 (Expression.levelsOf inputs) + 1
      else
        max function.levels (Expression.levelsOf inputs) + 1
  | .perform input _ => input.levels + 1
  | .when input arms _ => max input.levels (Expression.levelsOfArms arms) + 1
  | .intrinsic _ inputs _ => Expression.levelsOf inputs + 1
  | .binary _ left right _ => max left.levels right.levels + 1
  | .tuple elements _ => if elements.isEmpty then 0 else Expression.levelsOf elements + 1
  | .collection elements _ => if elements.isEmpty then 0 else Expression.levelsOf elements + 1
  | .function inputs output _ => max (Pattern.levelsOf inputs) (output.levels + 1) + 1

def Expression.levelsOf : List Expression -> Nat
  | [] => 0
  | expression :: rest => max expression.levels (Expression.levelsOf rest)

def Expression.levelsOfFields : List (Entry Lexeme Expression) -> Nat
  | [] => 0
  | { key := _, value, span := _ } :: rest =>
      max value.levels (Expression.levelsOfFields rest)

def Expression.levelsOfArms : List (Entry Pattern Expression) -> Nat
  | [] => 0
  | { key, value, span := _ } :: rest =>
      max (max key.levels value.levels + 1) (Expression.levelsOfArms rest)

def Operand.levels : Operand -> Nat
  | .expression expression => expression.levels + 1
  | .pattern pattern => pattern.levels
  | .type type => type.levels + 1

def Statement.levels : Statement -> Nat
  | .assignment pattern value _ => max pattern.levels value.levels
  | .expression expression _ => expression.levels
  | _ => 0

def Statement.levelsOf : List Statement -> Nat
  | [] => 0
  | statement :: rest => max statement.levels (Statement.levelsOf rest)

end

/-!
### Lists
-/

theorem Expression.prints_eq_flatMap (items : List Expression) :
    Expression.prints items = items.flatMap Expression.print := by
  induction items with
  | nil => rfl
  | cons item rest ih => rw [Expression.prints, ih, List.flatMap_cons]

theorem Expression.printsBefore_eq_flatMap (separator : Piece) (items : List Expression) :
    Expression.printsBefore separator items =
      items.flatMap (fun item => Expression.print item ++ [separator]) := by
  induction items with
  | nil => rfl
  | cons item rest ih => simp [Expression.printsBefore, ih]

theorem Expression.eraseAll_eq_map (items : List Expression) :
    Expression.eraseAll items = items.map Expression.erase := by
  induction items with
  | nil => rfl
  | cons item rest ih => rw [Expression.eraseAll, ih, List.map_cons]

theorem Expression.arePrintable_iff {items : List Expression} :
    Expression.arePrintable items = true <->
      forall item, item ∈ items -> item.isPrintable = true := by
  induction items with
  | nil => simp [Expression.arePrintable]
  | cons item rest ih => simp [Expression.arePrintable, ih]

theorem Expression.levelsOf_le_iff {items : List Expression} {room : Nat} :
    Expression.levelsOf items <= room <-> forall item, item ∈ items -> item.levels <= room := by
  induction items with
  | nil => simp [Expression.levelsOf]
  | cons item rest ih => rw [Expression.levelsOf, Nat.max_le, ih, List.forall_mem_cons]

def Expression.eraseField (field : Entry Lexeme Expression) : Entry Lexeme Expression :=
  { key := field.key.erase, value := field.value.erase, span := default }

theorem Expression.eraseFields_eq_map (fields : List (Entry Lexeme Expression)) :
    Expression.eraseFields fields = fields.map Expression.eraseField := by
  induction fields with
  | nil => rfl
  | cons field rest ih => simp [Expression.eraseFields, Expression.eraseField, ih]

def Expression.printArm (arm : Entry Pattern Expression) : List Piece :=
  arm.key.print ++ .mark .arrow :: arm.value.print

def Expression.eraseArm (arm : Entry Pattern Expression) : Entry Pattern Expression :=
  { key := arm.key.erase, value := arm.value.erase, span := default }

theorem Statement.prints_eq_flatMap (statements : List Statement) :
    Statement.prints statements =
      statements.flatMap (fun statement => statement.print ++ [.lineBreak]) := by
  induction statements with
  | nil => rfl
  | cons statement rest ih => simp [Statement.prints, ih]

theorem Statement.eraseAll_eq_map (statements : List Statement) :
    Statement.eraseAll statements = statements.map Statement.erase := by
  induction statements with
  | nil => rfl
  | cons statement rest ih => rw [Statement.eraseAll, ih, List.map_cons]

theorem Statement.arePrintable_iff {statements : List Statement} :
    Statement.arePrintable statements = true <->
      forall statement, statement ∈ statements -> statement.isPrintable = true := by
  induction statements with
  | nil => simp [Statement.arePrintable]
  | cons statement rest ih => simp [Statement.arePrintable, ih]

theorem Statement.levelsOf_le_iff {statements : List Statement} {room : Nat} :
    Statement.levelsOf statements <= room <->
      forall statement, statement ∈ statements -> statement.levels <= room := by
  induction statements with
  | nil => simp [Statement.levelsOf]
  | cons statement rest ih =>
      rw [Statement.levelsOf, Nat.max_le, ih, List.forall_mem_cons]

theorem Expression.printFields_eq (fields : List (Entry Lexeme Expression)) :
    Expression.printFields fields = Statement.prints (fields.map Entry.toStatement) := by
  induction fields with
  | nil => rfl
  | cons field rest ih =>
      simp [Expression.printFields, Statement.prints, Entry.toStatement, Statement.print,
        Pattern.print, ih]

theorem Expression.arePrintableFields_eq (fields : List (Entry Lexeme Expression)) :
    Expression.arePrintableFields fields =
      Statement.arePrintable (fields.map Entry.toStatement) := by
  induction fields with
  | nil => rfl
  | cons field rest ih =>
      simp [Expression.arePrintableFields, Statement.arePrintable, Entry.toStatement,
        Statement.isPrintable, Pattern.isPrintable, ih]

theorem Expression.levelsOfFields_eq (fields : List (Entry Lexeme Expression)) :
    Expression.levelsOfFields fields = Statement.levelsOf (fields.map Entry.toStatement) := by
  induction fields with
  | nil => rfl
  | cons field rest ih =>
      simp [Expression.levelsOfFields, Statement.levelsOf, Entry.toStatement, Statement.levels,
        Pattern.levels, ih]

theorem Expression.printArms_eq_flatMap (arms : List (Entry Pattern Expression)) :
    Expression.printArms arms =
      arms.flatMap (fun arm => Expression.printArm arm ++ [.lineBreak]) := by
  induction arms with
  | nil => rfl
  | cons arm rest ih => simp [Expression.printArms, Expression.printArm, ih]

theorem Expression.eraseArms_eq_map (arms : List (Entry Pattern Expression)) :
    Expression.eraseArms arms = arms.map Expression.eraseArm := by
  induction arms with
  | nil => rfl
  | cons arm rest ih => simp [Expression.eraseArms, Expression.eraseArm, ih]

theorem Expression.arePrintableArms_iff {arms : List (Entry Pattern Expression)} :
    Expression.arePrintableArms arms = true <->
      forall arm, arm ∈ arms -> arm.key.isPrintable = true ∧ arm.value.isPrintable = true := by
  induction arms with
  | nil => simp [Expression.arePrintableArms]
  | cons arm rest ih => simp [Expression.arePrintableArms, ih]

theorem Expression.levelsOfArms_le_iff {arms : List (Entry Pattern Expression)} {room : Nat} :
    Expression.levelsOfArms arms <= room <->
      forall arm, arm ∈ arms -> arm.key.levels + 1 <= room ∧ arm.value.levels + 1 <= room := by
  induction arms with
  | nil => simp [Expression.levelsOfArms]
  | cons arm rest ih =>
      have hmax : max arm.key.levels arm.value.levels + 1 <= room <->
          arm.key.levels + 1 <= room ∧ arm.value.levels + 1 <= room := by omega
      rw [Expression.levelsOfArms, Nat.max_le, hmax, ih, List.forall_mem_cons]

end Linewise
