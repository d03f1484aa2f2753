import Linewise.Cursor.Sequence
import Linewise.Tree.View

/-!
# Relabelling spans

A relabelling moves the two ends of every span and keeps their order, so it
commutes with covering two spans.  It acts on tokens, diagnostics and trees, and it
may drop the comments from a tree.  If it does not, what is shown of a tree does not
depend on it, and the relabelling that moves nothing changes nothing.
-/

namespace Linewise

/-- A way to move the ends of spans that keeps their order. -/
structure Relabelling where
  start : Nat -> Nat
  stop : Nat -> Nat
  start_mono : forall {a b}, a <= b -> start a <= start b
  stop_mono : forall {a b}, a <= b -> stop a <= stop b
  /-- Comments stay in the tree. -/
  commented : Bool := true

def Relabelling.identity : Relabelling where
  start := id
  stop := id
  start_mono := id
  stop_mono := id

namespace Span

def relabel (ρ : Relabelling) (span : Span) : Span :=
  { start := ρ.start span.start, stop := ρ.stop span.stop }

@[simp] theorem relabel_identity (span : Span) : span.relabel .identity = span := rfl

theorem relabel_cover (ρ : Relabelling) (a b : Span) :
    (a.cover b).relabel ρ = (a.relabel ρ).cover (b.relabel ρ) := by
  have hstart : ρ.start (min a.start b.start) = min (ρ.start a.start) (ρ.start b.start) := by
    rcases Nat.le_total a.start b.start with h | h
    · rw [Nat.min_eq_left h, Nat.min_eq_left (ρ.start_mono h)]
    · rw [Nat.min_eq_right h, Nat.min_eq_right (ρ.start_mono h)]
  have hstop : ρ.stop (max a.stop b.stop) = max (ρ.stop a.stop) (ρ.stop b.stop) := by
    rcases Nat.le_total a.stop b.stop with h | h
    · rw [Nat.max_eq_right h, Nat.max_eq_right (ρ.stop_mono h)]
    · rw [Nat.max_eq_left h, Nat.max_eq_left (ρ.stop_mono h)]
  simp [relabel, cover, hstart, hstop]

end Span

/-!
## Tokens and diagnostics
-/

namespace Lexeme

def relabel (ρ : Relabelling) (lexeme : Lexeme) : Lexeme :=
  { lexeme with span := lexeme.span.relabel ρ }

@[simp] theorem relabel_identity (lexeme : Lexeme) : lexeme.relabel .identity = lexeme := rfl

@[simp] theorem relabel_value (ρ : Relabelling) (lexeme : Lexeme) :
    (lexeme.relabel ρ).value = lexeme.value := rfl

end Lexeme

/-- What becomes of the comments above a definition. -/
def Relabelling.comments (ρ : Relabelling) (comments : List Lexeme) : List Lexeme :=
  if ρ.commented then comments.map (Lexeme.relabel ρ) else []

theorem Relabelling.comments_eq_map {ρ : Relabelling} (h : ρ.commented = true)
    (comments : List Lexeme) : ρ.comments comments = comments.map (Lexeme.relabel ρ) := if_pos h

namespace Token

def relabel (ρ : Relabelling) (token : Token) : Token :=
  { token with span := token.span.relabel ρ }

@[simp] theorem relabel_identity (token : Token) : token.relabel .identity = token := rfl

@[simp] theorem relabel_kind (ρ : Relabelling) (token : Token) :
    (token.relabel ρ).kind = token.kind := rfl

@[simp] theorem relabel_value (ρ : Relabelling) (token : Token) :
    (token.relabel ρ).value = token.value := rfl

@[simp] theorem relabel_span (ρ : Relabelling) (token : Token) :
    (token.relabel ρ).span = token.span.relabel ρ := rfl

@[simp] theorem relabel_isComment (ρ : Relabelling) (token : Token) :
    (token.relabel ρ).isComment = token.isComment := rfl

@[simp] theorem relabel_isLineBreak (ρ : Relabelling) (token : Token) :
    (token.relabel ρ).isLineBreak = token.isLineBreak := rfl

@[simp] theorem relabel_isOperatorWord (ρ : Relabelling) (token : Token) :
    (token.relabel ρ).isOperatorWord = token.isOperatorWord := rfl

@[simp] theorem relabel_operator? (ρ : Relabelling) (token : Token) :
    (token.relabel ρ).operator? = token.operator? := rfl

end Token

def Diagnostic.relabel (ρ : Relabelling) (diagnostic : Diagnostic) : Diagnostic :=
  { diagnostic with span := diagnostic.span.relabel ρ }

@[simp] theorem Diagnostic.relabel_identity (diagnostic : Diagnostic) :
    diagnostic.relabel .identity = diagnostic := rfl

def Entry.relabel {κ α : Type} (ρ : Relabelling) (key : κ -> κ) (value : α -> α)
    (entry : Entry κ α) : Entry κ α :=
  { key := key entry.key, value := value entry.value, span := entry.span.relabel ρ }

def Parser.Enclosed.relabel {α : Type} (move : α -> α) : Parser.Enclosed α -> Parser.Enclosed α
  | .unit => .unit
  | .group value => .group (move value)
  | .sequence separator elements => .sequence separator (elements.map move)

/-!
## Types
-/

namespace TypeExpr

mutual

def relabel (ρ : Relabelling) : TypeExpr -> TypeExpr
  | .placeholder span => .placeholder (span.relabel ρ)
  | .parameter name => .parameter (name.relabel ρ)
  | .named name parameters span =>
      .named (name.relabel ρ) (relabelAll ρ parameters) (span.relabel ρ)
  | .function inputs output span =>
      .function (relabelAll ρ inputs) (relabel ρ output) (span.relabel ρ)
  | .block output span => .block (relabel ρ output) (span.relabel ρ)
  | .unit span => .unit (span.relabel ρ)
  | .tuple elements span => .tuple (relabelAll ρ elements) (span.relabel ρ)

def relabelAll (ρ : Relabelling) : List TypeExpr -> List TypeExpr
  | [] => []
  | type :: rest => relabel ρ type :: relabelAll ρ rest

end

@[simp] theorem relabelAll_eq_map (ρ : Relabelling) (types : List TypeExpr) :
    relabelAll ρ types = types.map (relabel ρ) := by
  induction types with
  | nil => rfl
  | cons type rest ih => rw [relabelAll, ih, List.map_cons]

end TypeExpr

namespace Constraint

def relabel (ρ : Relabelling) : Constraint -> Constraint
  | .bound trait parameters span =>
      .bound (trait.relabel ρ) (parameters.map (TypeExpr.relabel ρ)) (span.relabel ρ)
  | .infer parameter span => .infer (parameter.relabel ρ) (span.relabel ρ)
  | .fallback parameter value span =>
      .fallback (parameter.relabel ρ) (value.relabel ρ) (span.relabel ρ)

end Constraint

namespace WhereClause

def relabel (ρ : Relabelling) (clause : WhereClause) : WhereClause :=
  { constraints := clause.constraints.map (Constraint.relabel ρ)
    span := clause.span.relabel ρ }

end WhereClause

namespace Signature

def relabel (ρ : Relabelling) (signature : Signature) : Signature :=
  { type := signature.type.relabel ρ
    clause := signature.clause.map (WhereClause.relabel ρ)
    span := signature.span.relabel ρ }

end Signature

namespace TypeFunction

def relabel (ρ : Relabelling) (function : TypeFunction) : TypeFunction :=
  { parameters := function.parameters.map (Lexeme.relabel ρ)
    span := function.span.relabel ρ }

end TypeFunction

/-!
## Patterns
-/

namespace Pattern

mutual

def relabel (ρ : Relabelling) : Pattern -> Pattern
  | .wildcard span => .wildcard (span.relabel ρ)
  | .variable name => .variable (name.relabel ρ)
  | .number literal => .number (literal.relabel ρ)
  | .text literal => .text (literal.relabel ρ)
  | .destructure fields span => .destructure (relabelFields ρ fields) (span.relabel ρ)
  | .unit span => .unit (span.relabel ρ)
  | .tuple elements span => .tuple (relabelAll ρ elements) (span.relabel ρ)
  | .or left right span => .or (relabel ρ left) (relabel ρ right) (span.relabel ρ)
  | .annotate pattern type span =>
      .annotate (relabel ρ pattern) (type.relabel ρ) (span.relabel ρ)
  | .set name span => .set (name.relabel ρ) (span.relabel ρ)
  | .variant name elements span =>
      .variant (name.relabel ρ) (relabelAll ρ elements) (span.relabel ρ)

def relabelAll (ρ : Relabelling) : List Pattern -> List Pattern
  | [] => []
  | pattern :: rest => relabel ρ pattern :: relabelAll ρ rest

def relabelFields (ρ : Relabelling) :
    List (Entry Lexeme Pattern) -> List (Entry Lexeme Pattern)
  | [] => []
  | { key, value, span } :: rest =>
      { key := key.relabel ρ, value := relabel ρ value, span := span.relabel ρ } ::
        relabelFields ρ rest

end

@[simp] theorem relabelAll_eq_map (ρ : Relabelling) (patterns : List Pattern) :
    relabelAll ρ patterns = patterns.map (relabel ρ) := by
  induction patterns with
  | nil => rfl
  | cons pattern rest ih => rw [relabelAll, ih, List.map_cons]

def relabelField (ρ : Relabelling) : Entry Lexeme Pattern -> Entry Lexeme Pattern :=
  Entry.relabel ρ (Lexeme.relabel ρ) (relabel ρ)

@[simp] theorem relabelFields_eq_map (ρ : Relabelling) (fields : List (Entry Lexeme Pattern)) :
    relabelFields ρ fields = fields.map (relabelField ρ) := by
  induction fields with
  | nil => rfl
  | cons field rest ih =>
      rw [relabelFields, ih, List.map_cons]
      rfl

end Pattern

/-!
## What stands around definitions
-/

namespace Attribute

def relabel (ρ : Relabelling) : Attribute -> Attribute
  | .plain name span => .plain (name.relabel ρ) (span.relabel ρ)
  | .withText name text span => .withText (name.relabel ρ) (text.relabel ρ) (span.relabel ρ)
  | .withNumber name number span =>
      .withNumber (name.relabel ρ) (number.relabel ρ) (span.relabel ρ)

end Attribute

namespace Header

def relabel (ρ : Relabelling) (header : Header) : Header :=
  { comments := ρ.comments header.comments
    attributes := header.attributes.map (Attribute.relabel ρ) }

end Header

namespace Representation

def relabelField (ρ : Relabelling) : Entry Lexeme Signature -> Entry Lexeme Signature :=
  Entry.relabel ρ (Lexeme.relabel ρ) (Signature.relabel ρ)

def relabelVariant (ρ : Relabelling) :
    Entry Lexeme (List TypeExpr) -> Entry Lexeme (List TypeExpr) :=
  Entry.relabel ρ (Lexeme.relabel ρ) (List.map (TypeExpr.relabel ρ))

def relabel (ρ : Relabelling) : Representation -> Representation
  | .structured fields span => .structured (fields.map (relabelField ρ)) (span.relabel ρ)
  | .enumerated variants span => .enumerated (variants.map (relabelVariant ρ)) (span.relabel ρ)

end Representation

/-!
## Expressions and statements
-/

mutual

def Expression.relabel (ρ : Relabelling) : Expression -> Expression
  | .placeholder span => .placeholder (span.relabel ρ)
  | .variable name => .variable (name.relabel ρ)
  | .typeName name => .typeName (name.relabel ρ)
  | .number literal => .number (literal.relabel ρ)
  | .text literal => .text (literal.relabel ρ)
  | .unit span => .unit (span.relabel ρ)
  | .record fields span => .record (Expression.relabelFields ρ fields) (span.relabel ρ)
  | .block statements span => .block (Statement.relabelAll ρ statements) (span.relabel ρ)
  | .formattedText text inputs span =>
      .formattedText (text.relabel ρ) (Expression.relabelAll ρ inputs) (span.relabel ρ)
  | .call function inputs span =>
      .call (function.relabel ρ) (Expression.relabelAll ρ inputs) (span.relabel ρ)
  | .perform input span => .perform (input.relabel ρ) (span.relabel ρ)
  | .when input arms span =>
      .when (input.relabel ρ) (Expression.relabelArms ρ arms) (span.relabel ρ)
  | .intrinsic name inputs span =>
      .intrinsic (name.relabel ρ) (Expression.relabelAll ρ inputs) (span.relabel ρ)
  | .binary operator left right span =>
      .binary operator (left.relabel ρ) (right.relabel ρ) (span.relabel ρ)
  | .tuple elements span => .tuple (Expression.relabelAll ρ elements) (span.relabel ρ)
  | .collection elements span =>
      .collection (Expression.relabelAll ρ elements) (span.relabel ρ)
  | .function inputs output span =>
      .function (inputs.map (Pattern.relabel ρ)) (output.relabel ρ) (span.relabel ρ)

def Expression.relabelAll (ρ : Relabelling) : List Expression -> List Expression
  | [] => []
  | expression :: rest => expression.relabel ρ :: Expression.relabelAll ρ rest

def Expression.relabelFields (ρ : Relabelling) :
    List (Entry Lexeme Expression) -> List (Entry Lexeme Expression)
  | [] => []
  | { key, value, span } :: rest =>
      { key := key.relabel ρ, value := value.relabel ρ, span := span.relabel ρ } ::
        Expression.relabelFields ρ rest

def Expression.relabelArms (ρ : Relabelling) :
    List (Entry Pattern Expression) -> List (Entry Pattern Expression)
  | [] => []
  | { key, value, span } :: rest =>
      { key := key.relabel ρ, value := value.relabel ρ, span := span.relabel ρ } ::
        Expression.relabelArms ρ rest

def Operand.relabel (ρ : Relabelling) : Operand -> Operand
  | .expression expression => .expression (expression.relabel ρ)
  | .pattern pattern => .pattern (pattern.relabel ρ)
  | .type type => .type (type.relabel ρ)

def Statement.relabel (ρ : Relabelling) : Statement -> Statement
  | .typeDefinition header name parameters representation span =>
      .typeDefinition (header.relabel ρ) (name.relabel ρ)
        (parameters.map (TypeFunction.relabel ρ))
        (representation.map (Representation.relabel ρ)) (span.relabel ρ)
  | .traitDefinition header name parameters type clause span =>
      .traitDefinition (header.relabel ρ) (name.relabel ρ)
        (parameters.map (TypeFunction.relabel ρ)) (type.map (TypeExpr.relabel ρ))
        (clause.map (WhereClause.relabel ρ)) (span.relabel ρ)
  | .constantDefinition header name signature span =>
      .constantDefinition (header.relabel ρ) (name.relabel ρ) (signature.relabel ρ)
        (span.relabel ρ)
  | .instanceDefinition header trait parameters clause value span =>
      .instanceDefinition (header.relabel ρ) (trait.relabel ρ)
        (parameters.map (TypeExpr.relabel ρ)) (clause.map (WhereClause.relabel ρ))
        (Expression.relabelOption ρ value) (span.relabel ρ)
  | .assignment pattern value span =>
      .assignment (pattern.relabel ρ) (value.relabel ρ) (span.relabel ρ)
  | .expression expression span => .expression (expression.relabel ρ) (span.relabel ρ)
  | .error span => .error (span.relabel ρ)

def Expression.relabelOption (ρ : Relabelling) : Option Expression -> Option Expression
  | none => none
  | some expression => some (expression.relabel ρ)

def Statement.relabelAll (ρ : Relabelling) : List Statement -> List Statement
  | [] => []
  | statement :: rest => statement.relabel ρ :: Statement.relabelAll ρ rest

end

namespace Expression

@[simp] theorem relabelAll_eq_map (ρ : Relabelling) (expressions : List Expression) :
    relabelAll ρ expressions = expressions.map (relabel ρ) := by
  induction expressions with
  | nil => rfl
  | cons expression rest ih => rw [relabelAll, ih, List.map_cons]

def relabelField (ρ : Relabelling) : Entry Lexeme Expression -> Entry Lexeme Expression :=
  Entry.relabel ρ (Lexeme.relabel ρ) (relabel ρ)

@[simp] theorem relabelFields_eq_map (ρ : Relabelling)
    (fields : List (Entry Lexeme Expression)) :
    relabelFields ρ fields = fields.map (relabelField ρ) := by
  induction fields with
  | nil => rfl
  | cons field rest ih =>
      rw [relabelFields, ih, List.map_cons]
      rfl

def relabelArm (ρ : Relabelling) : Entry Pattern Expression -> Entry Pattern Expression :=
  Entry.relabel ρ (Pattern.relabel ρ) (relabel ρ)

@[simp] theorem relabelArms_eq_map (ρ : Relabelling) (arms : List (Entry Pattern Expression)) :
    relabelArms ρ arms = arms.map (relabelArm ρ) := by
  induction arms with
  | nil => rfl
  | cons arm rest ih =>
      rw [relabelArms, ih, List.map_cons]
      rfl

@[simp] theorem relabelOption_eq_map (ρ : Relabelling) (value : Option Expression) :
    relabelOption ρ value = value.map (relabel ρ) := by
  cases value with
  | none => rfl
  | some expression => rfl

end Expression

@[simp] theorem Statement.relabelAll_eq_map (ρ : Relabelling) (statements : List Statement) :
    Statement.relabelAll ρ statements = statements.map (Statement.relabel ρ) := by
  induction statements with
  | nil => rfl
  | cons statement rest ih => rw [Statement.relabelAll, ih, List.map_cons]

/-!
## Moving nothing
-/

theorem Relabelling.map_identity {α : Type} {move : α -> α} (h : forall value, move value = value)
    (values : List α) : values.map move = values := by
  induction values with
  | nil => rfl
  | cons value rest ih => rw [List.map_cons, h, ih]

theorem Relabelling.comments_identity (comments : List Lexeme) :
    Relabelling.identity.comments comments = comments := by
  rw [comments_eq_map rfl, map_identity Lexeme.relabel_identity]

theorem Relabelling.optionMap_identity {α : Type} {move : α -> α}
    (h : forall value, move value = value) (value : Option α) : value.map move = value := by
  cases value with
  | none => rfl
  | some value => rw [Option.map_some, h]

open Relabelling

namespace TypeExpr

mutual

@[simp] theorem relabel_identity (type : TypeExpr) : type.relabel .identity = type := by
  cases type with
  | named name parameters span => simp [relabel, relabelAll_identity parameters]
  | function inputs output span =>
      simp [relabel, relabelAll_identity inputs, relabel_identity output]
  | block output span => simp [relabel, relabel_identity output]
  | tuple elements span => simp [relabel, relabelAll_identity elements]
  | _ => simp [relabel]

theorem relabelAll_identity (types : List TypeExpr) :
    types.map (relabel .identity) = types := by
  cases types with
  | nil => rfl
  | cons type rest => rw [List.map_cons, relabel_identity type, relabelAll_identity rest]

end

end TypeExpr

@[simp] theorem Constraint.relabel_identity (constraint : Constraint) :
    constraint.relabel .identity = constraint := by
  cases constraint <;> simp [relabel, map_identity TypeExpr.relabel_identity]

@[simp] theorem WhereClause.relabel_identity (clause : WhereClause) :
    clause.relabel .identity = clause := by
  simp [relabel, map_identity Constraint.relabel_identity]

@[simp] theorem Signature.relabel_identity (signature : Signature) :
    signature.relabel .identity = signature := by
  simp [relabel, optionMap_identity WhereClause.relabel_identity]

@[simp] theorem TypeFunction.relabel_identity (function : TypeFunction) :
    function.relabel .identity = function := by
  simp [relabel, map_identity Lexeme.relabel_identity]

namespace Pattern

mutual

@[simp] theorem relabel_identity (pattern : Pattern) : pattern.relabel .identity = pattern := by
  cases pattern with
  | destructure fields span => simp [relabel, relabelFields_identity fields]
  | tuple elements span => simp [relabel, relabelAll_identity elements]
  | or left right span => simp [relabel, relabel_identity left, relabel_identity right]
  | annotate inner type span => simp [relabel, relabel_identity inner]
  | variant name elements span => simp [relabel, relabelAll_identity elements]
  | _ => simp [relabel]

theorem relabelAll_identity (patterns : List Pattern) :
    patterns.map (relabel .identity) = patterns := by
  cases patterns with
  | nil => rfl
  | cons pattern rest => rw [List.map_cons, relabel_identity pattern, relabelAll_identity rest]

theorem relabelFields_identity (fields : List (Entry Lexeme Pattern)) :
    fields.map (relabelField .identity) = fields := by
  match fields with
  | [] => rfl
  | { key, value, span } :: rest =>
      rw [List.map_cons, relabelFields_identity rest]
      simp [relabelField, Entry.relabel, relabel_identity value]

end

end Pattern

@[simp] theorem Attribute.relabel_identity (found : Attribute) :
    found.relabel .identity = found := by
  cases found <;> simp [relabel]

@[simp] theorem Header.relabel_identity (header : Header) :
    header.relabel .identity = header := by
  simp [relabel, comments_identity, map_identity Attribute.relabel_identity]

@[simp] theorem Representation.relabel_identity (representation : Representation) :
    representation.relabel .identity = representation := by
  have hfield : forall field : Entry Lexeme Signature,
      relabelField .identity field = field := by
    intro field
    simp [relabelField, Entry.relabel]
  have hvariant : forall variant : Entry Lexeme (List TypeExpr),
      relabelVariant .identity variant = variant := by
    intro variant
    simp [relabelVariant, Entry.relabel, map_identity TypeExpr.relabel_identity]
  cases representation with
  | structured fields span => simp [relabel, map_identity hfield]
  | enumerated variants span => simp [relabel, map_identity hvariant]

mutual

@[simp] theorem Expression.relabel_identity (expression : Expression) :
    expression.relabel .identity = expression := by
  cases expression with
  | record fields span => simp [Expression.relabel, Expression.fields_identity fields]
  | block statements span => simp [Expression.relabel, Statement.relabelAll_identity statements]
  | formattedText text inputs span =>
      simp [Expression.relabel, Expression.relabelAll_identity inputs]
  | call function inputs span =>
      simp [Expression.relabel, Expression.relabel_identity function,
        Expression.relabelAll_identity inputs]
  | perform input span => simp [Expression.relabel, Expression.relabel_identity input]
  | «when» input arms span =>
      simp [Expression.relabel, Expression.relabel_identity input, Expression.arms_identity arms]
  | intrinsic name inputs span => simp [Expression.relabel, Expression.relabelAll_identity inputs]
  | binary operator left right span =>
      simp [Expression.relabel, Expression.relabel_identity left, Operand.relabel_identity right]
  | tuple elements span => simp [Expression.relabel, Expression.relabelAll_identity elements]
  | collection elements span => simp [Expression.relabel, Expression.relabelAll_identity elements]
  | function inputs output span =>
      simp [Expression.relabel, Expression.relabel_identity output,
        map_identity Pattern.relabel_identity]
  | _ => simp [Expression.relabel]

theorem Expression.relabelAll_identity (expressions : List Expression) :
    expressions.map (Expression.relabel .identity) = expressions := by
  cases expressions with
  | nil => rfl
  | cons expression rest =>
      rw [List.map_cons, Expression.relabel_identity expression,
        Expression.relabelAll_identity rest]

theorem Expression.fields_identity (fields : List (Entry Lexeme Expression)) :
    fields.map (Expression.relabelField .identity) = fields := by
  match fields with
  | [] => rfl
  | { key, value, span } :: rest =>
      rw [List.map_cons, Expression.fields_identity rest]
      simp [Expression.relabelField, Entry.relabel, Expression.relabel_identity value]

theorem Expression.arms_identity (arms : List (Entry Pattern Expression)) :
    arms.map (Expression.relabelArm .identity) = arms := by
  match arms with
  | [] => rfl
  | { key, value, span } :: rest =>
      rw [List.map_cons, Expression.arms_identity rest]
      simp [Expression.relabelArm, Entry.relabel, Expression.relabel_identity value]

@[simp] theorem Operand.relabel_identity (operand : Operand) :
    operand.relabel .identity = operand := by
  cases operand with
  | expression expression => simp [Operand.relabel, Expression.relabel_identity expression]
  | _ => simp [Operand.relabel]

@[simp] theorem Statement.relabel_identity (statement : Statement) :
    statement.relabel .identity = statement := by
  cases statement with
  | typeDefinition header name parameters representation span =>
      simp [Statement.relabel, optionMap_identity TypeFunction.relabel_identity,
        optionMap_identity Representation.relabel_identity]
  | traitDefinition header name parameters type clause span =>
      simp [Statement.relabel, optionMap_identity TypeFunction.relabel_identity,
        optionMap_identity TypeExpr.relabel_identity,
        optionMap_identity WhereClause.relabel_identity]
  | instanceDefinition header trait parameters clause value span =>
      simp [Statement.relabel, map_identity TypeExpr.relabel_identity,
        optionMap_identity WhereClause.relabel_identity, Expression.option_identity value]
  | assignment pattern value span => simp [Statement.relabel, Expression.relabel_identity value]
  | expression expression span => simp [Statement.relabel, Expression.relabel_identity expression]
  | _ => simp [Statement.relabel]

theorem Expression.option_identity (value : Option Expression) :
    value.map (Expression.relabel .identity) = value := by
  cases value with
  | none => rfl
  | some expression => rw [Option.map_some, Expression.relabel_identity expression]

theorem Statement.relabelAll_identity (statements : List Statement) :
    statements.map (Statement.relabel .identity) = statements := by
  cases statements with
  | nil => rfl
  | cons statement rest =>
      rw [List.map_cons, Statement.relabel_identity statement,
        Statement.relabelAll_identity rest]

end

/-!
## Outlines

The node of a relabelled tree is the relabelled node of the tree, and the outline
of a node is made without its spans.
-/

namespace Node

mutual

def relabel (ρ : Relabelling) : Node -> Node
  | .leaf kind lexeme => .leaf kind (lexeme.relabel ρ)
  | .bare kind lexeme => .bare kind (lexeme.relabel ρ)
  | .branch tag span children => .branch tag (span.relabel ρ) (relabelAll ρ children)
  | .group tag span children => .group tag (span.relabel ρ) (relabelAll ρ children)

def relabelAll (ρ : Relabelling) : List Node -> List Node
  | [] => []
  | node :: rest => relabel ρ node :: relabelAll ρ rest

end

@[simp] theorem relabelAll_eq_map (ρ : Relabelling) (nodes : List Node) :
    relabelAll ρ nodes = nodes.map (relabel ρ) := by
  induction nodes with
  | nil => rfl
  | cons node rest ih => rw [relabelAll, ih, List.map_cons]

mutual

theorem outlines_relabel (ρ : Relabelling) (node : Node) :
    (node.relabel ρ).outlines = node.outlines := by
  cases node with
  | leaf kind lexeme => rfl
  | bare kind lexeme => rfl
  | branch tag span children => simp [relabel, outlines, outlinesOfAll_relabel ρ children]
  | group tag span children => simp [relabel, outlines, outlinesOfAll_relabel ρ children]

theorem outlinesOfAll_relabel (ρ : Relabelling) (nodes : List Node) :
    outlinesOfAll (nodes.map (relabel ρ)) = outlinesOfAll nodes := by
  cases nodes with
  | nil => rfl
  | cons node rest =>
      rw [List.map_cons, outlinesOfAll, outlinesOfAll, outlines_relabel ρ node,
        outlinesOfAll_relabel ρ rest]

end

@[simp] theorem relabel_tag (ρ : Relabelling) (node : Node) :
    (node.relabel ρ).tag = node.tag := by
  cases node <;> rfl

@[simp] theorem relabel_span (ρ : Relabelling) (node : Node) :
    (node.relabel ρ).span = node.span.relabel ρ := by
  cases node <;> rfl

end Node

namespace TypeExpr

mutual

theorem node_relabel (ρ : Relabelling) (type : TypeExpr) :
    (type.relabel ρ).node = type.node.relabel ρ := by
  cases type with
  | named name parameters span =>
      simp [relabel, node, Node.relabel, nodes_relabel ρ parameters]
  | function inputs output span =>
      simp [relabel, node, Node.relabel, nodes_relabel ρ inputs, node_relabel ρ output]
  | block output span => simp [relabel, node, Node.relabel, node_relabel ρ output]
  | tuple elements span => simp [relabel, node, Node.relabel, nodes_relabel ρ elements]
  | _ => simp [relabel, node, Node.relabel, Lexeme.relabel]

theorem nodes_relabel (ρ : Relabelling) (types : List TypeExpr) :
    nodes (types.map (relabel ρ)) = (nodes types).map (Node.relabel ρ) := by
  cases types with
  | nil => rfl
  | cons type rest =>
      simp [nodes, node_relabel ρ type, nodes_relabel ρ rest]

end

end TypeExpr

theorem Constraint.node_relabel (ρ : Relabelling) (constraint : Constraint) :
    (constraint.relabel ρ).node = constraint.node.relabel ρ := by
  cases constraint <;>
    simp [relabel, node, Node.relabel, TypeExpr.nodes_relabel, TypeExpr.node_relabel]

theorem WhereClause.node_relabel (ρ : Relabelling) (clause : WhereClause) :
    (clause.relabel ρ).node = clause.node.relabel ρ := by
  simp [relabel, node, Node.relabel, Constraint.node_relabel]

theorem Signature.node_relabel (ρ : Relabelling) (signature : Signature) :
    (signature.relabel ρ).node = signature.node.relabel ρ := by
  cases hclause : signature.clause with
  | none => simp [relabel, node, Node.relabel, TypeExpr.node_relabel, hclause]
  | some clause =>
      simp [relabel, node, Node.relabel, TypeExpr.node_relabel, WhereClause.node_relabel,
        hclause]

theorem TypeFunction.node_relabel (ρ : Relabelling) (function : TypeFunction) :
    (function.relabel ρ).node = function.node.relabel ρ := by
  simp [relabel, node, parameterNode, Node.relabel, Lexeme.relabel]

namespace Pattern

mutual

theorem node_relabel (ρ : Relabelling) (pattern : Pattern) :
    (pattern.relabel ρ).node = pattern.node.relabel ρ := by
  cases pattern with
  | destructure fields span => simp [relabel, node, Node.relabel, fieldNodes_relabel ρ fields]
  | tuple elements span => simp [relabel, node, Node.relabel, nodes_relabel ρ elements]
  | or left right span =>
      simp [relabel, node, Node.relabel, node_relabel ρ left, node_relabel ρ right]
  | annotate inner type span =>
      simp [relabel, node, Node.relabel, node_relabel ρ inner, TypeExpr.node_relabel]
  | variant name elements span =>
      simp [relabel, node, Node.relabel, nodes_relabel ρ elements]
  | _ => simp [relabel, node, Node.relabel, Lexeme.relabel]

theorem nodes_relabel (ρ : Relabelling) (patterns : List Pattern) :
    nodes (patterns.map (relabel ρ)) = (nodes patterns).map (Node.relabel ρ) := by
  cases patterns with
  | nil => rfl
  | cons pattern rest =>
      simp [nodes, node_relabel ρ pattern, nodes_relabel ρ rest]

theorem fieldNodes_relabel (ρ : Relabelling) (fields : List (Entry Lexeme Pattern)) :
    fieldNodes (fields.map (relabelField ρ)) = (fieldNodes fields).map (Node.relabel ρ) := by
  match fields with
  | [] => rfl
  | { key, value, span } :: rest =>
      simp [fieldNodes, relabelField, Entry.relabel, Node.relabel, node_relabel ρ value,
        ← fieldNodes_relabel ρ rest]

end

end Pattern

theorem Attribute.node_relabel (ρ : Relabelling) (found : Attribute) :
    (found.relabel ρ).node = found.node.relabel ρ := by
  cases found <;> simp [relabel, node, Node.relabel]

theorem Header.nodes_relabel {ρ : Relabelling} (hkept : ρ.commented = true) (header : Header) :
    (header.relabel ρ).nodes = header.nodes.map (Node.relabel ρ) := by
  simp [relabel, nodes, Relabelling.comments_eq_map hkept, Node.relabel, Attribute.node_relabel,
    Function.comp_def]

theorem Representation.node_relabel (ρ : Relabelling) (representation : Representation) :
    (representation.relabel ρ).node = representation.node.relabel ρ := by
  cases representation <;>
    simp [relabel, node, fieldNode, variantNode, relabelField, relabelVariant, Entry.relabel,
      Node.relabel, Signature.node_relabel, TypeExpr.nodes_relabel]

theorem Node.toList_relabel {α : Type} {move : α -> α} {node : α -> Node} {ρ : Relabelling}
    (h : forall value, node (move value) = (node value).relabel ρ) (value : Option α) :
    (value.map (node ∘ move)).toList = ((value.map node).toList).map (Node.relabel ρ) := by
  cases value with
  | none => rfl
  | some value => simp [h]

mutual

theorem Expression.node_relabel {ρ : Relabelling} (hkept : ρ.commented = true)
    (expression : Expression) :
    (expression.relabel ρ).node = expression.node.relabel ρ := by
  cases expression with
  | record fields span =>
      simp [Expression.relabel, Expression.node, Node.relabel,
        Expression.fieldNodes_relabel hkept fields]
  | block statements span =>
      simp [Expression.relabel, Expression.node, Node.relabel,
        Statement.nodes_relabel hkept statements]
  | formattedText text inputs span =>
      simp [Expression.relabel, Expression.node, Node.relabel,
        Expression.nodes_relabel hkept inputs]
  | call function inputs span =>
      simp [Expression.relabel, Expression.node, Node.relabel,
        Expression.node_relabel hkept function, Expression.nodes_relabel hkept inputs]
  | perform input span =>
      simp [Expression.relabel, Expression.node, Node.relabel, Expression.node_relabel hkept input]
  | «when» input arms span =>
      simp [Expression.relabel, Expression.node, Node.relabel, Expression.node_relabel hkept input,
        Expression.armNodes_relabel hkept arms]
  | intrinsic name inputs span =>
      simp [Expression.relabel, Expression.node, Node.relabel,
        Expression.nodes_relabel hkept inputs]
  | binary operator left right span =>
      simp [Expression.relabel, Expression.node, Node.relabel, Expression.node_relabel hkept left,
        Operand.node_relabel hkept right]
  | tuple elements span =>
      simp [Expression.relabel, Expression.node, Node.relabel,
        Expression.nodes_relabel hkept elements]
  | collection elements span =>
      simp [Expression.relabel, Expression.node, Node.relabel,
        Expression.nodes_relabel hkept elements]
  | function inputs output span =>
      simp [Expression.relabel, Expression.node, Node.relabel, Pattern.nodes_relabel,
        Expression.node_relabel hkept output]
  | _ => simp [Expression.relabel, Expression.node, Node.relabel, Lexeme.relabel]

theorem Expression.nodes_relabel {ρ : Relabelling} (hkept : ρ.commented = true)
    (expressions : List Expression) :
    Expression.nodes (expressions.map (Expression.relabel ρ)) =
      (Expression.nodes expressions).map (Node.relabel ρ) := by
  cases expressions with
  | nil => rfl
  | cons expression rest =>
      simp [Expression.nodes, Expression.node_relabel hkept expression,
        Expression.nodes_relabel hkept rest]

theorem Expression.fieldNodes_relabel {ρ : Relabelling} (hkept : ρ.commented = true)
    (fields : List (Entry Lexeme Expression)) :
    Expression.fieldNodes (fields.map (Expression.relabelField ρ)) =
      (Expression.fieldNodes fields).map (Node.relabel ρ) := by
  match fields with
  | [] => rfl
  | { key, value, span } :: rest =>
      simp [Expression.fieldNodes, Expression.relabelField, Entry.relabel, Node.relabel,
        Expression.node_relabel hkept value]
      exact Expression.fieldNodes_relabel hkept rest

theorem Expression.armNodes_relabel {ρ : Relabelling} (hkept : ρ.commented = true)
    (arms : List (Entry Pattern Expression)) :
    Expression.armNodes (arms.map (Expression.relabelArm ρ)) =
      (Expression.armNodes arms).map (Node.relabel ρ) := by
  match arms with
  | [] => rfl
  | { key, value, span } :: rest =>
      simp [Expression.armNodes, Expression.relabelArm, Entry.relabel, Node.relabel,
        Pattern.node_relabel, Expression.node_relabel hkept value]
      exact Expression.armNodes_relabel hkept rest

theorem Operand.node_relabel {ρ : Relabelling} (hkept : ρ.commented = true) (operand : Operand) :
    (operand.relabel ρ).node = operand.node.relabel ρ := by
  cases operand with
  | expression expression =>
      simp [Operand.relabel, Operand.node, Node.relabel, Expression.node_relabel hkept expression]
  | pattern pattern => simp [Operand.relabel, Operand.node, Node.relabel, Pattern.node_relabel]
  | type type => simp [Operand.relabel, Operand.node, Node.relabel, TypeExpr.node_relabel]

theorem Statement.node_relabel {ρ : Relabelling} (hkept : ρ.commented = true)
    (statement : Statement) :
    (statement.relabel ρ).node = statement.node.relabel ρ := by
  cases statement with
  | typeDefinition header name parameters representation span =>
      simp [Statement.relabel, Statement.node, Node.relabel, Header.nodes_relabel hkept,
        Node.toList_relabel (TypeFunction.node_relabel ρ),
        Node.toList_relabel (Representation.node_relabel ρ)]
  | traitDefinition header name parameters type clause span =>
      simp [Statement.relabel, Statement.node, Node.relabel, Header.nodes_relabel hkept,
        Node.toList_relabel (TypeFunction.node_relabel ρ),
        Node.toList_relabel (TypeExpr.node_relabel ρ),
        Node.toList_relabel (WhereClause.node_relabel ρ)]
  | constantDefinition header name signature span =>
      simp [Statement.relabel, Statement.node, Node.relabel, Header.nodes_relabel hkept,
        Signature.node_relabel]
  | instanceDefinition header trait parameters clause value span =>
      simp [Statement.relabel, Statement.node, Node.relabel, Header.nodes_relabel hkept,
        TypeExpr.nodes_relabel, Node.toList_relabel (WhereClause.node_relabel ρ),
        Expression.optionNodes_relabel hkept value]
  | assignment pattern value span =>
      simp [Statement.relabel, Statement.node, Node.relabel, Pattern.node_relabel,
        Expression.node_relabel hkept value]
  | expression expression span =>
      simp [Statement.relabel, Statement.node, Node.relabel,
        Expression.node_relabel hkept expression]
  | error span => simp [Statement.relabel, Statement.node, Node.relabel]

theorem Expression.optionNodes_relabel {ρ : Relabelling} (hkept : ρ.commented = true)
    (value : Option Expression) :
    Expression.optionNodes (value.map (Expression.relabel ρ)) =
      (Expression.optionNodes value).map (Node.relabel ρ) := by
  cases value with
  | none => rfl
  | some expression => simp [Expression.optionNodes, Expression.node_relabel hkept expression]

theorem Statement.nodes_relabel {ρ : Relabelling} (hkept : ρ.commented = true)
    (statements : List Statement) :
    Statement.nodes (statements.map (Statement.relabel ρ)) =
      (Statement.nodes statements).map (Node.relabel ρ) := by
  cases statements with
  | nil => rfl
  | cons statement rest =>
      simp [Statement.nodes, Statement.node_relabel hkept statement,
        Statement.nodes_relabel hkept rest]

end

/-- A source file is written the same wherever its parts stand. -/
theorem SourceFile.render_relabel {ρ : Relabelling} {file moved : SourceFile}
    (hkept : ρ.commented = true)
    (h : moved.statements = file.statements.map (Statement.relabel ρ)) :
    moved.render = file.render := by
  simp [SourceFile.render, SourceFile.node, Node.render, Node.outlines, h,
    Statement.nodes_relabel hkept, Node.outlinesOfAll_relabel]

end Linewise
