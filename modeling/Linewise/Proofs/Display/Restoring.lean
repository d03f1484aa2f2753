import Linewise.Proofs.Display.Assembly

/-!
# Trees can be told from their outlines

What is shown of a tree stands for the tree itself, up to its spans.  One rule for each
kind of node says which parts its outlines stand for; every tree is then taken apart along
its constructors.
-/

namespace Linewise

/-!
## Nodes
-/

theorem Outline.parts?_append {as bs : List Outline} {found more : List Part}
    (has : parts? as = some found) (hbs : parts? bs = some more) :
    parts? (as ++ bs) = some (found ++ more) := by
  induction as generalizing found with
  | nil =>
      cases has
      exact hbs
  | cons item rest ih =>
      cases hitem : part? item with
      | none => simp [parts?, hitem] at has
      | some part =>
          cases hrest : parts? rest with
          | none => simp [parts?, hitem, hrest] at has
          | some parts =>
              simp only [parts?, hitem, hrest, Option.some.injEq] at has
              subst has
              simp [parts?, hitem, ih hrest]

namespace Node

theorem outlinesOfAll_append (as bs : List Node) :
    outlinesOfAll (as ++ bs) = outlinesOfAll as ++ outlinesOfAll bs := by
  induction as with
  | nil => rfl
  | cons node rest ih => simp [outlinesOfAll, ih]

def Shows (nodes : List Node) (parts : List Part) : Prop :=
  Outline.parts? (outlinesOfAll nodes) = some parts

namespace Shows

variable {nodes children : List Node} {parts more : List Part}

theorem nil : Shows [] [] := rfl

theorem append {others : List Node} (hnodes : Shows nodes parts) (hothers : Shows others more) :
    Shows (nodes ++ others) (parts ++ more) := by
  rw [Shows, outlinesOfAll_append]
  exact Outline.parts?_append hnodes hothers

theorem cons {node : Node} {part : Part} (hnode : Shows [node] [part])
    (hnodes : Shows nodes parts) : Shows (node :: nodes) (part :: parts) :=
  append hnode hnodes

theorem branch {tag : String} {span : Span} {form : Form} {part : Part}
    (hchildren : Shows children parts) (htag : Form.ofTag? tag = some form)
    (hform : form parts = some part) : Shows [.branch tag span children] [part] := by
  rw [Shows] at hchildren
  simp [Shows, outlinesOfAll, outlines, Outline.parts?, Outline.part?, hchildren, htag, hform]

theorem group {tag : String} {span : Span} (hchildren : Shows children parts) :
    Shows [.group tag span children] parts := by
  rw [Shows] at hchildren
  simp [Shows, outlinesOfAll, outlines, hchildren]

theorem bare (kind : LeafKind) (lexeme : Lexeme) :
    Shows [.bare kind lexeme] [.word (kind.shown lexeme.value)] := rfl

theorem map {α β : Type} {node : α -> Node} {erase : α -> β} {part : β -> Part}
    (h : forall value, Shows [node value] [part (erase value)]) (values : List α) :
    Shows (values.map node) ((values.map erase).map part) := by
  induction values with
  | nil => exact nil
  | cons value rest ih => exact (h value).cons ih

theorem leaf (kind : LeafKind) (lexeme : Lexeme) :
    Shows [.leaf kind lexeme] [.leaf kind (lexeme.relabel .erasing)] := by
  -- A leaf is shown like a branch around the bare word.
  suffices hbranch : Shows [.branch kind.tag lexeme.span [.bare kind lexeme]]
      [.leaf kind (lexeme.relabel .erasing)] from hbranch
  cases kind with
  | text => exact branch (bare .text lexeme) rfl (by simp [Form.single, LeafKind.shown])
  | comment =>
      exact branch (bare .comment lexeme) rfl (by simp [Form.single, LeafKind.shown])
  | typeName => exact branch (bare .typeName lexeme) rfl rfl
  | variantName => exact branch (bare .variantName lexeme) rfl rfl
  | variableName => exact branch (bare .variableName lexeme) rfl rfl
  | typeParameterName => exact branch (bare .typeParameterName lexeme) rfl rfl
  | attributeName => exact branch (bare .attributeName lexeme) rfl rfl
  | number => exact branch (bare .number lexeme) rfl rfl

theorem option {α β : Type} {node : α -> Node} {erase : α -> β} {part : β -> Part}
    (h : forall value, Shows [node value] [part (erase value)]) (value : Option α) :
    Shows (value.map node).toList ((value.map erase).toList.map part) := by
  cases value with
  | none => exact nil
  | some value => exact h value

end Shows

end Node

open Node (Shows)

/-!
## Types
-/

namespace TypeExpr

mutual

theorem shows_node (type : TypeExpr) : Shows [type.node] [.type (type.relabel .erasing)] := by
  cases type with
  | placeholder span => exact .branch .nil rfl rfl
  | parameter name => exact .branch (.bare .typeParameterName name) rfl rfl
  | named name parameters span =>
      rw [relabel, relabelAll_eq_map]
      refine .branch ((Shows.bare .typeName name).cons (shows_nodes parameters)) rfl ?_
      exact Form.headed_map rfl (fun _ => rfl)
  | function inputs output span =>
      rw [relabel, relabelAll_eq_map]
      refine .branch ((shows_nodes inputs).append (shows_node output)) rfl ?_
      -- Inputs and output are one row of types, of which the reader takes the last apart.
      rw [← List.map_singleton, ← List.map_append]
      exact Form.functionType_map _ _
  | block output span => exact .branch (shows_node output) rfl rfl
  | unit span => exact .branch .nil rfl rfl
  | tuple elements span =>
      rw [relabel, relabelAll_eq_map]
      refine .branch (shows_nodes elements) rfl ?_
      exact Form.many_map (fun _ => rfl)

theorem shows_nodes (types : List TypeExpr) :
    Shows (nodes types) ((types.map (relabel .erasing)).map .type) := by
  cases types with
  | nil => exact .nil
  | cons type rest => exact (shows_node type).cons (shows_nodes rest)

end

end TypeExpr

theorem Constraint.shows_node (constraint : Constraint) :
    Shows [constraint.node] [.constraint (constraint.relabel .erasing)] := by
  cases constraint with
  | bound trait parameters span =>
      refine .branch ((Shows.leaf .typeName trait).cons (TypeExpr.shows_nodes parameters)) rfl ?_
      exact Form.headed_map rfl (fun _ => rfl)
  | infer parameter span => exact .branch (.leaf .typeParameterName parameter) rfl rfl
  | fallback parameter value span =>
      exact .branch ((Shows.leaf .typeParameterName parameter).cons value.shows_node) rfl rfl

theorem WhereClause.shows_node (clause : WhereClause) :
    Shows [clause.node] [.clause (clause.relabel .erasing)] := by
  refine .branch (.map Constraint.shows_node clause.constraints) rfl ?_
  exact Form.many_map (fun _ => rfl)

theorem Signature.shows_node (signature : Signature) :
    Shows [signature.node] (Form.ofSignature (signature.relabel .erasing)) :=
  .group (signature.type.shows_node.cons (.option WhereClause.shows_node signature.clause))

theorem TypeFunction.shows_parameterNode (name : Lexeme) :
    Shows [parameterNode name] [.word name.value] :=
  .group (.bare .typeParameterName name)

theorem TypeFunction.shows_node (function : TypeFunction) :
    Shows [function.node] [.typeFunction (function.relabel .erasing)] := by
  have herased : function.relabel .erasing =
      { parameters := (function.parameters.map Lexeme.value).map Lexeme.unplaced
        span := default } := by
    rw [List.map_map]
    rfl
  rw [herased]
  refine .branch (.map shows_parameterNode function.parameters) rfl ?_
  exact Form.many_map (fun _ => rfl)

/-!
## Patterns
-/

namespace Pattern

mutual

theorem shows_node (pattern : Pattern) :
    Shows [pattern.node] [.pattern (pattern.relabel .erasing)] := by
  cases pattern with
  | wildcard span => exact .branch .nil rfl rfl
  | «variable» name => exact .branch (.bare .variableName name) rfl rfl
  | number literal => exact .branch (.bare .number literal) rfl rfl
  | text literal =>
      exact .branch (.bare .text literal) rfl (by simp [Form.single, LeafKind.shown, relabel])
  | destructure fields span =>
      rw [relabel, relabelFields_eq_map]
      refine .branch (shows_fieldNodes fields) rfl ?_
      exact Form.many_map (fun _ => rfl)
  | unit span => exact .branch .nil rfl rfl
  | tuple elements span =>
      rw [relabel, relabelAll_eq_map]
      refine .branch (shows_nodes elements) rfl ?_
      exact Form.many_map (fun _ => rfl)
  | or left right span =>
      exact .branch ((shows_node left).cons (shows_node right)) rfl rfl
  | annotate inner type span =>
      exact .branch ((shows_node inner).cons type.shows_node) rfl rfl
  | set name span => exact .branch (.bare .variableName name) rfl rfl
  | variant name elements span =>
      rw [relabel, relabelAll_eq_map]
      refine .branch ((Shows.bare .variantName name).cons (shows_nodes elements)) rfl ?_
      exact Form.headed_map rfl (fun _ => rfl)

theorem shows_nodes (patterns : List Pattern) :
    Shows (nodes patterns) ((patterns.map (relabel .erasing)).map .pattern) := by
  cases patterns with
  | nil => exact .nil
  | cons pattern rest => exact (shows_node pattern).cons (shows_nodes rest)

theorem shows_fieldNodes (fields : List (Entry Lexeme Pattern)) :
    Shows (fieldNodes fields) ((fields.map (relabelField .erasing)).map .patternField) := by
  cases fields with
  | nil => exact .nil
  | cons field rest =>
      rcases field with ⟨key, value, span⟩
      refine .cons ?_ (shows_fieldNodes rest)
      exact .branch ((Shows.leaf .variableName key).cons (shows_node value)) rfl rfl

end

end Pattern

/-!
## What stands around definitions
-/

theorem Attribute.shows_node (found : Attribute) :
    Shows [found.node] [.note (found.relabel .erasing)] := by
  cases found with
  | plain name span => exact .branch (.leaf .attributeName name) rfl rfl
  | withText name text span =>
      exact .branch ((Shows.leaf .attributeName name).cons (.leaf .text text)) rfl rfl
  | withNumber name number span =>
      exact .branch ((Shows.leaf .attributeName name).cons (.leaf .number number)) rfl rfl

theorem Header.shows_nodes (header : Header) :
    Shows header.nodes (Form.ofHeader (header.relabel .erasing)) := by
  rw [Form.ofHeader, Header.relabel, Relabelling.comments_eq_map rfl]
  exact .append (.map (.leaf .comment) header.comments)
    (.map Attribute.shows_node header.attributes)

theorem Representation.shows_fieldNode (field : Entry Lexeme Signature) :
    Shows [fieldNode field] [.fieldDefinition (relabelField .erasing field)] := by
  refine .branch ((Shows.leaf .variableName field.key).cons field.value.shows_node) rfl ?_
  rw [Form.fieldDefinition, Form.signature?_ofSignature]
  rfl

theorem Representation.shows_variantNode (variant : Entry Lexeme (List TypeExpr)) :
    Shows [variantNode variant] [.variantDefinition (relabelVariant .erasing variant)] := by
  refine .branch
    ((Shows.leaf .variantName variant.key).cons (TypeExpr.shows_nodes variant.value)) rfl ?_
  exact Form.headed_map rfl (fun _ => rfl)

theorem Representation.shows_node (representation : Representation) :
    Shows [representation.node] [.representation (representation.relabel .erasing)] := by
  cases representation with
  | structured fields span =>
      refine .branch (.map shows_fieldNode fields) rfl ?_
      exact Form.many_map (fun _ => rfl)
  | enumerated variants span =>
      refine .branch (.map shows_variantNode variants) rfl ?_
      exact Form.many_map (fun _ => rfl)

/-!
## Expressions and statements
-/

mutual

theorem Expression.shows_node (expression : Expression) :
    Shows [expression.node] [.expression (expression.relabel .erasing)] := by
  cases expression with
  | placeholder span => exact .branch .nil rfl rfl
  | «variable» name => exact .branch (.bare .variableName name) rfl rfl
  | typeName name => exact .branch (.bare .typeName name) rfl rfl
  | number literal => exact .branch (.bare .number literal) rfl rfl
  | text literal =>
      exact .branch (.bare .text literal) rfl
        (by simp [Form.single, LeafKind.shown, Expression.relabel])
  | unit span => exact .branch .nil rfl rfl
  | record fields span =>
      rw [Expression.relabel, Expression.relabelFields_eq_map]
      refine .branch (Expression.shows_fieldNodes fields) rfl ?_
      exact Form.many_map (fun _ => rfl)
  | block statements span =>
      rw [Expression.relabel, Statement.relabelAll_eq_map]
      refine .branch (Statement.shows_nodes statements) rfl ?_
      exact Form.many_map (fun _ => rfl)
  | formattedText text inputs span =>
      rw [Expression.relabel, Expression.relabelAll_eq_map]
      refine .branch ((Shows.bare .text text).cons (Expression.shows_nodes inputs)) rfl ?_
      exact Form.headed_map (Part.text?_quoted text.value) (fun _ => rfl)
  | call function inputs span =>
      rw [Expression.relabel, Expression.relabelAll_eq_map]
      refine .branch (function.shows_node.cons (Expression.shows_nodes inputs)) rfl ?_
      exact Form.headed_map rfl (fun _ => rfl)
  | perform input span => exact .branch input.shows_node rfl rfl
  | «when» input arms span =>
      rw [Expression.relabel, Expression.relabelArms_eq_map]
      refine .branch (input.shows_node.cons (Expression.shows_armNodes arms)) rfl ?_
      exact Form.headed_map rfl (fun _ => rfl)
  | intrinsic name inputs span =>
      rw [Expression.relabel, Expression.relabelAll_eq_map]
      refine .branch ((Shows.bare .text name).cons (Expression.shows_nodes inputs)) rfl ?_
      exact Form.headed_map (Part.text?_quoted name.value) (fun _ => rfl)
  | binary operator left right span =>
      refine .branch (left.shows_node.cons right.shows_node) (Form.ofTag?_tag operator) ?_
      exact Form.binary_ofOperand _ _ _
  | tuple elements span =>
      rw [Expression.relabel, Expression.relabelAll_eq_map]
      refine .branch (Expression.shows_nodes elements) rfl ?_
      exact Form.many_map (fun _ => rfl)
  | collection elements span =>
      rw [Expression.relabel, Expression.relabelAll_eq_map]
      refine .branch (Expression.shows_nodes elements) rfl ?_
      exact Form.many_map (fun _ => rfl)
  | function inputs output span =>
      refine .branch ((Pattern.shows_nodes inputs).append output.shows_node) rfl ?_
      exact Form.function_map _ _

theorem Expression.shows_nodes (expressions : List Expression) :
    Shows (Expression.nodes expressions)
      ((expressions.map (Expression.relabel .erasing)).map .expression) := by
  cases expressions with
  | nil => exact .nil
  | cons expression rest => exact expression.shows_node.cons (Expression.shows_nodes rest)

theorem Expression.shows_fieldNodes (fields : List (Entry Lexeme Expression)) :
    Shows (Expression.fieldNodes fields)
      ((fields.map (Expression.relabelField .erasing)).map .expressionField) := by
  cases fields with
  | nil => exact .nil
  | cons field rest =>
      rcases field with ⟨key, value, span⟩
      refine .cons ?_ (Expression.shows_fieldNodes rest)
      exact .branch ((Shows.leaf .variableName key).cons value.shows_node) rfl rfl

theorem Expression.shows_armNodes (arms : List (Entry Pattern Expression)) :
    Shows (Expression.armNodes arms)
      ((arms.map (Expression.relabelArm .erasing)).map .arm) := by
  cases arms with
  | nil => exact .nil
  | cons arm rest =>
      rcases arm with ⟨key, value, span⟩
      refine .cons ?_ (Expression.shows_armNodes rest)
      exact .branch (key.shows_node.cons value.shows_node) rfl rfl

theorem Operand.shows_node (operand : Operand) :
    Shows [operand.node] [Form.ofOperand (operand.relabel .erasing)] := by
  cases operand with
  | expression expression => exact .group expression.shows_node
  | pattern pattern => exact .group pattern.shows_node
  | type type => exact .group type.shows_node

theorem Statement.shows_node (statement : Statement) :
    Shows [statement.node] [.statement (statement.relabel .erasing)] := by
  cases statement with
  | typeDefinition header name parameters representation span =>
      have hrest := (Shows.leaf .typeName name).cons
        ((Shows.option TypeFunction.shows_node parameters).append
          (.option Representation.shows_node representation))
      refine .branch (header.shows_nodes.append hrest) rfl ?_
      exact Form.typeDefinition_parts _ _ _ _
  | traitDefinition header name parameters type clause span =>
      have hrest := (Shows.leaf .typeName name).cons
        ((Shows.option TypeFunction.shows_node parameters).append
          ((Shows.option TypeExpr.shows_node type).append
            (.option WhereClause.shows_node clause)))
      refine .branch (header.shows_nodes.append hrest) rfl ?_
      exact Form.traitDefinition_parts _ _ _ _ _
  | constantDefinition header name signature span =>
      have hrest := (Shows.leaf .variableName name).cons signature.shows_node
      refine .branch (header.shows_nodes.append hrest) rfl ?_
      exact Form.constantDefinition_parts _ _ _
  | instanceDefinition header trait parameters clause value span =>
      have hrest := (Shows.leaf .typeName trait).cons
        ((TypeExpr.shows_nodes parameters).append
          ((Shows.option WhereClause.shows_node clause).append
            (Expression.shows_optionNodes value)))
      rw [Statement.relabel, Expression.relabelOption_eq_map]
      refine .branch (header.shows_nodes.append hrest) rfl ?_
      exact Form.instanceDefinition_parts _ _ _ _ _
  | assignment pattern value span =>
      exact .branch (pattern.shows_node.cons value.shows_node) rfl rfl
  | expression expression span => exact .branch expression.shows_node rfl rfl
  | error span => exact .branch .nil rfl rfl

theorem Expression.shows_optionNodes (value : Option Expression) :
    Shows (Expression.optionNodes value)
      ((value.map (Expression.relabel .erasing)).toList.map .expression) := by
  cases value with
  | none => exact .nil
  | some expression => exact expression.shows_node

theorem Statement.shows_nodes (statements : List Statement) :
    Shows (Statement.nodes statements)
      ((statements.map (Statement.relabel .erasing)).map .statement) := by
  cases statements with
  | nil => exact .nil
  | cons statement rest => exact statement.shows_node.cons (Statement.shows_nodes rest)

end

theorem SourceFile.shows_node (file : SourceFile) :
    Shows [file.node] [.file file.erased.statements] := by
  refine .branch (Statement.shows_nodes file.statements) rfl ?_
  exact Form.many_map (fun _ => rfl)

end Linewise
