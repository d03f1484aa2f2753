import Linewise.Tree.Expression
import Linewise.Tree.Outline

/-!
# Trees as nodes

The node of every part of a tree, with its children in the order in which they
are shown.
-/

namespace Linewise

/-!
## Types
-/

namespace TypeExpr

mutual

def node : TypeExpr -> Node
  | .placeholder span => .branch "placeholder_type" span []
  | .parameter name => .branch "parameter_type" name.span [.bare .typeParameterName name]
  | .named name parameters span =>
      .branch "named_type" span (.bare .typeName name :: nodes parameters)
  | .function inputs output span =>
      .branch "function_type" span (nodes inputs ++ [node output])
  | .block output span => .branch "block_type" span [node output]
  | .unit span => .branch "unit_type" span []
  | .tuple elements span => .branch "tuple_type" span (nodes elements)

def nodes : List TypeExpr -> List Node
  | [] => []
  | type :: rest => node type :: nodes rest

end

end TypeExpr

namespace Constraint

def node : Constraint -> Node
  | .bound trait parameters span =>
      .branch "bound_constraint" span (.leaf .typeName trait :: TypeExpr.nodes parameters)
  | .infer parameter span =>
      .branch "infer_constraint" span [.leaf .typeParameterName parameter]
  | .fallback parameter value span =>
      .branch "default_constraint" span [.leaf .typeParameterName parameter, value.node]

end Constraint

namespace WhereClause

def node (clause : WhereClause) : Node :=
  .branch "where_clause" clause.span (clause.constraints.map Constraint.node)

end WhereClause

namespace Signature

def node (signature : Signature) : Node :=
  .group "type_annotation" signature.span
    (signature.type.node :: (signature.clause.map WhereClause.node).toList)

end Signature

namespace TypeFunction

def parameterNode (name : Lexeme) : Node :=
  .group "parameter_type" name.span [.bare .typeParameterName name]

def node (function : TypeFunction) : Node :=
  .branch "type_function" function.span (function.parameters.map parameterNode)

end TypeFunction

/-!
## Patterns
-/

namespace Pattern

mutual

def node : Pattern -> Node
  | .wildcard span => .branch "wildcard_pattern" span []
  | .variable name => .branch "variable_pattern" name.span [.bare .variableName name]
  | .number literal => .branch "number_pattern" literal.span [.bare .number literal]
  | .text literal => .branch "text_pattern" literal.span [.bare .text literal]
  | .destructure fields span => .branch "destructure_pattern" span (fieldNodes fields)
  | .unit span => .branch "unit_pattern" span []
  | .tuple elements span => .branch "tuple_pattern" span (nodes elements)
  | .or left right span => .branch "or_pattern" span [node left, node right]
  | .annotate pattern type span =>
      .branch "annotate_pattern" span [node pattern, type.node]
  | .set name span => .branch "set_pattern" span [.bare .variableName name]
  | .variant name elements span =>
      .branch "variant_pattern" span (.bare .variantName name :: nodes elements)

def nodes : List Pattern -> List Node
  | [] => []
  | pattern :: rest => node pattern :: nodes rest

def fieldNodes : List (Entry Lexeme Pattern) -> List Node
  | [] => []
  | { key, value, span } :: rest =>
      .branch "destructure_pattern_field" span [.leaf .variableName key, node value] ::
        fieldNodes rest

end

end Pattern

/-!
## What stands around definitions
-/

namespace Attribute

def node : Attribute -> Node
  | .plain name span => .branch "name_attribute" span [.leaf .attributeName name]
  | .withText name text span =>
      .branch "assign_attribute" span [.leaf .attributeName name, .leaf .text text]
  | .withNumber name number span =>
      .branch "assign_attribute" span [.leaf .attributeName name, .leaf .number number]

end Attribute

namespace Header

def nodes (header : Header) : List Node :=
  header.comments.map (Node.leaf .comment) ++ header.attributes.map Attribute.node

end Header

namespace Representation

def fieldNode (field : Entry Lexeme Signature) : Node :=
  .branch "field_definition" field.span [.leaf .variableName field.key, field.value.node]

def variantNode (variant : Entry Lexeme (List TypeExpr)) : Node :=
  .branch "variant_definition" variant.span
    (.leaf .variantName variant.key :: TypeExpr.nodes variant.value)

def node : Representation -> Node
  | .structured fields span =>
      .branch "structure_type_representation" span (fields.map fieldNode)
  | .enumerated variants span =>
      .branch "enumeration_type_representation" span (variants.map variantNode)

end Representation

/-!
## Expressions and statements
-/

mutual

def Expression.node : Expression -> Node
  | .placeholder span => .branch "placeholder_expression" span []
  | .variable name =>
      .branch "variable_name_expression" name.span [.bare .variableName name]
  | .typeName name => .branch "type_name_expression" name.span [.bare .typeName name]
  | .number literal => .branch "number_expression" literal.span [.bare .number literal]
  | .text literal => .branch "text_expression" literal.span [.bare .text literal]
  | .unit span => .branch "unit_expression" span []
  | .record fields span =>
      .branch "structure_expression" span (Expression.fieldNodes fields)
  | .block statements span => .branch "block_expression" span (Statement.nodes statements)
  | .formattedText text inputs span =>
      .branch "formatted_text_expression" span
        (.bare .text text :: Expression.nodes inputs)
  | .call function inputs span =>
      .branch "call_expression" span (function.node :: Expression.nodes inputs)
  | .perform input span => .branch "do_expression" span [input.node]
  | .when input arms span =>
      .branch "when_expression" span (input.node :: Expression.armNodes arms)
  | .intrinsic name inputs span =>
      .branch "intrinsic_expression" span (.bare .text name :: Expression.nodes inputs)
  | .binary operator left right span =>
      .branch operator.tag span [left.node, right.node]
  | .tuple elements span => .branch "tuple_expression" span (Expression.nodes elements)
  | .collection elements span =>
      .branch "collection_expression" span (Expression.nodes elements)
  | .function inputs output span =>
      .branch "function_expression" span (Pattern.nodes inputs ++ [output.node])

def Expression.nodes : List Expression -> List Node
  | [] => []
  | expression :: rest => expression.node :: Expression.nodes rest

def Expression.fieldNodes : List (Entry Lexeme Expression) -> List Node
  | [] => []
  | { key, value, span } :: rest =>
      .branch "structure_expression_field" span [.leaf .variableName key, value.node] ::
        Expression.fieldNodes rest

def Expression.armNodes : List (Entry Pattern Expression) -> List Node
  | [] => []
  | { key, value, span } :: rest =>
      .branch "arm" span [key.node, value.node] :: Expression.armNodes rest

/-- An operand is a group around its own node.  The tag of the group is no kind of node: it
is how a flat listing marks the operand, and whether it is an expression. -/
def Operand.node : Operand -> Node
  | .expression expression =>
      let inner := expression.node
      .group ("expression:" ++ inner.tag) inner.span [inner]
  | .pattern pattern =>
      let inner := pattern.node
      .group ("operand:" ++ inner.tag) inner.span [inner]
  | .type type =>
      let inner := type.node
      .group ("operand:" ++ inner.tag) inner.span [inner]

def Statement.node : Statement -> Node
  | .typeDefinition header name parameters representation span =>
      .branch "type_definition_statement" span
        (header.nodes ++ .leaf .typeName name ::
          ((parameters.map TypeFunction.node).toList ++
            (representation.map Representation.node).toList))
  | .traitDefinition header name parameters type clause span =>
      .branch "trait_definition_statement" span
        (header.nodes ++ .leaf .typeName name ::
          ((parameters.map TypeFunction.node).toList ++
            ((type.map TypeExpr.node).toList ++ (clause.map WhereClause.node).toList)))
  | .constantDefinition header name signature span =>
      .branch "constant_definition_statement" span
        (header.nodes ++ [.leaf .variableName name, signature.node])
  | .instanceDefinition header trait parameters clause value span =>
      .branch "instance_definition_statement" span
        (header.nodes ++ .leaf .typeName trait ::
          (TypeExpr.nodes parameters ++
            ((clause.map WhereClause.node).toList ++ Expression.optionNodes value)))
  | .assignment pattern value span =>
      .branch "assignment_statement" span [pattern.node, value.node]
  | .expression expression span =>
      .branch "expression_statement" span [expression.node]
  | .error span => .branch "ERROR" span []

def Expression.optionNodes : Option Expression -> List Node
  | none => []
  | some expression => [expression.node]

def Statement.nodes : List Statement -> List Node
  | [] => []
  | statement :: rest => statement.node :: Statement.nodes rest

end

namespace SourceFile

def node (file : SourceFile) : Node :=
  .branch "source_file" file.span (Statement.nodes file.statements)

def render (file : SourceFile) : String := file.node.render

def same (a b : SourceFile) : Bool := a.node.same b.node

end SourceFile

end Linewise
