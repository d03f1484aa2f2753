import Linewise.Proofs.Blame
import Linewise.Proofs.Placement.Node

/-!
# Error nodes

The nodes of a tree that stand for statements that were given up are as many as the error
statements that its script announces.
-/

namespace Linewise

namespace Node

def isError : Node -> Bool
  | .branch tag _ _ => tag == "ERROR"
  | _ => false

def errorCount (node : Node) : Nat := node.subtrees.countP isError

def errorCounts (nodes : List Node) : Nat := (nodes.flatMap subtrees).countP isError

theorem errorCount_eq (node : Node) :
    node.errorCount = errorCounts node.children + if node.isError then 1 else 0 := by
  rw [errorCount, subtrees_eq, List.countP_cons, errorCounts]

@[simp] theorem errorCounts_nil : errorCounts [] = 0 := rfl

@[simp] theorem errorCounts_cons (node : Node) (nodes : List Node) :
    errorCounts (node :: nodes) = node.errorCount + errorCounts nodes := by
  rw [errorCounts, List.flatMap_cons, List.countP_append, errorCount, errorCounts]

@[simp] theorem errorCounts_append (first second : List Node) :
    errorCounts (first ++ second) = errorCounts first + errorCounts second := by
  rw [errorCounts, List.flatMap_append, List.countP_append, errorCounts, errorCounts]

@[simp] theorem errorCount_leaf (kind : LeafKind) (lexeme : Lexeme) :
    errorCount (.leaf kind lexeme) = 0 := by simp [errorCount_eq, children, isError]

@[simp] theorem errorCount_bare (kind : LeafKind) (lexeme : Lexeme) :
    errorCount (.bare kind lexeme) = 0 := by simp [errorCount_eq, children, isError]

@[simp] theorem errorCount_group (tag : String) (span : Span) (nodes : List Node) :
    errorCount (.group tag span nodes) = errorCounts nodes := by
  simp [errorCount_eq, children, isError]

@[simp] theorem errorCount_branch (tag : String) (span : Span) (nodes : List Node) :
    errorCount (.branch tag span nodes) =
      errorCounts nodes + if tag = "ERROR" then 1 else 0 := by
  simp [errorCount_eq, children, isError]

mutual

theorem errorCount_of_mem (node : Node) {part : Node} (hpart : part ∈ node.subtrees)
    (h : node.errorCount = 0) : part.errorCount = 0 := by
  rw [subtrees_eq, List.mem_cons] at hpart
  rcases hpart with rfl | hpart
  · exact h
  · cases node with
    | leaf kind lexeme => cases hpart
    | bare kind lexeme => cases hpart
    | branch tag span children =>
        rw [errorCount_branch, Nat.add_eq_zero_iff] at h
        exact errorCount_of_mem_nodes children hpart h.1
    | group tag span children =>
        rw [errorCount_group] at h
        exact errorCount_of_mem_nodes children hpart h

theorem errorCount_of_mem_nodes (nodes : List Node) {part : Node}
    (hpart : part ∈ nodes.flatMap subtrees) (h : errorCounts nodes = 0) :
    part.errorCount = 0 := by
  cases nodes with
  | nil => cases hpart
  | cons node rest =>
      rw [List.flatMap_cons, List.mem_append] at hpart
      rw [errorCounts_cons, Nat.add_eq_zero_iff] at h
      rcases hpart with hpart | hpart
      · exact errorCount_of_mem node hpart h.1
      · exact errorCount_of_mem_nodes rest hpart h.2

end

end Node

namespace Symbol

@[simp] theorem errorCount_nil : errorCount [] = 0 := rfl

@[simp] theorem errorCount_word (kind : Kind) (value : String) (rest : List Symbol) :
    errorCount (.word kind value :: rest) = errorCount rest := rfl

@[simp] theorem errorCount_statement (begun : Statement) (rest : List Symbol) :
    errorCount (.statement begun :: rest) =
      errorCount rest + if begun.isError then 1 else 0 := by
  cases hbegun : begun.isError <;> simp [errorCount, statement?, hbegun]

end Symbol

open Node (errorCounts)

/-!
## Types and what is made of them
-/

def Tallies (node : Node) (script : List Symbol) : Prop :=
  node.errorCount = Symbol.errorCount script

theorem tallies_parts {α : Type} {node : α -> Node} {script : α -> List Symbol}
    (h : forall part, Tallies (node part) (script part)) (parts : List α) :
    errorCounts (parts.map node) = Symbol.errorCount (parts.flatMap script) := by
  induction parts with
  | nil => rfl
  | cons part rest ih => simp [Symbol.errorCount_append, (h part).symm, ← ih]

theorem tallies_part {α : Type} {node : α -> Node} {script : α -> List Symbol}
    (h : forall part, Tallies (node part) (script part)) (part : Option α) :
    errorCounts (part.map node).toList = Symbol.errorCount (optionScript script part) := by
  cases part with
  | none => rfl
  | some found =>
      have hfound : (node found).errorCount = _ := h found
      simp [optionScript, hfound]

namespace TypeExpr

mutual

theorem tallies (type : TypeExpr) : Tallies type.node type.script := by
  unfold Tallies
  cases type with
  | placeholder span => simp [node, script, Symbol.mark]
  | parameter name => simp [node, script, Symbol.leaf]
  | named name parameters span => simp [node, script, Symbol.leaf, tallies_nodes parameters]
  | function inputs output span =>
      have houtput : output.node.errorCount = _ := tallies output
      simp [node, script, Symbol.mark, Symbol.errorCount_append, tallies_nodes inputs, houtput]
  | block output span =>
      have houtput : output.node.errorCount = _ := tallies output
      simp [node, script, Symbol.mark, Symbol.errorCount_append, houtput]
  | unit span => simp [node, script]
  | tuple elements span => simp [node, script, tallies_nodes elements]

theorem tallies_nodes (types : List TypeExpr) :
    errorCounts (nodes types) = Symbol.errorCount (scripts types) := by
  cases types with
  | nil => rfl
  | cons type rest =>
      have htype : type.node.errorCount = _ := tallies type
      simp [nodes, scripts, Symbol.errorCount_append, htype, tallies_nodes rest]

end

end TypeExpr

theorem Constraint.tallies (constraint : Constraint) :
    Tallies constraint.node constraint.script := by
  unfold Tallies
  cases constraint with
  | bound trait parameters span =>
      simp [node, script, Symbol.leaf, TypeExpr.tallies_nodes parameters]
  | infer parameter span => simp [node, script, Symbol.leaf, Symbol.reserved]
  | fallback parameter value span =>
      have hvalue : value.node.errorCount = _ := value.tallies
      simp [node, script, Symbol.leaf, Symbol.mark, hvalue]

theorem WhereClause.tallies (clause : WhereClause) : Tallies clause.node clause.script := by
  simp [Tallies, node, script, Symbol.reserved, tallies_parts Constraint.tallies]

theorem Signature.tallies (signature : Signature) :
    Tallies signature.node signature.script := by
  have htype : signature.type.node.errorCount = _ := signature.type.tallies
  simp [Tallies, node, script, Symbol.errorCount_append, htype,
    tallies_part WhereClause.tallies]

theorem TypeFunction.tallies (function : TypeFunction) :
    Tallies function.node function.script := by
  have hname : forall name : Lexeme,
      Tallies (TypeFunction.parameterNode name) [.leaf .lowercaseName name] := by
    simp [Tallies, parameterNode, Symbol.leaf]
  have hnames := tallies_parts hname function.parameters
  rw [← List.map_eq_flatMap] at hnames
  simp [Tallies, node, script, Symbol.mark, Symbol.errorCount_append, hnames]

/-!
## Patterns
-/

namespace Pattern

mutual

theorem tallies (pattern : Pattern) : Tallies pattern.node pattern.script := by
  unfold Tallies
  cases pattern with
  | wildcard span => simp [node, script, Symbol.mark]
  | «variable» name => simp [node, script, Symbol.leaf]
  | number literal => simp [node, script, Symbol.leaf]
  | text literal => simp [node, script, Symbol.text]
  | destructure fields span =>
      simp [node, script, Symbol.mark, Symbol.errorCount_append, tallies_fieldNodes fields]
  | unit span => simp [node, script]
  | tuple elements span => simp [node, script, tallies_nodes elements]
  | or left right span =>
      have hleft : left.node.errorCount = _ := tallies left
      have hright : right.node.errorCount = _ := tallies right
      simp [node, script, Symbol.errorCount_append, hleft, hright]
  | annotate pattern type span =>
      have hpattern : pattern.node.errorCount = _ := tallies pattern
      have htype : type.node.errorCount = _ := type.tallies
      simp [node, script, Symbol.mark, Symbol.errorCount_append, hpattern, htype]
  | set name span => simp [node, script, Symbol.leaf, Symbol.reserved]
  | variant name elements span =>
      simp [node, script, Symbol.leaf, tallies_nodes elements]

theorem tallies_nodes (patterns : List Pattern) :
    errorCounts (nodes patterns) = Symbol.errorCount (scripts patterns) := by
  cases patterns with
  | nil => rfl
  | cons pattern rest =>
      have hpattern : pattern.node.errorCount = _ := tallies pattern
      simp [nodes, scripts, Symbol.errorCount_append, hpattern, tallies_nodes rest]

theorem tallies_fieldNodes (fields : List (Entry Lexeme Pattern)) :
    errorCounts (fieldNodes fields) = Symbol.errorCount (fieldScripts fields) := by
  cases fields with
  | nil => rfl
  | cons field rest =>
      cases field with
      | mk key value span =>
          have hvalue : value.node.errorCount = _ := tallies value
          simp [fieldNodes, fieldScripts, Symbol.leaf, Symbol.mark, Symbol.errorCount_append,
            hvalue, tallies_fieldNodes rest]

end

end Pattern

/-!
## What stands around definitions
-/

theorem Attribute.tallies (found : Attribute) : Tallies found.node found.script := by
  cases found <;> simp [Tallies, node, script, Symbol.mark, Symbol.leaf, Symbol.text]

theorem Header.tallies (header : Header) :
    errorCounts header.nodes = Symbol.errorCount header.script := by
  have hcomments : errorCounts (header.comments.map (Node.leaf .comment)) = 0 := by
    induction header.comments with
    | nil => rfl
    | cons comment rest ih => simp [ih]
  simp [nodes, script, hcomments, tallies_parts Attribute.tallies]

theorem Representation.tallies (representation : Representation) :
    Tallies representation.node representation.script := by
  have hfield : forall field, Tallies (fieldNode field) (fieldScript field) := by
    intro field
    have hvalue : field.value.node.errorCount = _ := field.value.tallies
    simp [Tallies, fieldNode, fieldScript, Symbol.leaf, Symbol.mark, hvalue]
  have hvariant : forall variant, Tallies (variantNode variant) (variantScript variant) := by
    intro variant
    simp [Tallies, variantNode, variantScript, Symbol.leaf, TypeExpr.tallies_nodes]
  cases representation with
  | structured fields span =>
      simp [Tallies, node, script, Symbol.mark, Symbol.errorCount_append,
        tallies_parts hfield]
  | enumerated variants span =>
      simp [Tallies, node, script, Symbol.mark, Symbol.errorCount_append,
        tallies_parts hvariant]

/-!
## Expressions and statements
-/

theorem Operator.tag_ne_error (operator : Operator) : operator.tag ≠ "ERROR" := by
  cases operator <;> decide

mutual

theorem Expression.tallies (expression : Expression) :
    Tallies expression.node expression.script := by
  unfold Tallies
  cases expression with
  | placeholder span => simp [Expression.node, Expression.script, Symbol.mark]
  | «variable» name => simp [Expression.node, Expression.script, Symbol.leaf]
  | typeName name => simp [Expression.node, Expression.script, Symbol.leaf]
  | number literal => simp [Expression.node, Expression.script, Symbol.leaf]
  | text literal => simp [Expression.node, Expression.script, Symbol.text]
  | unit span => simp [Expression.node, Expression.script]
  | record fields span =>
      simp [Expression.node, Expression.script, Symbol.mark, Symbol.errorCount_append,
        Expression.tallies_fieldNodes fields]
  | block statements span =>
      simp [Expression.node, Expression.script, Symbol.mark, Symbol.errorCount_append,
        Statement.tallies_nodes statements]
  | formattedText text inputs span =>
      simp [Expression.node, Expression.script, Symbol.text, Expression.tallies_nodes inputs]
  | call function inputs span =>
      have hfunction : function.node.errorCount = _ := function.tallies
      simp [Expression.node, Expression.script, Symbol.errorCount_append, hfunction,
        Expression.tallies_nodes inputs]
  | perform input span =>
      have hinput : input.node.errorCount = _ := input.tallies
      simp [Expression.node, Expression.script, Symbol.reserved, hinput]
  | when input arms span =>
      have hinput : input.node.errorCount = _ := input.tallies
      simp [Expression.node, Expression.script, Symbol.reserved, Symbol.mark,
        Symbol.errorCount_append, hinput, Expression.tallies_armNodes arms]
  | intrinsic name inputs span =>
      simp [Expression.node, Expression.script, Symbol.reserved, Symbol.text,
        Expression.tallies_nodes inputs]
  | binary operator left right span =>
      have hleft : left.node.errorCount = _ := left.tallies
      have hright : right.node.errorCount = _ := right.tallies
      simp [Expression.node, Expression.script, Operator.symbol, Symbol.errorCount_append,
        operator.tag_ne_error, hleft, hright]
  | tuple elements span =>
      simp [Expression.node, Expression.script, Expression.tallies_nodes elements]
  | collection elements span =>
      simp [Expression.node, Expression.script, Expression.tallies_nodes elements]
  | function inputs output span =>
      have houtput : output.node.errorCount = _ := output.tallies
      simp [Expression.node, Expression.script, Symbol.mark, Symbol.errorCount_append,
        Pattern.tallies_nodes inputs, houtput]

theorem Expression.tallies_nodes (expressions : List Expression) :
    errorCounts (Expression.nodes expressions) =
      Symbol.errorCount (Expression.scripts expressions) := by
  cases expressions with
  | nil => rfl
  | cons expression rest =>
      have hexpression : expression.node.errorCount = _ := expression.tallies
      simp [Expression.nodes, Expression.scripts, Symbol.errorCount_append, hexpression,
        Expression.tallies_nodes rest]

theorem Expression.tallies_fieldNodes (fields : List (Entry Lexeme Expression)) :
    errorCounts (Expression.fieldNodes fields) =
      Symbol.errorCount (Expression.fieldScripts fields) := by
  cases fields with
  | nil => rfl
  | cons field rest =>
      cases field with
      | mk key value span =>
          have hvalue : value.node.errorCount = _ := value.tallies
          simp [Expression.fieldNodes, Expression.fieldScripts, Symbol.leaf, Symbol.mark,
            Symbol.errorCount_append, hvalue, Expression.tallies_fieldNodes rest]

theorem Expression.tallies_armNodes (arms : List (Entry Pattern Expression)) :
    errorCounts (Expression.armNodes arms) =
      Symbol.errorCount (Expression.armScripts arms) := by
  cases arms with
  | nil => rfl
  | cons arm rest =>
      cases arm with
      | mk key value span =>
          have hkey : key.node.errorCount = _ := key.tallies
          have hvalue : value.node.errorCount = _ := value.tallies
          simp [Expression.armNodes, Expression.armScripts, Symbol.mark,
            Symbol.errorCount_append, hkey, hvalue, Expression.tallies_armNodes rest,
            Nat.add_assoc]

theorem Operand.tallies (operand : Operand) : Tallies operand.node operand.script := by
  cases operand with
  | expression expression => simpa [Tallies, Operand.node, Operand.script] using expression.tallies
  | pattern pattern => simpa [Tallies, Operand.node, Operand.script] using pattern.tallies
  | type type => simpa [Tallies, Operand.node, Operand.script] using type.tallies

theorem Statement.tallies (statement : Statement) :
    Tallies statement.node statement.script := by
  unfold Tallies
  cases statement with
  | typeDefinition header name parameters representation span =>
      simp [Statement.node, Statement.script, Statement.contents, Statement.isError,
        Symbol.leaf, Symbol.mark, Symbol.reserved, Symbol.errorCount_append, header.tallies,
        tallies_part TypeFunction.tallies, tallies_part Representation.tallies]
  | traitDefinition header name parameters type clause span =>
      simp [Statement.node, Statement.script, Statement.contents, Statement.isError,
        Symbol.leaf, Symbol.mark, Symbol.reserved, Symbol.errorCount_append, header.tallies,
        tallies_part TypeFunction.tallies, tallies_part TypeExpr.tallies,
        tallies_part WhereClause.tallies]
  | constantDefinition header name signature span =>
      have hsignature : signature.node.errorCount = _ := signature.tallies
      simp [Statement.node, Statement.script, Statement.contents, Statement.isError,
        Symbol.leaf, Symbol.mark, Symbol.errorCount_append, header.tallies, hsignature]
  | instanceDefinition header trait parameters clause value span =>
      simp [Statement.node, Statement.script, Statement.contents, Statement.isError,
        Symbol.leaf, Symbol.reserved, Symbol.errorCount_append, header.tallies,
        TypeExpr.tallies_nodes parameters, tallies_part WhereClause.tallies,
        Expression.tallies_optionNodes value]
  | assignment pattern value span =>
      have hpattern : pattern.node.errorCount = _ := pattern.tallies
      have hvalue : value.node.errorCount = _ := value.tallies
      simp [Statement.node, Statement.script, Statement.contents, Statement.isError,
        Symbol.mark, Symbol.errorCount_append, hpattern, hvalue]
  | expression expression span =>
      have hexpression : expression.node.errorCount = _ := expression.tallies
      simp [Statement.node, Statement.script, Statement.contents, Statement.isError,
        hexpression]
  | error span =>
      simp [Statement.node, Statement.script, Statement.contents, Statement.isError]

theorem Expression.tallies_optionNodes (value : Option Expression) :
    errorCounts (Expression.optionNodes value) =
      Symbol.errorCount (Expression.valueScript value) := by
  cases value with
  | none => rfl
  | some expression =>
      have hexpression : expression.node.errorCount = _ := expression.tallies
      simp [Expression.optionNodes, Expression.valueScript, Symbol.mark, hexpression]

theorem Statement.tallies_nodes (statements : List Statement) :
    errorCounts (Statement.nodes statements) =
      Symbol.errorCount (Statement.scripts statements) := by
  cases statements with
  | nil => rfl
  | cons statement rest =>
      have hstatement : statement.node.errorCount = _ := statement.tallies
      simp only [Statement.script, Symbol.errorCount_statement] at hstatement
      simp [Statement.nodes, Statement.scripts, Symbol.errorCount_append, hstatement,
        Statement.tallies_nodes rest]
      omega

end

theorem SourceFile.errorCount_node (file : SourceFile) :
    file.node.errorCount = Symbol.errorCount file.script := by
  simp [SourceFile.node, SourceFile.script, Statement.tallies_nodes]

theorem errorCount_of_parse {source : String} {parsed : Parsed}
    (h : parse source = .ok parsed) (hnone : parsed.errors = []) :
    parsed.file.node.errorCount = 0 := by
  have hquoted : forall t, t ∈ (tokenize source).1 -> t.Quoted :=
    fun _ ht => (admits_tokenize ht).2
  rcases parseTokens_lists blameRecovery (fits_quoted hquoted) with
    ⟨found, read, d, hfound, _, _, hlists⟩
  have hlists : Blames (read ++ [d.current]) found.errors found.file.script := hlists
  rw [parse_eq hfound] at h
  cases h
  rw [SourceFile.errorCount_node, ← hlists.nothing]
  exact (mergeErrors_eq_nil.mp hnone).2

end Linewise
