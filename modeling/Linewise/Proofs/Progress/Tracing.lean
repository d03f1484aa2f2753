import Linewise.Proofs.Placement.Node
import Linewise.Grammar.Level

/-!
# Trees traced back to tokens

A leaf is made of one token.  A tree is traced back to a text if something is known of each of
its leaves that holds of all leaves made of tokens of the text, and something of each block and
each record; what that is is left open.
-/

namespace Linewise

namespace LeafKind

def tokenKind : LeafKind -> Kind
  | .typeName => .capitalName
  | .variantName => .capitalName
  | .variableName => .lowercaseName
  | .typeParameterName => .lowercaseName
  | .attributeName => .lowercaseName
  | .number => .number
  | .text => .text
  | .comment => .comment

def lexeme? (kind : LeafKind) (token : Token) : Option Lexeme :=
  match kind with
  | .text =>
      (Grammar.unquoted? token.value).map (fun value => { value := value, span := token.span })
  | .comment => some (Cursor.commentLexeme token)
  | _ => some token.toLexeme

structure MadeOf (kind : LeafKind) (lexeme : Lexeme) (token : Token) : Prop where
  sort : token.kind = kind.tokenKind
  kept : kind.lexeme? token = some lexeme

def isWord : LeafKind -> Bool
  | .text => false
  | .comment => false
  | _ => true

theorem MadeOf.word {kind : LeafKind} {token : Token} (hword : kind.isWord = true)
    (h : token.kind = kind.tokenKind) : kind.MadeOf token.toLexeme token where
  sort := h
  kept := by
    cases kind with
    | text => cases hword
    | comment => cases hword
    | _ => rfl

end LeafKind

/-- The tokens that a tree is read from, what is to be known of a leaf, and what of a block or a
record with a span and the nodes of its statements or fields.  What is to be known of a leaf
holds if it is made of one of the tokens. -/
structure Tracing where
  text : List Token
  Leaf : LeafKind -> Lexeme -> Prop
  Block : Span -> List Node -> Prop
  Record : Span -> List Node -> Prop := fun _ _ => True
  leaf : forall {token kind lexeme}, token ∈ text -> LeafKind.MadeOf kind lexeme token ->
    Leaf kind lexeme

namespace Tracing

variable (T : Tracing)

def Sees : Node -> Prop
  | .leaf kind lexeme => T.Leaf kind lexeme
  | .bare kind lexeme => T.Leaf kind lexeme
  | .branch tag span children => tag = "block_expression" -> T.Block span children
  | .group _ _ _ => True

def SeesRecord : Node -> Prop
  | .branch tag span children => tag = "structure_expression" -> T.Record span children
  | _ => True

/-- The node and all nodes below it are traced back. -/
def Traces (node : Node) : Prop := forall n, n ∈ node.subtrees -> T.Sees n ∧ T.SeesRecord n

def TracesAll (nodes : List Node) : Prop := forall node, node ∈ nodes -> T.Traces node

variable {T}

theorem traces_iff {node : Node} :
    T.Traces node <-> (T.Sees node ∧ T.SeesRecord node) ∧ T.TracesAll node.children := by
  simp only [Traces, TracesAll]
  rw [Node.subtrees_eq, List.forall_mem_cons]
  constructor
  · rintro ⟨hnode, hbelow⟩
    exact ⟨hnode, fun child hchild n hn => hbelow n (List.mem_flatMap.mpr ⟨child, hchild, hn⟩)⟩
  · rintro ⟨hnode, hchildren⟩
    refine ⟨hnode, fun n hn => ?_⟩
    rcases List.mem_flatMap.mp hn with ⟨child, hchild, hn⟩
    exact hchildren child hchild n hn

/-!
## Lists of nodes
-/

@[simp] theorem tracesAll_nil : T.TracesAll [] := by simp [TracesAll]

@[simp] theorem tracesAll_cons {node : Node} {nodes : List Node} :
    T.TracesAll (node :: nodes) <-> T.Traces node ∧ T.TracesAll nodes := by simp [TracesAll]

@[simp] theorem tracesAll_append {front back : List Node} :
    T.TracesAll (front ++ back) <-> T.TracesAll front ∧ T.TracesAll back :=
  List.forall_mem_append

@[simp] theorem tracesAll_map {α : Type} {node : α -> Node} {values : List α} :
    T.TracesAll (values.map node) <-> forall value, value ∈ values -> T.Traces (node value) := by
  simp [TracesAll]

@[simp] theorem tracesAll_option {α : Type} {node : α -> Node} {value : Option α} :
    T.TracesAll (value.map node).toList <->
      forall found, value = some found -> T.Traces (node found) := by
  cases value <;> simp

@[simp] theorem tracesAll_types {types : List TypeExpr} :
    T.TracesAll (TypeExpr.nodes types) <-> forall type, type ∈ types -> T.Traces type.node := by
  induction types with
  | nil => simp [TypeExpr.nodes]
  | cons type rest ih => simp [TypeExpr.nodes, ih]

@[simp] theorem tracesAll_patterns {patterns : List Pattern} :
    T.TracesAll (Pattern.nodes patterns) <->
      forall pattern, pattern ∈ patterns -> T.Traces pattern.node := by
  induction patterns with
  | nil => simp [Pattern.nodes]
  | cons pattern rest ih => simp [Pattern.nodes, ih]

@[simp] theorem tracesAll_expressions {expressions : List Expression} :
    T.TracesAll (Expression.nodes expressions) <->
      forall expression, expression ∈ expressions -> T.Traces expression.node := by
  induction expressions with
  | nil => simp [Expression.nodes]
  | cons expression rest ih => simp [Expression.nodes, ih]

@[simp] theorem tracesAll_optionNodes {value : Option Expression} :
    T.TracesAll (Expression.optionNodes value) <->
      forall found, value = some found -> T.Traces found.node := by
  cases value <;> simp [Expression.optionNodes]

@[simp] theorem tracesAll_statements {statements : List Statement} :
    T.TracesAll (Statement.nodes statements) <->
      forall statement, statement ∈ statements -> T.Traces statement.node := by
  induction statements with
  | nil => simp [Statement.nodes]
  | cons statement rest ih => simp [Statement.nodes, ih]

/-!
## Single nodes
-/

@[simp] theorem traces_leaf {kind : LeafKind} {lexeme : Lexeme} :
    T.Traces (.leaf kind lexeme) <-> T.Leaf kind lexeme := by
  simp [traces_iff, Sees, SeesRecord, Node.children]

@[simp] theorem traces_bare {kind : LeafKind} {lexeme : Lexeme} :
    T.Traces (.bare kind lexeme) <-> T.Leaf kind lexeme := by
  simp [traces_iff, Sees, SeesRecord, Node.children]

@[simp] theorem traces_group {tag : String} {span : Span} {children : List Node} :
    T.Traces (.group tag span children) <-> T.TracesAll children := by
  simp [traces_iff, Sees, SeesRecord, Node.children]

@[simp] theorem traces_branch {tag : String} {span : Span} {children : List Node} :
    T.Traces (.branch tag span children) <->
      ((tag = "block_expression" -> T.Block span children) ∧
        (tag = "structure_expression" -> T.Record span children)) ∧ T.TracesAll children := by
  rw [traces_iff]
  rfl

/-!
## Entries
-/

@[simp] theorem tracesAll_patternFields {fields : List (Entry Lexeme Pattern)} :
    T.TracesAll (Pattern.fieldNodes fields) <-> forall field, field ∈ fields ->
      T.Leaf .variableName field.key ∧ T.Traces field.value.node := by
  induction fields with
  | nil => simp [Pattern.fieldNodes]
  | cons field rest ih => simp [Pattern.fieldNodes, ih]

@[simp] theorem tracesAll_expressionFields {fields : List (Entry Lexeme Expression)} :
    T.TracesAll (Expression.fieldNodes fields) <-> forall field, field ∈ fields ->
      T.Leaf .variableName field.key ∧ T.Traces field.value.node := by
  induction fields with
  | nil => simp [Expression.fieldNodes]
  | cons field rest ih => simp [Expression.fieldNodes, ih]

@[simp] theorem tracesAll_arms {arms : List (Entry Pattern Expression)} :
    T.TracesAll (Expression.armNodes arms) <-> forall arm, arm ∈ arms ->
      T.Traces arm.key.node ∧ T.Traces arm.value.node := by
  induction arms with
  | nil => simp [Expression.armNodes]
  | cons arm rest ih => simp [Expression.armNodes, ih]

end Tracing

end Linewise
