import Linewise.Tree.View

/-!
# The height of trees

The height of a node is the number of nodes on the longest way down to a leaf.  Operators
that group to the left make chains as long as the line, and so does `or` in patterns; in
the left operand of its own kind neither is counted.
-/

namespace Linewise
namespace Node

def operatorTags : List String := Operator.all.map Operator.tag

/-- Whether a node with the second tag goes on with the chain of a node with the first,
in whose left operand it stands. -/
def continues (tag first : String) : Bool :=
  (operatorTags.contains tag && operatorTags.contains first) ||
    (tag == "or_pattern" && first == "or_pattern")

def continued (tag : String) : List Node -> Bool
  | [] => false
  | first :: _ => continues tag first.tag

mutual

/-- The most nodes on a way down from a node to a leaf. -/
def height : Node -> Nat
  | .leaf _ _ => 1
  | .bare _ _ => 1
  | .branch tag _ children => heightBelow (continued tag children) children + 1
  | .group _ _ children => heightBelow false children + 1

/-- The most nodes on a way down from one of the children of a node; the first is not
counted if it goes on with a chain. -/
def heightBelow : Bool -> List Node -> Nat
  | _, [] => 0
  | chained, first :: rest =>
      max (if chained then height first - 1 else height first) (heightBelow false rest)

end

@[simp, grind =] theorem height_leaf (kind : LeafKind) (lexeme : Lexeme) :
    (Node.leaf kind lexeme).height = 1 := by rw [height]

@[simp, grind =] theorem height_bare (kind : LeafKind) (lexeme : Lexeme) :
    (Node.bare kind lexeme).height = 1 := by rw [height]

/-!
## Bounds
-/

def Low (n : Nat) (nodes : List Node) : Prop := forall node, node ∈ nodes -> node.height <= n

variable {n : Nat}

@[simp, grind .] theorem low_nil : Low n [] := by simp [Low]

@[simp, grind =] theorem low_cons {node : Node} {nodes : List Node} :
    Low n (node :: nodes) <-> node.height <= n ∧ Low n nodes := by simp [Low]

@[simp, grind =] theorem low_append {front back : List Node} :
    Low n (front ++ back) <-> Low n front ∧ Low n back := List.forall_mem_append

@[simp, grind =] theorem low_map {α : Type} {node : α -> Node} {values : List α} :
    Low n (values.map node) <-> forall value, value ∈ values -> (node value).height <= n := by
  simp [Low]

@[simp, grind =] theorem low_option {α : Type} {node : α -> Node} {value : Option α} :
    Low n (value.map node).toList <->
      forall found, value = some found -> (node found).height <= n := by
  cases value <;> simp

theorem Low.mono {m : Nat} {nodes : List Node} (h : Low n nodes) (hle : n <= m) : Low m nodes :=
  fun node hnode => Nat.le_trans (h node hnode) hle

theorem heightBelow_le {children : List Node} (h : Low n children) (chained : Bool) :
    heightBelow chained children <= n := by
  induction children generalizing chained with
  | nil => exact Nat.zero_le n
  | cons first rest ih =>
      rw [low_cons] at h
      have hrest := ih h.2 false
      rw [heightBelow]
      split <;> omega

theorem height_branch_le {tag : String} {span : Span} {children : List Node}
    (h : Low n children) : (Node.branch tag span children).height <= n + 1 := by
  rw [height]
  exact Nat.succ_le_succ (heightBelow_le h _)

theorem height_group_le {tag : String} {span : Span} {children : List Node}
    (h : Low n children) : (Node.group tag span children).height <= n + 1 := by
  rw [height]
  exact Nat.succ_le_succ (heightBelow_le h _)

theorem le_heightBelow {children : List Node} {child : Node} (h : child ∈ children) :
    child.height <= heightBelow false children := by
  induction children with
  | nil => cases h
  | cons first rest ih =>
      simp only [heightBelow, Bool.false_eq_true, if_false]
      rcases List.mem_cons.mp h with rfl | h
      · exact Nat.le_max_left _ _
      · exact Nat.le_trans (ih h) (Nat.le_max_right _ _)

theorem height_lt_of_mem {tag : String} {span : Span} {first child : Node} {rest : List Node}
    (h : child ∈ rest) : child.height < (Node.branch tag span (first :: rest)).height := by
  have hchild := le_heightBelow h
  rw [height, heightBelow]
  omega

/-- A chain that goes on does not grow: only its own node comes on top of its operands. -/
theorem height_chain_le {tag : String} {span : Span} {left right : Node}
    (hleft : continues tag left.tag = true ∧ left.height <= n + 1 ∨ left.height <= n)
    (hright : right.height <= n) : (Node.branch tag span [left, right]).height <= n + 1 := by
  have hchain : continued tag [left, right] = continues tag left.tag := rfl
  rw [height, hchain]
  cases hcontinues : continues tag left.tag with
  | true =>
      simp only [heightBelow, if_true, Bool.false_eq_true, if_false, Nat.max_zero]
      omega
  | false =>
      have hleft : left.height <= n := by simpa [hcontinues] using hleft
      simp only [heightBelow, Bool.false_eq_true, if_false, Nat.max_zero]
      omega

end Node

theorem Operator.continues_tag (operator next : Operator) :
    Node.continues next.tag operator.tag = true := by
  have hmem : forall found : Operator, Node.operatorTags.contains found.tag = true := by
    intro found
    cases found <;> decide
  rw [Node.continues, hmem, hmem]
  rfl

/-!
## Lists of trees
-/

open Node (Low)

variable {n : Nat}

@[simp, grind =] theorem TypeExpr.low_nodes {types : List TypeExpr} :
    Low n (TypeExpr.nodes types) <-> forall type, type ∈ types -> type.node.height <= n := by
  induction types with
  | nil => simp [TypeExpr.nodes]
  | cons type rest ih => simp [TypeExpr.nodes, ih]

@[simp, grind =] theorem Pattern.low_nodes {patterns : List Pattern} :
    Low n (Pattern.nodes patterns) <->
      forall pattern, pattern ∈ patterns -> pattern.node.height <= n := by
  induction patterns with
  | nil => simp [Pattern.nodes]
  | cons pattern rest ih => simp [Pattern.nodes, ih]

theorem Pattern.low_fieldNodes {fields : List (Entry Lexeme Pattern)}
    (h : forall field, field ∈ fields -> 1 <= n ∧ field.value.node.height <= n) :
    Low (n + 1) (Pattern.fieldNodes fields) := by
  induction fields with
  | nil => simp [Pattern.fieldNodes]
  | cons field rest ih =>
      have hfield := h field (by simp)
      rw [Pattern.fieldNodes, Node.low_cons]
      constructor
      · exact Node.height_branch_le (by simpa using hfield)
      · exact ih (fun field hfield => h field (by simp [hfield]))

@[simp, grind =] theorem Expression.low_nodes {expressions : List Expression} :
    Low n (Expression.nodes expressions) <->
      forall expression, expression ∈ expressions -> expression.node.height <= n := by
  induction expressions with
  | nil => simp [Expression.nodes]
  | cons expression rest ih => simp [Expression.nodes, ih]

theorem Expression.low_fieldNodes {fields : List (Entry Lexeme Expression)}
    (h : forall field, field ∈ fields -> 1 <= n ∧ field.value.node.height <= n) :
    Low (n + 1) (Expression.fieldNodes fields) := by
  induction fields with
  | nil => simp [Expression.fieldNodes]
  | cons field rest ih =>
      have hfield := h field (by simp)
      rw [Expression.fieldNodes, Node.low_cons]
      constructor
      · exact Node.height_branch_le (by simpa using hfield)
      · exact ih (fun field hfield => h field (by simp [hfield]))

theorem Expression.low_armNodes {arms : List (Entry Pattern Expression)}
    (h : forall arm, arm ∈ arms -> arm.key.node.height <= n ∧ arm.value.node.height <= n) :
    Low (n + 1) (Expression.armNodes arms) := by
  induction arms with
  | nil => simp [Expression.armNodes]
  | cons arm rest ih =>
      have harm := h arm (by simp)
      rw [Expression.armNodes, Node.low_cons]
      constructor
      · exact Node.height_branch_le (by simpa using harm)
      · exact ih (fun arm harm => h arm (by simp [harm]))

@[simp, grind =] theorem Expression.low_optionNodes {value : Option Expression} :
    Low n (Expression.optionNodes value) <->
      forall found, value = some found -> found.node.height <= n := by
  cases value <;> simp [Expression.optionNodes]

@[simp, grind =] theorem Statement.low_nodes {statements : List Statement} :
    Low n (Statement.nodes statements) <->
      forall statement, statement ∈ statements -> statement.node.height <= n := by
  induction statements with
  | nil => simp [Statement.nodes]
  | cons statement rest ih => simp [Statement.nodes, ih]

end Linewise
