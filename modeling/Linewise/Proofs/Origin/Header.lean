import Linewise.Grammar.Nesting
import Linewise.Proofs.Placement.Node
import Linewise.Proofs.Recovery
import Linewise.Tree.View

/-!
# What stands above definitions

A definition keeps the comments that were found in front of it, and its node shows them.  No
other statement keeps any.
-/

namespace Linewise

/-!
## Definitions
-/

namespace Node

def comment? : Node -> Option Lexeme
  | .leaf .comment lexeme => some lexeme
  | _ => none

def comments (node : Node) : List Lexeme := node.children.filterMap comment?

def isDefinition (node : Node) : Bool :=
  ["type_definition_statement", "trait_definition_statement", "constant_definition_statement",
    "instance_definition_statement"].contains node.tag

end Node

def Statement.header? : Statement -> Option Header
  | .typeDefinition header _ _ _ _ => some header
  | .traitDefinition header _ _ _ _ _ => some header
  | .constantDefinition header _ _ _ => some header
  | .instanceDefinition header _ _ _ _ _ => some header
  | _ => none

theorem Header.comments_node {header : Header} {tag : String} {span : Span} {rest : List Node}
    (h : rest.filterMap Node.comment? = []) :
    (Node.branch tag span (header.nodes ++ rest)).comments = header.comments := by
  have hcomments : (header.comments.map (Node.leaf .comment)).filterMap Node.comment? =
      header.comments := by
    rw [List.filterMap_map]
    exact List.filterMap_some
  have hattributes : (header.attributes.map Attribute.node).filterMap Node.comment? = [] := by
    apply List.filterMap_eq_nil_iff.mpr
    intro node hnode
    rcases List.mem_map.mp hnode with ⟨found, _, rfl⟩
    cases found <;> rfl
  rw [Node.comments, Node.children, Header.nodes, List.filterMap_append, List.filterMap_append,
    hcomments, hattributes, h, List.append_nil, List.append_nil]

theorem Node.comment?_option {α : Type} {node : α -> Node}
    (h : forall value, (node value).comment? = none) (value : Option α) :
    (value.map node).toList.filterMap comment? = [] := by
  cases value with
  | none => rfl
  | some value => simp [h value]

theorem TypeExpr.comment?_node (type : TypeExpr) : type.node.comment? = none := by
  cases type <;> rfl

theorem TypeExpr.comment?_nodes (types : List TypeExpr) :
    (TypeExpr.nodes types).filterMap Node.comment? = [] := by
  induction types with
  | nil => rfl
  | cons type rest ih =>
      rw [TypeExpr.nodes, List.filterMap_cons_none type.comment?_node, ih]

theorem Representation.comment?_node (representation : Representation) :
    representation.node.comment? = none := by
  cases representation <;> rfl

theorem Expression.comment?_node (expression : Expression) : expression.node.comment? = none := by
  cases expression <;> rfl

theorem Expression.comment?_optionNodes (value : Option Expression) :
    (Expression.optionNodes value).filterMap Node.comment? = [] := by
  cases value with
  | none => rfl
  | some value => exact List.filterMap_cons_none value.comment?_node

theorem Statement.comments_node {statement : Statement} (h : statement.node.isDefinition = true) :
    exists header, statement.header? = some header ∧
      statement.node.comments = header.comments := by
  have hname : forall (kind : LeafKind) (name : Lexeme) (nodes : List Node), kind ≠ .comment ->
      (Node.leaf kind name :: nodes).filterMap Node.comment? = nodes.filterMap Node.comment? := by
    intro kind name nodes hkind
    apply List.filterMap_cons_none
    cases kind with
    | comment => exact absurd rfl hkind
    | _ => rfl
  cases statement with
  | typeDefinition header name parameters representation span =>
      refine ⟨header, rfl, Header.comments_node ?_⟩
      rw [hname _ _ _ (by simp), List.filterMap_append, Node.comment?_option (fun _ => rfl),
        Node.comment?_option Representation.comment?_node, List.append_nil]
  | traitDefinition header name parameters type clause span =>
      refine ⟨header, rfl, Header.comments_node ?_⟩
      rw [hname _ _ _ (by simp), List.filterMap_append, List.filterMap_append,
        Node.comment?_option (fun _ => rfl), Node.comment?_option TypeExpr.comment?_node,
        Node.comment?_option (fun _ => rfl), List.append_nil, List.append_nil]
  | constantDefinition header name signature span =>
      refine ⟨header, rfl, Header.comments_node ?_⟩
      rw [hname _ _ _ (by simp)]
      rfl
  | instanceDefinition header trait parameters clause value span =>
      refine ⟨header, rfl, Header.comments_node ?_⟩
      rw [hname _ _ _ (by simp), List.filterMap_append, List.filterMap_append,
        TypeExpr.comment?_nodes, Node.comment?_option (fun _ => rfl),
        Expression.comment?_optionNodes, List.append_nil, List.append_nil]
  | _ => cases h

/-!
## Reading definitions
-/

namespace Grammar

open Linewise.Parser

variable {level : Level} {comments : List Lexeme} {terminator : Kind} {c d : Cursor}
  {found : Statement}

def Gives (P : Statement -> Prop) (parser : Parser Statement) : Prop :=
  forall c found d, parser c = .ok found d -> P found

namespace Gives

variable {P Q : Statement -> Prop}

theorem bind {α : Type} {first : Parser α} {next : α -> Parser Statement}
    (h : forall value, Gives P (next value)) : Gives P (first >>= next) := by
  intro c found d hfound
  rcases bind_eq_ok.mp hfound with ⟨value, e, _, hnext⟩
  exact h value e found d hnext

theorem last {start : Span} {build : Span -> Statement} (h : forall span, P (build span)) :
    Gives P (spanFrom start >>= fun span => pure (build span)) := by
  intro c found d hfound
  cases hfound
  exact h _

theorem mono {parser : Parser Statement} (h : Gives P parser)
    (himp : forall found, P found -> Q found) : Gives Q parser :=
  fun c found d hfound => himp found (h c found d hfound)

theorem nested {parser : Parser Statement} (h : Gives P parser) : Gives P (nested parser) := by
  intro c found d hfound
  rcases nested_eq_ok hfound with ⟨e, _, hparser, _⟩
  exact h _ found e hparser

end Gives

section Definitions

variable {start : Span} {header : Header}

theorem typeDefinition_header {head : DefinitionHead} :
    Gives (fun found => found.header? = some header)
      (typeDefinition level start header head) := by
  apply Gives.bind
  intro _
  apply Gives.bind
  intro braced
  split
  · exact Gives.bind (fun body => Gives.last (fun span => rfl))
  · exact Gives.bind (fun body => Gives.last (fun span => rfl))

theorem traitDefinition_header {head : DefinitionHead} :
    Gives (fun found => found.header? = some header)
      (traitDefinition level start header head) := by
  apply Gives.bind
  intro _
  apply Gives.bind
  intro typed
  have hlast : forall type, Gives (fun found => found.header? = some header)
      (whereClause level >>= fun clause => spanFrom start >>= fun span =>
        pure (.traitDefinition header head.name head.parameters type clause span)) :=
    fun type => Gives.bind (fun clause => Gives.last (fun span => rfl))
  split
  · exact Gives.bind hlast
  · exact Gives.bind hlast

theorem constantDefinition_header :
    Gives (fun found => found.header? = some header)
      (constantDefinition level start header) := by
  iterate 4
    apply Gives.bind
    intro _
  exact Gives.last (fun span => rfl)

theorem instanceDefinition_header :
    Gives (fun found => found.header? = some header)
      (instanceDefinition level start header) := by
  iterate 8
    apply Gives.bind
    intro _
  exact Gives.last (fun span => rfl)

def HeadedBy (comments : List Lexeme) : Parser Statement -> Prop :=
  Gives (fun found =>
    forall header, found.header? = some header -> header.comments = comments)

theorem HeadedBy.ofHeader {parser : Parser Statement}
    (h : Gives (fun found => found.header? = some header) parser) :
    HeadedBy header.comments parser := by
  refine Gives.mono h ?_
  intro found hheader other hother
  rw [hheader] at hother
  cases hother
  rfl

theorem plainStatement_headed :
    HeadedBy header.comments (plainStatement level start header) := by
  apply Gives.bind
  intro constant
  split
  · exact HeadedBy.ofHeader constantDefinition_header
  · split
    · apply Gives.bind
      intro pattern
      cases pattern with
      | some pattern =>
          iterate 2
            apply Gives.bind
            intro _
          apply Gives.last
          rintro _ _ ⟨⟩
      | none =>
          apply Gives.bind
          intro _
          apply Gives.last
          rintro _ _ ⟨⟩
    · intro c found d hfound
      cases hfound

end Definitions

theorem statement_headed : HeadedBy comments (statement level comments) := by
  apply Gives.bind
  intro start
  apply Gives.bind
  intro attributes
  apply Gives.bind
  intro isInstance
  split
  · exact HeadedBy.ofHeader instanceDefinition_header
  · apply Gives.bind
    intro head
    cases head with
    | none => exact plainStatement_headed
    | some head =>
        apply Gives.bind
        intro isType
        split
        · exact HeadedBy.ofHeader typeDefinition_header
        · exact HeadedBy.ofHeader traitDefinition_header

theorem headed_ofRoom (room : Nat) (comments : List Lexeme) :
    HeadedBy comments ((Level.ofRoom room).statement comments) := by
  cases room with
  | zero =>
      intro c found d hfound
      cases hfound
  | succ room => exact Gives.nested statement_headed

theorem recovering_headed {room : Nat} :
    HeadedBy comments
      (recovering terminator (statementLine (Level.ofRoom room) terminator comments)) := by
  intro c found d h header hheader
  rcases recovering_eq_ok h with hline | ⟨diagnostic, e, _, hgiven⟩
  · exact headed_ofRoom room comments c found d (statementLine_eq_ok hline).1 header hheader
  · cases hgiven
    cases hheader

end Grammar

end Linewise
