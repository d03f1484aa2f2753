import Linewise.Proofs.Extent
import Linewise.Tree.View
import Mathlib.Data.List.Forall2

/-!
# Nodes in their places

A node sits in the tokens that were read for it: it starts with one of them and stops
with one, its children stand inside of it one behind the other, and the same holds of
all nodes below it.  Nodes that were read one behind the other make a row.
-/

namespace Linewise

structure Span.Precedes (first second : Span) : Prop where
  start_lt : first.start < second.start
  stop_le : first.stop <= second.start

namespace Node

def children : Node -> List Node
  | .leaf _ _ => []
  | .bare _ _ => []
  | .branch _ _ children => children
  | .group _ _ children => children

def isComment : Node -> Bool
  | .leaf .comment _ => true
  | _ => false

mutual

def subtrees : Node -> List Node
  | .leaf kind lexeme => [.leaf kind lexeme]
  | .bare kind lexeme => [.bare kind lexeme]
  | .branch tag span children => .branch tag span children :: subtreesOf children
  | .group tag span children => .group tag span children :: subtreesOf children

def subtreesOf : List Node -> List Node
  | [] => []
  | node :: rest => subtrees node ++ subtreesOf rest

end

theorem subtreesOf_eq_flatMap (nodes : List Node) :
    subtreesOf nodes = nodes.flatMap subtrees := by
  induction nodes with
  | nil => rfl
  | cons node rest ih => rw [subtreesOf, ih, List.flatMap_cons]

theorem subtrees_eq (node : Node) : node.subtrees = node :: node.children.flatMap subtrees := by
  cases node with
  | leaf kind lexeme => rw [subtrees, children, List.flatMap_nil]
  | bare kind lexeme => rw [subtrees, children, List.flatMap_nil]
  | branch tag span children => rw [subtrees, subtreesOf_eq_flatMap, Node.children]
  | group tag span children => rw [subtrees, subtreesOf_eq_flatMap, Node.children]

theorem mem_subtrees_self (node : Node) : node ∈ node.subtrees := by
  rw [subtrees_eq]
  exact List.mem_cons_self

/-!
## One node
-/

structure Placed (text : List Token) (node : Node) : Prop where
  nonempty : node.span.start < node.span.stop
  begins : exists t, t ∈ text ∧ node.span.start = t.span.start
  ends : exists t, t ∈ text ∧ node.span.stop = t.span.stop

theorem Placed.ofSpan {text : List Token} {node node' : Node} (h : node.Placed text)
    (hspan : node'.span = node.span) : node'.Placed text := by
  rcases h with ⟨hnonempty, hbegins, hends⟩
  rw [← hspan] at hnonempty hbegins hends
  exact ⟨hnonempty, hbegins, hends⟩

/-- The children stand inside of the node one behind the other, and comments stand in
front of it. -/
structure Nests (node : Node) : Prop where
  contains : forall child, child ∈ node.children -> child.isComment = false ->
    node.span.Contains child.span
  above : forall child, child ∈ node.children -> child.isComment = true ->
    child.span.stop <= node.span.start
  apart : node.children.Pairwise (fun first second => first.span.Precedes second.span)

theorem Nests.childless {node : Node} (h : node.children = []) : node.Nests where
  contains := by simp [h]
  above := by simp [h]
  apart := by simp [h]

theorem Nests.ofSpans {node node' : Node} (h : node.Nests) (hspan : node'.span = node.span)
    (hchildren : node'.children.map (fun child => (child.span, child.isComment)) =
      node.children.map (fun child => (child.span, child.isComment))) : node'.Nests := by
  have hlike : forall child', child' ∈ node'.children -> exists child, child ∈ node.children ∧
      child.span = child'.span ∧ child.isComment = child'.isComment := by
    intro child' hchild'
    have hmem := List.mem_map_of_mem (f := fun child => (child.span, child.isComment)) hchild'
    rw [hchildren] at hmem
    rcases List.mem_map.mp hmem with ⟨child, hchild, hsame⟩
    exact ⟨child, hchild, Prod.mk.inj hsame⟩
  constructor
  · intro child' hchild' hplain
    rcases hlike child' hchild' with ⟨child, hchild, hsame, hcomment⟩
    rw [hspan, ← hsame]
    exact h.contains child hchild (hcomment.trans hplain)
  · intro child' hchild' hcomment'
    rcases hlike child' hchild' with ⟨child, hchild, hsame, hcomment⟩
    rw [hspan, ← hsame]
    exact h.above child hchild (hcomment.trans hcomment')
  · have hspans := congrArg (List.map Prod.fst) hchildren
    simp only [List.map_map, Function.comp_def] at hspans
    have hapart := List.pairwise_map.mpr h.apart
    rw [← hspans] at hapart
    exact List.pairwise_map.mp hapart

structure Marks {α : Type} (span : α -> Span) (make : α -> Node) : Prop where
  span : forall value, (make value).span = span value
  children : forall value, (make value).children = []
  plain : forall value, (make value).isComment = false

theorem bare_marks (kind : LeafKind) : Marks Lexeme.span (Node.bare kind) :=
  ⟨fun _ => rfl, fun _ => rfl, fun _ => rfl⟩

theorem leaf_marks (kind : LeafKind) (h : kind ≠ .comment) :
    Marks Lexeme.span (Node.leaf kind) where
  span := fun _ => rfl
  children := fun _ => rfl
  plain := by
    intro lexeme
    cases kind with
    | comment => exact absurd rfl h
    | _ => rfl

def Orderly (text : List Token) (node : Node) : Prop :=
  forall n, n ∈ node.subtrees -> n.Placed text ∧ n.Nests

namespace Orderly

variable {text : List Token} {node : Node}

theorem placed (h : node.Orderly text) : node.Placed text := (h node node.mem_subtrees_self).1

theorem nests (h : node.Orderly text) : node.Nests := (h node node.mem_subtrees_self).2

theorem intro (hplaced : node.Placed text) (hnests : node.Nests)
    (hchildren : forall child, child ∈ node.children -> child.Orderly text) :
    node.Orderly text := by
  intro n hn
  rw [subtrees_eq] at hn
  rcases List.mem_cons.mp hn with hself | hbelow
  · rw [hself]
    exact ⟨hplaced, hnests⟩
  · rcases List.mem_flatMap.mp hbelow with ⟨child, hchild, hn⟩
    exact hchildren child hchild n hn

theorem child (h : node.Orderly text) {child : Node} (hchild : child ∈ node.children) :
    child.Orderly text := by
  intro n hn
  apply h n
  rw [subtrees_eq]
  exact List.mem_cons_of_mem _ (List.mem_flatMap.mpr ⟨child, hchild, hn⟩)

end Orderly
end Node

structure Sits (text tokens : List Token) (node : Node) : Prop where
  stands : Stands tokens node.span
  plain : node.isComment = false
  orderly : node.Orderly text

namespace Sits

variable {text tokens tokens' : List Token} {node inner : Node}

theorem mono (h : Sits text tokens node) (hsub : forall t, t ∈ tokens -> t ∈ tokens') :
    Sits text tokens' node :=
  ⟨h.stands.mono hsub, h.plain, h.orderly⟩

theorem token {t : Token} (ht : t ∈ tokens) (htext : t ∈ text)
    (htrivia : Cursor.isTrivia t = false) (hnonempty : t.span.start < t.span.stop)
    (hspan : node.span = t.span) (hchildren : node.children = [])
    (hplain : node.isComment = false) : Sits text tokens node where
  stands := by
    rw [hspan]
    exact ⟨⟨t, ht, Cursor.isComment_of_not_isTrivia htrivia, rfl⟩, ⟨t, ht, htrivia, rfl⟩⟩
  plain := hplain
  orderly := by
    apply Node.Orderly.intro _ (Node.Nests.childless hchildren) (by simp [hchildren])
    rw [← hspan] at hnonempty
    exact ⟨hnonempty, ⟨t, htext, by rw [hspan]⟩, ⟨t, htext, by rw [hspan]⟩⟩

theorem around (h : Sits text tokens inner) (hspan : node.span = inner.span)
    (hchildren : node.children = [inner]) (hplain : node.isComment = false) :
    Sits text tokens node where
  stands := by
    rw [hspan]
    exact h.stands
  plain := hplain
  orderly := by
    apply Node.Orderly.intro (h.orderly.placed.ofSpan hspan)
    · constructor
      · intro child hchild _
        rw [hchildren] at hchild
        rw [List.mem_singleton.mp hchild, hspan]
        exact ⟨Nat.le_refl _, Nat.le_refl _⟩
      · intro child hchild hcomment
        rw [hchildren] at hchild
        rw [List.mem_singleton.mp hchild, h.plain] at hcomment
        cases hcomment
      · simp [hchildren]
    · intro child hchild
      rw [hchildren] at hchild
      rw [List.mem_singleton.mp hchild]
      exact h.orderly

theorem within (h : Sits text tokens node) (hchild : inner ∈ node.children)
    (hspan : inner.span = node.span) (hplain : inner.isComment = false) :
    Sits text tokens inner where
  stands := by
    rw [hspan]
    exact h.stands
  plain := hplain
  orderly := h.orderly.child hchild

end Sits

def Becomes (text : List Token) (node node' : Node) : Prop :=
  forall tokens, Sits text tokens node -> Sits text tokens node'

namespace Becomes

variable {text : List Token} {node inner : Node}

theorem refl (node : Node) : Becomes text node node := fun _ h => h

theorem all (nodes : List Node) : List.Forall₂ (Becomes text) nodes nodes :=
  List.forall₂_same.mpr (fun node _ => refl node)

theorem around (hspan : node.span = inner.span) (hchildren : node.children = [inner])
    (hplain : node.isComment = false) : Becomes text inner node :=
  fun _ h => h.around hspan hchildren hplain

theorem within (hchild : inner ∈ node.children) (hspan : inner.span = node.span)
    (hplain : inner.isComment = false) : Becomes text node inner :=
  fun _ h => h.within hchild hspan hplain

end Becomes

/-!
## Rows of nodes
-/

inductive Row (text : List Token) : List Token -> List Node -> Prop where
  | nil {read : List Token} : Row text read []
  | cons {piece rest : List Token} {node : Node} {others : List Node} :
      Sits text piece node -> Row text rest others -> Row text (piece ++ rest) (node :: others)

namespace Row

variable {text read read' : List Token} {node node' : Node} {nodes nodes' : List Node}

theorem behind (h : Row text read nodes) (front : List Token) :
    Row text (front ++ read) nodes := by
  cases h with
  | nil => exact nil
  | cons hnode hothers =>
      rw [← List.append_assoc]
      exact cons (hnode.mono (fun t ht => List.mem_append_right front ht)) hothers

theorem append (first : Row text read nodes) (second : Row text read' nodes') :
    Row text (read ++ read') (nodes ++ nodes') := by
  induction first with
  | nil => exact second.behind _
  | cons hnode _ ih =>
      rw [List.append_assoc]
      exact cons hnode ih

theorem single (h : Sits text read node) : Row text read [node] := by
  have hone : Row text (read ++ []) [node] := cons h nil
  rwa [List.append_nil] at hone

theorem sits (h : Row text read nodes) (hnode : node ∈ nodes) : Sits text read node := by
  induction h with
  | nil => cases hnode
  | cons hfirst _ ih =>
      rcases List.mem_cons.mp hnode with hself | hlater
      · rw [hself]
        exact hfirst.mono (by simp +contextual)
      · exact (ih hlater).mono (by simp +contextual)

theorem solid (h : Row text read nodes) (hne : nodes ≠ []) :
    exists t, t ∈ read ∧ Cursor.isTrivia t = false := by
  rcases List.exists_mem_of_ne_nil nodes hne with ⟨node, hnode⟩
  rcases (h.sits hnode).stands.ends with ⟨final, hfinal, htrivia, _⟩
  exact ⟨final, hfinal, htrivia⟩

theorem apart (h : Row text read nodes) (hordered : Token.Ordered read) :
    nodes.Pairwise (fun first second => first.span.Precedes second.span) := by
  induction h with
  | nil => exact List.Pairwise.nil
  | cons hnode hothers ih =>
      refine List.Pairwise.cons ?_ (ih hordered.right)
      intro later hlater
      rcases hnode.stands.ends with ⟨final, hfinal, _, hstop⟩
      rcases (hothers.sits hlater).stands.begins with ⟨first, hfirst, _, hstart⟩
      have hnonempty := hnode.orderly.placed.nonempty
      have hbehind := hordered.across hfinal hfirst
      rw [← hstop, ← hstart] at hbehind
      exact ⟨by omega, hbehind⟩

theorem leftOf (h : Row text read (nodes ++ nodes')) : Row text read nodes := by
  induction nodes generalizing read with
  | nil => exact nil
  | cons first rest ih =>
      cases h with
      | cons hnode hothers => exact cons hnode (ih hothers)

theorem restate (h : Row text read nodes)
    (hnodes : List.Forall₂ (Becomes text) nodes nodes') : Row text read nodes' := by
  induction h generalizing nodes' with
  | nil =>
      cases hnodes
      exact nil
  | cons hnode _ ih =>
      cases hnodes with
      | cons hfirst hothers => exact cons (hfirst _ hnode) (ih hothers)

end Row

/-!
## Nodes around rows
-/

structure Above (text : List Token) (place : Nat) (comments : List Lexeme) : Prop where
  placed : forall comment, comment ∈ comments -> (Node.leaf .comment comment).Placed text
  above : forall comment, comment ∈ comments -> comment.span.stop <= place
  apart : comments.Pairwise (fun first second => first.span.Precedes second.span)

theorem Above.none (text : List Token) (place : Nat) : Above text place [] where
  placed := by simp
  above := by simp
  apart := by simp

theorem Sits.ofRow {text read : List Token} {node : Node} {children : List Node}
    {comments : List Lexeme} (hordered : Token.Ordered read)
    (htext : forall t, t ∈ read -> t ∈ text) (hrow : Row text read children)
    (hextent : Extent read node.span) (hcomments : Above text node.span.start comments)
    (hchildren : node.children = comments.map (Node.leaf .comment) ++ children)
    (hplain : node.isComment = false) : Sits text read node where
  stands := hextent.toStands
  plain := hplain
  orderly := by
    have hcases : forall child, child ∈ node.children ->
        (exists comment, comment ∈ comments ∧ child = .leaf .comment comment) ∨
          child ∈ children := by
      intro child hchild
      rw [hchildren] at hchild
      rcases List.mem_append.mp hchild with hcomment | hinner
      · rcases List.mem_map.mp hcomment with ⟨comment, hmem, hself⟩
        exact Or.inl ⟨comment, hmem, hself.symm⟩
      · exact Or.inr hinner
    apply Node.Orderly.intro
    · rcases hextent.begins with ⟨first, hfirst, _, hstart⟩
      rcases hextent.ends with ⟨final, hfinal, _, hstop⟩
      exact ⟨hextent.nonempty hordered, ⟨first, htext first hfirst, hstart⟩,
        ⟨final, htext final hfinal, hstop⟩⟩
    · constructor
      · intro child hchild hinside
        rcases hcases child hchild with ⟨comment, _, rfl⟩ | hinner
        · cases hinside
        · exact hextent.contains (hrow.sits hinner).stands
      · intro child hchild hcomment
        rcases hcases child hchild with ⟨comment, hmem, rfl⟩ | hinner
        · exact hcomments.above comment hmem
        · rw [(hrow.sits hinner).plain] at hcomment
          cases hcomment
      · rw [hchildren]
        apply List.pairwise_append.mpr
        refine ⟨List.pairwise_map.mpr hcomments.apart, hrow.apart hordered, ?_⟩
        intro above habove child hchild
        rcases List.mem_map.mp habove with ⟨comment, hmem, rfl⟩
        have hbegins := (hextent.contains (hrow.sits hchild).stands).1
        have hends := hcomments.above comment hmem
        have hnonempty : comment.span.start < comment.span.stop :=
          (hcomments.placed comment hmem).nonempty
        have hbehind : comment.span.stop <= child.span.start := Nat.le_trans hends hbegins
        exact ⟨Nat.lt_of_lt_of_le hnonempty hbehind, hbehind⟩
    · intro child hchild
      rcases hcases child hchild with ⟨comment, hmem, rfl⟩ | hinner
      · exact Node.Orderly.intro (hcomments.placed comment hmem) (Node.Nests.childless rfl)
          (by simp [Node.children])
      · exact (hrow.sits hinner).orderly

end Linewise
