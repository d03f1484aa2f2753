import Linewise.Proofs.Placement.Block
import Linewise.Proofs.Placement.Pattern

/-!
# Expressions in their places

The nodes of expressions sit in the tokens that were read for them.  Operators with
their right operands are joined to what stands in front of them, each time into one
node.
-/

namespace Linewise

namespace Expression

theorem nodes_eq_flatMap (expressions : List Expression) :
    nodes expressions = expressions.flatMap (fun expression => [expression.node]) := by
  induction expressions with
  | nil => rfl
  | cons expression rest ih => rw [nodes, ih, List.flatMap_cons, List.singleton_append]

theorem armNodes_eq_flatMap (arms : List (Entry Pattern Expression)) :
    armNodes arms = arms.flatMap (fun arm => armNodes [arm]) := by
  induction arms with
  | nil => rfl
  | cons arm rest ih =>
      rw [List.flatMap_cons, ← ih]
      rfl

end Expression

namespace Grammar

open Linewise.Parser
open Linewise.Places

variable {text : List Token} {level : Level} {c : Cursor} {solid : Bool}

/-!
## Sequences
-/

theorem sequenceOf_builds (separator : Kind) (elements : List Expression)
    (hsolid : solid = true ∨ Expression.nodes elements ≠ []) :
    Builds text c solid (Expression.nodes elements)
      (spanFrom c.current.span >>= fun span => pure (sequenceOf separator elements span))
      (fun expression => [expression.node]) := by
  unfold sequenceOf
  split
  · exact Builds.branch hsolid (fun _ => rfl)
  · exact Builds.branch hsolid (fun _ => rfl)

theorem nextElement_places (hlevel : level.Places text) (separator : Kind) :
    Places text false (nextElement level separator) (fun expression => [expression.node]) := by
  apply Places.look
  intro kind
  split
  · exact elementBehind_places (hlevel.expression 0)
  · intro c value d _ hvalue
    cases hvalue

theorem expression_places (hlevel : level.Places text) :
    Places text false (expression level) (fun expression => [expression.node]) := by
  apply start
  intro c
  apply Builds.bind (hlevel.expression 0)
  intro first
  apply Builds.look
  intro separator
  split
  · apply Builds.bind (repeatWhile (nextElement_places hlevel separator))
    intro rest
    rw [← Expression.nodes_eq_flatMap]
    exact sequenceOf_builds separator (first :: rest) (Or.inr (List.cons_ne_nil _ _))
  · exact Builds.give rfl

/-!
## Subexpressions
-/

theorem placeholderExpression_places :
    Places text false placeholderExpression (fun expression => [expression.node]) :=
  ofMark (fun _ => rfl)

theorem variableExpression_places :
    Places text false variableExpression (fun expression => [expression.node]) :=
  around (lexeme rfl _ (Node.bare_marks .variableName)) (fun _ => rfl)

theorem typeNameExpression_places :
    Places text false typeNameExpression (fun expression => [expression.node]) :=
  around (lexeme rfl _ (Node.bare_marks .typeName)) (fun _ => rfl)

theorem numberExpression_places :
    Places text false numberExpression (fun expression => [expression.node]) :=
  around (lexeme rfl _ (Node.bare_marks .number)) (fun _ => rfl)

theorem textExpression_places :
    Places text false textExpression (fun expression => [expression.node]) :=
  around (quotedText (Node.bare_marks .text)) (fun _ => rfl)

theorem parenthesizedExpression_places (hlevel : level.Places text) :
    Places text false (parenthesizedExpression level) (fun expression => [expression.node]) := by
  apply start
  intro c
  apply Builds.bind (enclosed (hlevel.expression 0))
  intro form
  cases form with
  | unit => exact Builds.branch (Or.inl rfl) (fun _ => rfl)
  | group expression =>
      apply Builds.look
      intro span
      exact Builds.give rfl
  | sequence separator elements =>
      rw [ofEnclosed, ← Expression.nodes_eq_flatMap]
      exact sequenceOf_builds separator elements (Or.inl rfl)

theorem subexpression_places (hlevel : level.Places text) :
    Places text false (subexpression level) (fun expression => [expression.node]) := by
  apply Places.look
  intro kind
  split
  · exact placeholderExpression_places
  · exact variableExpression_places
  · exact typeNameExpression_places
  · exact numberExpression_places
  · exact textExpression_places
  · exact (bracedExpression_places hlevel).weaken
  · exact parenthesizedExpression_places hlevel
  · exact Places.unexpected _

theorem inputs_places (hlevel : level.Places text) :
    Places text false (inputs level) Expression.nodes := by
  intro c expressions d hc hexpressions
  rw [Expression.nodes_eq_flatMap]
  exact repeatWhile (subexpression_places hlevel) c expressions d hc hexpressions

/-!
## Operands
-/

theorem performExpression_builds (hlevel : level.Places text) :
    Builds text c false [] (performExpression level c.current.span)
      (fun expression => [expression.node]) := by
  apply Builds.pass advance
  intro _
  apply Builds.bind (subexpression_places hlevel)
  intro input
  exact Builds.branch (Or.inr (List.cons_ne_nil _ _)) (fun _ => rfl)

theorem arm_places (hlevel : level.Places text) :
    Places text false (arm level) (fun arm => Expression.armNodes [arm]) := by
  apply start
  intro c
  apply Builds.bind (pattern_places hlevel)
  intro pattern
  apply Builds.pass (expectMark .arrow)
  intro _
  apply Builds.pass skipLineBreaks
  intro _
  apply Builds.bind (expression_places hlevel)
  intro value
  exact Builds.branch (Or.inr (List.cons_ne_nil _ _)) (fun _ => rfl)

theorem whenExpression_places (hlevel : level.Places text) :
    Places text true (whenExpression level) (fun expression => [expression.node]) := by
  apply opening rfl
  intro c
  apply Builds.bind (subexpression_places hlevel)
  intro input
  apply Builds.pass (expectMark .openCurly)
  intro _
  apply Builds.bind (lines (arm_places hlevel))
  intro arms
  apply Builds.pass (expectMark .closeCurly)
  intro _
  rw [← Expression.armNodes_eq_flatMap]
  exact Builds.branch (Or.inl rfl) (fun _ => rfl)

theorem intrinsicExpression_builds (hlevel : level.Places text) :
    Builds text c false [] (intrinsicExpression level c.current.span)
      (fun expression => [expression.node]) := by
  apply Builds.pass advance
  intro _
  apply Builds.bind (quotedText (Node.bare_marks .text))
  intro name
  apply Builds.bind (inputs_places hlevel)
  intro inputs
  exact Builds.branch (Or.inr (List.cons_ne_nil _ _)) (fun _ => rfl)

theorem callExpression_builds (hlevel : level.Places text) :
    Builds text c false [] (callExpression level c.current.span)
      (fun expression => [expression.node]) := by
  apply Builds.look
  intro textHead
  apply Builds.bind (subexpression_places hlevel)
  intro head
  apply Builds.look
  intro more
  split
  · apply Builds.bind (inputs_places hlevel)
    intro inputs
    unfold applied
    split
    · rename_i literal
      -- The text is all that is left of the head.
      have hinner : Becomes text (Expression.text literal).node (.bare .text literal) :=
        Becomes.within List.mem_cons_self rfl rfl
      apply Builds.restate (.cons hinner (Becomes.all _))
      exact Builds.branch (Or.inr (List.cons_ne_nil _ _)) (fun _ => rfl)
    · exact Builds.branch (Or.inr (List.cons_ne_nil _ _)) (fun _ => rfl)
  · exact Builds.give rfl

theorem operand_places (hlevel : level.Places text) :
    Places text false (operand level) (fun expression => [expression.node]) := by
  apply start
  intro c
  apply Builds.look
  intro kind
  split
  · exact performExpression_builds hlevel
  · exact Builds.last (whenExpression_places hlevel)
  · exact intrinsicExpression_builds hlevel
  · exact callExpression_builds hlevel

/-!
## Function literals
-/

theorem functionInputs_places (hlevel : level.Places text) :
    Places text false (functionInputs level) Pattern.nodes := by
  apply ofBuilds
  intro c
  apply Builds.bind (subpattern_places hlevel)
  intro first
  apply Builds.bind (subpatterns_places hlevel)
  intro rest
  apply Builds.pass (expectMark .arrow)
  intro _
  exact Builds.give rfl

theorem functionLiteral_places (hlevel : level.Places text) :
    Places text false (functionLiteral level) (ofOption (fun expression => [expression.node])) := by
  apply start
  intro c
  apply Builds.look
  intro worthTrying
  apply Builds.optional
    (speculate (functionInputs_reads hlevel.keeps) (functionInputs_places hlevel))
  intro inputs
  cases inputs with
  | none => exact Builds.give rfl
  | some inputs =>
      apply Builds.pass skipLineBreaks
      intro _
      apply Builds.bind (hlevel.expression 0)
      intro output
      exact Builds.branch (Or.inr (by simp)) (fun _ => rfl)

/-!
## Operators
-/

theorem rightOperand_places (hlevel : level.Places text) (operator : Operator) :
    Places text false (rightOperand level operator) (fun operand => [operand.node]) := by
  unfold rightOperand
  split
  all_goals
    apply ofBuilds
    intro c
  · apply Builds.bind (hlevel.expression _)
    intro expression
    exact Builds.giveAs (.cons (Becomes.around rfl rfl rfl) .nil)
  · apply Builds.bind hlevel.type
    intro type
    exact Builds.giveAs (.cons (Becomes.around rfl rfl rfl) .nil)
  · apply Builds.bind (patternOperand_places hlevel)
    intro pattern
    exact Builds.giveAs (.cons (Becomes.around rfl rfl rfl) .nil)

theorem continuation_builds (hlevel : level.Places text) (left : Expression) :
    Builds text c solid [left.node] (continuation level c.current.span)
      (fun next => [(Expression.binary next.operator left next.right next.span).node]) := by
  apply Builds.pass advance
  intro token
  apply Builds.pass skipLineBreaks
  intro _
  split
  · apply Builds.bind (rightOperand_places hlevel _)
    intro right
    apply Builds.branch (Or.inr (List.cons_ne_nil _ _))
    intro span
    simp only [Expression.node]
    rfl
  · exact Builds.unexpected _ _

theorem binaryExpression_places (hlevel : level.Places text) (least : Nat) :
    Places text false (binaryExpression level least) (fun expression => [expression.node]) := by
  apply start
  intro c
  apply Builds.bind (functionLiteral_places hlevel)
  intro function
  cases function with
  | some function => exact Builds.give rfl
  | none =>
      apply Builds.bind (operand_places hlevel)
      intro first
      apply Builds.follow (foldWhile (continuation_builds hlevel) first)
      intro rest
      exact Builds.give rfl

end Grammar
end Linewise
