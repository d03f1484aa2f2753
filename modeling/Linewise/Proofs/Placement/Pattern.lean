import Linewise.Proofs.Placement.Type

/-!
# Patterns in their places

The nodes of patterns sit in the tokens that were read for them.  Alternatives are
joined to what stands in front of them, each time into one node.
-/

namespace Linewise

namespace Pattern

theorem nodes_eq_flatMap (patterns : List Pattern) :
    nodes patterns = patterns.flatMap (fun pattern => [pattern.node]) := by
  induction patterns with
  | nil => rfl
  | cons pattern rest ih => rw [nodes, ih, List.flatMap_cons, List.singleton_append]

theorem fieldNodes_eq_flatMap (fields : List (Entry Lexeme Pattern)) :
    fieldNodes fields = fields.flatMap (fun field => fieldNodes [field]) := by
  induction fields with
  | nil => rfl
  | cons field rest ih =>
      rw [List.flatMap_cons, ← ih]
      rfl

end Pattern

namespace Grammar

open Linewise.Parser
open Linewise.Places

variable {text : List Token} {level : Level}

/-!
## Tuples
-/

theorem elementBehind_places {α : Type} {element : Parser α} {nodes : α -> List Node}
    (h : Places text false element nodes) : Places text false (elementBehind element) nodes := by
  apply ofBuilds
  intro c
  apply Builds.pass advance
  intro _
  exact Builds.last h

theorem pattern_places (hlevel : level.Places text) :
    Places text false (pattern level) (fun pattern => [pattern.node]) := by
  apply start
  intro c
  apply Builds.bind hlevel.pattern
  intro first
  apply Builds.bind (repeatWhile (elementBehind_places hlevel.pattern))
  intro rest
  split
  · exact Builds.giveLeft rfl
  · rw [← Pattern.nodes_eq_flatMap]
    exact Builds.branch (Or.inr (List.cons_ne_nil _ _)) (fun _ => rfl)

/-!
## Subpatterns
-/

theorem wildcardPattern_places :
    Places text false wildcardPattern (fun pattern => [pattern.node]) := ofMark (fun _ => rfl)

theorem variablePattern_places :
    Places text false variablePattern (fun pattern => [pattern.node]) :=
  around (lexeme rfl _ (Node.bare_marks .variableName)) (fun _ => rfl)

theorem numberPattern_places :
    Places text false numberPattern (fun pattern => [pattern.node]) :=
  around (lexeme rfl _ (Node.bare_marks .number)) (fun _ => rfl)

theorem textPattern_places : Places text false textPattern (fun pattern => [pattern.node]) :=
  around (quotedText (Node.bare_marks .text)) (fun _ => rfl)

theorem destructureField_places (hlevel : level.Places text) :
    Places text false (destructureField level) (fun field => Pattern.fieldNodes [field]) := by
  apply start
  intro c
  apply Builds.bind (lexeme rfl _ (Node.leaf_marks .variableName (by decide)))
  intro name
  apply Builds.pass (expectMark .colon)
  intro _
  apply Builds.pass skipLineBreaks
  intro _
  apply Builds.bind (pattern_places hlevel)
  intro value
  exact Builds.branch (Or.inr (List.cons_ne_nil _ _)) (fun _ => rfl)

theorem destructurePattern_places (hlevel : level.Places text) :
    Places text true (destructurePattern level) (fun pattern => [pattern.node]) := by
  apply opening rfl
  intro c
  apply Builds.bind (lines (destructureField_places hlevel))
  intro fields
  split
  · exact Builds.unexpected _ _
  · apply Builds.pass (expectMark .closeCurly)
    intro _
    rw [← Pattern.fieldNodes_eq_flatMap]
    exact Builds.branch (Or.inl rfl) (fun _ => rfl)

theorem enclosedPattern_builds {c : Cursor} (form : Enclosed Pattern) :
    Builds text c true (ofEnclosed (fun pattern => [pattern.node]) form)
      (enclosedPattern c.current.span form) (fun pattern => [pattern.node]) := by
  cases form with
  | unit => exact Builds.branch (Or.inl rfl) (fun _ => rfl)
  | group pattern =>
      apply Builds.look
      intro span
      exact Builds.give rfl
  | sequence separator elements =>
      rw [ofEnclosed, ← Pattern.nodes_eq_flatMap]
      exact Builds.branch (Or.inl rfl) (fun _ => rfl)

theorem parenthesizedPattern_places (hlevel : level.Places text) :
    Places text false (parenthesizedPattern level) (fun pattern => [pattern.node]) := by
  apply start
  intro c
  apply Builds.look
  intro plain
  split
  · apply Builds.bind (enclosed hlevel.pattern)
    intro form
    exact enclosedPattern_builds form
  · apply Builds.pass (expectMark .openParen)
    intro _
    apply Builds.bind hlevel.pattern
    intro first
    apply Builds.look
    intro annotated
    split
    · apply Builds.pass advance
      intro _
      apply Builds.pass skipLineBreaks
      intro _
      apply Builds.bind hlevel.type
      intro type
      apply Builds.pass (expectMark .closeParen)
      intro _
      exact Builds.branch (Or.inl rfl) (fun _ => rfl)
    · apply Builds.follow (enclosedRest hlevel.pattern first false)
      intro form
      exact enclosedPattern_builds form

theorem subpattern_places (hlevel : level.Places text) :
    Places text false (subpattern level) (fun pattern => [pattern.node]) := by
  apply Places.look
  intro kind
  split
  · exact wildcardPattern_places
  · exact variablePattern_places
  · exact numberPattern_places
  · exact textPattern_places
  · exact (destructurePattern_places hlevel).weaken
  · exact parenthesizedPattern_places hlevel
  · exact Places.unexpected _

theorem subpatterns_places (hlevel : level.Places text) :
    Places text false (subpatterns level) Pattern.nodes := by
  intro c patterns d hc hpatterns
  rw [Pattern.nodes_eq_flatMap]
  exact repeatWhile (subpattern_places hlevel) c patterns d hc hpatterns

/-!
## Pattern elements
-/

theorem patternOperand_places (hlevel : level.Places text) :
    Places text false (patternOperand level) (fun pattern => [pattern.node]) := by
  apply start
  intro c
  apply Builds.look
  intro kind
  split
  · apply Builds.pass advance
    intro _
    apply Builds.bind (lexeme rfl _ (Node.bare_marks .variableName))
    intro name
    exact Builds.branch (Or.inr (List.cons_ne_nil _ _)) (fun _ => rfl)
  · apply Builds.bind (lexeme rfl _ (Node.bare_marks .variantName))
    intro name
    apply Builds.bind (subpatterns_places hlevel)
    intro elements
    exact Builds.branch (Or.inr (List.cons_ne_nil _ _)) (fun _ => rfl)
  · exact Builds.last (subpattern_places hlevel)

theorem alternative_builds (hlevel : level.Places text) {c : Cursor} {solid : Bool}
    (left : Pattern) :
    Builds text c solid [left.node] (alternative level c.current.span)
      (fun next => [(Pattern.or left next.1 next.2).node]) := by
  apply Builds.pass advance
  intro _
  apply Builds.pass skipLineBreaks
  intro _
  apply Builds.bind (patternOperand_places hlevel)
  intro right
  exact Builds.branch (Or.inr (List.cons_ne_nil _ _)) (fun _ => rfl)

theorem orPattern_places (hlevel : level.Places text) :
    Places text false (orPattern level) (fun pattern => [pattern.node]) := by
  apply start
  intro c
  apply Builds.bind (patternOperand_places hlevel)
  intro first
  apply Builds.follow (foldWhile (alternative_builds hlevel) first)
  intro rest
  exact Builds.give rfl

end Grammar
end Linewise
