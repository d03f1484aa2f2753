import Linewise.Proofs.Placement.Combinator

/-!
# Types in their places

The nodes of types, constraints and signatures sit in the tokens that were read for
them.
-/

namespace Linewise

/-- At this level every rule places the node of its value.  A statement stands below
its comments. -/
structure Level.Places (text : List Token) (level : Level) : Prop where
  keeps : level.Keeps plainRecovery.toAccount
  type : Linewise.Places text false level.type (fun type => [type.node])
  pattern : Linewise.Places text false level.pattern (fun pattern => [pattern.node])
  expression : forall least,
    Linewise.Places text false (level.expression least) (fun expression => [expression.node])
  statement : forall comments c found d, c.Within text ->
    Above text c.current.span.start comments -> level.statement comments c = .ok found d ->
    Reached text c false [found.node] d

theorem TypeExpr.nodes_eq_flatMap (types : List TypeExpr) :
    TypeExpr.nodes types = types.flatMap (fun type => [type.node]) := by
  induction types with
  | nil => rfl
  | cons type rest ih => rw [TypeExpr.nodes, ih, List.flatMap_cons, List.singleton_append]

namespace Grammar

open Linewise.Parser
open Linewise.Places

variable {text : List Token} {level : Level}

/-!
## Subtypes
-/

theorem placeholderType_places :
    Places text false placeholderType (fun type => [type.node]) := ofMark (fun _ => rfl)

theorem parameterType_places :
    Places text false parameterType (fun type => [type.node]) :=
  around (lexeme rfl _ (Node.bare_marks .typeParameterName)) (fun _ => rfl)

theorem namedType_places : Places text false namedType (fun type => [type.node]) :=
  around (lexeme rfl _ (Node.bare_marks .typeName)) (fun _ => rfl)

theorem blockType_places (hlevel : level.Places text) :
    Places text true (blockType level) (fun type => [type.node]) := by
  apply opening rfl
  intro c
  apply Builds.pass skipLineBreaks
  intro _
  apply Builds.bind hlevel.type
  intro output
  apply Builds.pass skipLineBreaks
  intro _
  apply Builds.pass (expectMark .closeCurly)
  intro _
  exact Builds.branch (Or.inl rfl) (fun _ => rfl)

theorem parenthesizedType_places (hlevel : level.Places text) :
    Places text false (parenthesizedType level) (fun type => [type.node]) := by
  apply start
  intro c
  apply Builds.bind (enclosed hlevel.type)
  intro form
  cases form with
  | unit => exact Builds.branch (Or.inl rfl) (fun _ => rfl)
  | group type =>
      apply Builds.look
      intro span
      exact Builds.give rfl
  | sequence separator elements =>
      apply Builds.branch (Or.inl rfl)
      intro span
      rw [TypeExpr.node, TypeExpr.nodes_eq_flatMap]
      rfl

theorem subtype_places (hlevel : level.Places text) :
    Places text false (subtype level) (fun type => [type.node]) := by
  apply Places.look
  intro kind
  split
  · exact placeholderType_places
  · exact parameterType_places
  · exact namedType_places
  · exact (blockType_places hlevel).weaken
  · exact parenthesizedType_places hlevel
  · exact Places.unexpected _

theorem subtypes_places (hlevel : level.Places text) :
    Places text false (subtypes level) TypeExpr.nodes := by
  intro c types d hc htypes
  rw [TypeExpr.nodes_eq_flatMap]
  exact repeatWhile (subtype_places hlevel) c types d hc htypes

/-!
## Type elements
-/

theorem functionOrNamedType_places (hlevel : level.Places text) :
    Places text false (functionOrNamedType level) (fun type => [type.node]) := by
  apply start
  intro c
  apply Builds.lookBind (subtype_places hlevel)
  intro d first d' hfirst
  apply Builds.bind (subtypes_places hlevel)
  intro rest
  apply Builds.look
  intro arrow
  split
  · apply Builds.pass advance
    intro _
    apply Builds.pass skipLineBreaks
    intro _
    apply Builds.bind hlevel.type
    intro output
    exact Builds.branch (Or.inr (List.cons_ne_nil _ _)) (fun _ => rfl)
  · split
    · exact Builds.giveLeft rfl
    · split
      · rename_i name hbare hname
        have hkind : d.kind = .capitalName := by simpa [Cursor.isAt] using hbare
        rcases subtype_eq_named hkind hfirst with ⟨found, rfl⟩
        cases hname
        -- The name is all that is left of the first subtype.
        have hinner : Becomes text (TypeExpr.named name [] name.span).node
            (.bare .typeName name) := Becomes.within List.mem_cons_self rfl rfl
        apply Builds.restate (.cons hinner (Becomes.all _))
        exact Builds.branch (Or.inr (List.cons_ne_nil _ _)) (fun _ => rfl)
      · exact Builds.unexpected _ _

/-!
## Constraints and signatures
-/

theorem constraintBody_places (hlevel : level.Places text) :
    Places text false (constraintBody level) (fun constraint => [constraint.node]) := by
  apply start
  intro c
  apply Builds.look
  intro kind
  split
  · apply Builds.pass advance
    intro _
    apply Builds.bind (lexeme rfl _ (Node.leaf_marks .typeParameterName (by decide)))
    intro parameter
    exact Builds.branch (Or.inr (List.cons_ne_nil _ _)) (fun _ => rfl)
  · apply Builds.bind (lexeme rfl _ (Node.leaf_marks .typeParameterName (by decide)))
    intro parameter
    apply Builds.pass (expectMark .colon)
    intro _
    apply Builds.pass skipLineBreaks
    intro _
    apply Builds.bind hlevel.type
    intro value
    exact Builds.branch (Or.inr (List.cons_ne_nil _ _)) (fun _ => rfl)
  · apply Builds.bind (lexeme rfl _ (Node.leaf_marks .typeName (by decide)))
    intro trait
    apply Builds.bind (subtype_places hlevel)
    intro first
    apply Builds.bind (subtypes_places hlevel)
    intro rest
    exact Builds.branch (Or.inr (List.cons_ne_nil _ _)) (fun _ => rfl)
  · exact Builds.unexpected _ _

theorem constraint_places (hlevel : level.Places text) :
    Places text false (constraint level) (fun constraint => [constraint.node]) := by
  apply ofBuilds
  intro c
  apply Builds.pass (expectMark .openParen)
  intro _
  apply Builds.bind (constraintBody_places hlevel)
  intro constraint
  apply Builds.pass (expectMark .closeParen)
  intro _
  exact Builds.give rfl

theorem whereClause_places (hlevel : level.Places text) :
    Places text false (whereClause level)
      (fun clause => (clause.map WhereClause.node).toList) := by
  apply Places.look
  intro present
  split
  · apply openingAny
    intro c
    apply Builds.bind (constraint_places hlevel)
    intro first
    apply Builds.bind (repeatWhile (constraint_places hlevel))
    intro rest
    rw [← List.map_eq_flatMap]
    exact Builds.branch (Or.inr (List.cons_ne_nil _ _)) (fun _ => rfl)
  · apply ofBuilds
    intro c
    exact Builds.give rfl

theorem signature_places (hlevel : level.Places text) :
    Places text false (signature level) (fun signature => [signature.node]) := by
  apply start
  intro c
  apply Builds.bind hlevel.type
  intro type
  apply Builds.bind (whereClause_places hlevel)
  intro clause
  apply Builds.close (fun span => Signature.node { type, clause, span })
    (Or.inr (List.cons_ne_nil _ _)) (fun _ => rfl) (fun _ => rfl) (fun _ => rfl)
  intro span
  exact Builds.give rfl

theorem typeParameterName_places :
    Places text false typeParameterName (fun name => [TypeFunction.parameterNode name]) := by
  apply Places.restate (lexeme rfl _ (Node.bare_marks .typeParameterName))
  intro name
  exact .cons (Becomes.around rfl rfl rfl) .nil

theorem typeFunction_places :
    Places text false typeFunction (fun function => [function.node]) := by
  apply start
  intro c
  apply Builds.bind typeParameterName_places
  intro first
  apply Builds.bind (repeatWhile typeParameterName_places)
  intro rest
  apply Builds.pass (expectMark .fatArrow)
  intro _
  rw [← List.map_eq_flatMap]
  apply Builds.close (fun span => TypeFunction.node { parameters := first :: rest, span })
    (Or.inl rfl) (fun _ => rfl) (fun _ => rfl) (fun _ => rfl)
  intro span
  apply Builds.pass skipLineBreaks
  intro _
  exact Builds.give rfl

end Grammar
end Linewise
