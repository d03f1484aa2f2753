import Linewise.Proofs.Progress.Combinator

/-!
# Types go on

The rules of types take at least one token that is no comment, and the types are traced
back.
-/

namespace Linewise

/-- What is to be known of a block or a record holds of the one that is made of the statements
that are read at this level between braces in the text. -/
def Tracing.Admits (T : Tracing) (level : Level) : Prop :=
  forall {before : List Token} {opening : Token} {c d : Cursor} {found : List Statement},
    T.text = before ++ opening :: c.ahead -> c.final.kind = .endOfInput ->
    opening.kind = .mark .openCurly ->
    Grammar.statements level (.mark .closeCurly) c = .ok found d -> d.kind = .mark .closeCurly ->
    (Grammar.fields? found = none ->
      T.Block (d.advance.spanFrom opening.span) (Statement.nodes found)) ∧
    forall fields, Grammar.fields? found = some fields ->
      T.Record (d.advance.spanFrom opening.span) (Expression.fieldNodes fields)

/-- The rules of the level go on and take a token, and their trees are traced back.  The
comments of a statement are known before. -/
structure Level.Proceeds (T : Tracing) (E : Excuse) (level : Level) : Prop where
  type : Linewise.Proceeds T E true (fun type => T.Traces type.node) level.type
  pattern : Linewise.Proceeds T E true (fun pattern => T.Traces pattern.node) level.pattern
  expression : forall least,
    Linewise.Proceeds T E true (fun expression => T.Traces expression.node)
      (level.expression least)
  statement : forall comments, (forall comment, comment ∈ comments -> T.Leaf .comment comment) ->
    Linewise.Proceeds T E true (fun statement => T.Traces statement.node)
      (level.statement comments)
  block : T.Admits level

namespace Grammar

variable {T : Tracing} {E : Excuse} {level : Level}

/-!
## Subtypes
-/

theorem placeholderType_proceeds :
    Proceeds T E true (fun type => T.Traces type.node) placeholderType := by
  apply Proceeds.bind (Proceeds.expectMark _)
  intro token _
  exact Proceeds.give (by simp [TypeExpr.node])

theorem typeParameterName_proceeds :
    Proceeds T E true (T.Leaf .typeParameterName) typeParameterName := Proceeds.leaf rfl _

theorem typeName_proceeds : Proceeds T E true (T.Leaf .typeName) typeName := Proceeds.leaf rfl _

theorem parameterType_proceeds :
    Proceeds T E true (fun type => T.Traces type.node) parameterType := by
  apply Proceeds.bind typeParameterName_proceeds
  intro name hname
  exact Proceeds.give (by simpa [TypeExpr.node] using hname)

theorem namedType_proceeds : Proceeds T E true (fun type => T.Traces type.node) namedType := by
  apply Proceeds.bind typeName_proceeds
  intro name hname
  exact Proceeds.give (by simpa [TypeExpr.node] using hname)

theorem blockType_proceeds (hlevel : level.Proceeds T E) :
    Proceeds T E true (fun type => T.Traces type.node) (blockType level) := by
  apply Proceeds.bind (Proceeds.expectMark _)
  intro opening _
  apply Proceeds.step Proceeds.skipLineBreaks
  intro _ _
  apply Proceeds.step hlevel.type
  intro output houtput
  apply Proceeds.step Proceeds.skipLineBreaks
  intro _ _
  apply Proceeds.step (Proceeds.expectMark _)
  intro _ _
  exact Proceeds.build (fun _ => by simpa [TypeExpr.node] using houtput)

theorem parenthesizedType_proceeds (hlevel : level.Proceeds T E) :
    Proceeds T E true (fun type => T.Traces type.node) (parenthesizedType level) := by
  apply Proceeds.look
  intro start
  apply Proceeds.bind (Proceeds.enclosed hlevel.type)
  intro form hform
  apply Proceeds.look
  intro span
  cases form with
  | unit => exact Proceeds.give (by simp [TypeExpr.node])
  | group type => exact Proceeds.give hform
  | sequence separator elements =>
      exact Proceeds.give (by simpa [TypeExpr.node, Makes.ofEnclosed] using hform)

theorem subtype_proceeds (hlevel : level.Proceeds T E) :
    Proceeds T E true (fun type => T.Traces type.node) (subtype level) := by
  apply Proceeds.look
  intro kind
  split
  · exact placeholderType_proceeds
  · exact parameterType_proceeds
  · exact namedType_proceeds
  · exact blockType_proceeds hlevel
  · exact parenthesizedType_proceeds hlevel
  · exact Proceeds.unexpected _

theorem subtypes_proceeds (hlevel : level.Proceeds T E) :
    Proceeds T E false (fun types => forall type, type ∈ types -> T.Traces type.node)
      (subtypes level) := by
  apply Proceeds.repeatWhile (subtype_proceeds hlevel)
  intro c hend
  exact not_startsType_of_end hend

/-!
## Type elements
-/

theorem traces_of_bareName? {type : TypeExpr} {name : Lexeme} (h : T.Traces type.node)
    (hname : bareName? type = some name) : T.Leaf .typeName name := by
  cases type with
  | named found parameters span =>
      cases hname
      simp only [TypeExpr.node, Tracing.traces_branch, Tracing.tracesAll_cons,
        Tracing.traces_bare] at h
      exact h.2.1
  | _ => cases hname

theorem functionOrNamedType_proceeds (hlevel : level.Proceeds T E) :
    Proceeds T E true (fun type => T.Traces type.node) (functionOrNamedType level) := by
  apply Proceeds.look
  intro start
  apply Proceeds.look
  intro bare
  apply Proceeds.bind (subtype_proceeds hlevel)
  intro first hfirst
  apply Proceeds.step (subtypes_proceeds hlevel)
  intro rest hrest
  apply Proceeds.look
  intro arrow
  split
  · apply Proceeds.step Proceeds.advance
    intro _ _
    apply Proceeds.step Proceeds.skipLineBreaks
    intro _ _
    apply Proceeds.step hlevel.type
    intro output houtput
    exact Proceeds.build (fun _ => by simpa [TypeExpr.node] using ⟨⟨hfirst, hrest⟩, houtput⟩)
  · split
    · exact Proceeds.give hfirst
    · split
      · rename_i name hname
        have hbare := traces_of_bareName? hfirst hname
        exact Proceeds.build (fun _ => by simpa [TypeExpr.node] using ⟨hbare, hrest⟩)
      · exact Proceeds.unexpected _

/-!
## Constraints and signatures
-/

theorem constraintBody_proceeds (hlevel : level.Proceeds T E) :
    Proceeds T E true (fun constraint => T.Traces constraint.node) (constraintBody level) := by
  apply Proceeds.look
  intro start
  apply Proceeds.look
  intro kind
  split
  · apply Proceeds.step Proceeds.advance
    intro _ _
    apply Proceeds.bind typeParameterName_proceeds
    intro parameter hparameter
    exact Proceeds.build (fun _ => by simpa [Constraint.node] using hparameter)
  · apply Proceeds.bind typeParameterName_proceeds
    intro parameter hparameter
    apply Proceeds.step (Proceeds.expectMark _)
    intro _ _
    apply Proceeds.step Proceeds.skipLineBreaks
    intro _ _
    apply Proceeds.step hlevel.type
    intro value hvalue
    exact Proceeds.build (fun _ => by simpa [Constraint.node] using ⟨hparameter, hvalue⟩)
  · apply Proceeds.bind typeName_proceeds
    intro trait htrait
    apply Proceeds.step (subtype_proceeds hlevel)
    intro first hfirst
    apply Proceeds.step (subtypes_proceeds hlevel)
    intro rest hrest
    exact Proceeds.build (fun _ => by simpa [Constraint.node] using ⟨htrait, hfirst, hrest⟩)
  · exact Proceeds.unexpected _

theorem constraint_proceeds (hlevel : level.Proceeds T E) :
    Proceeds T E true (fun constraint => T.Traces constraint.node) (constraint level) := by
  apply Proceeds.bind (Proceeds.expectMark _)
  intro _ _
  apply Proceeds.step (constraintBody_proceeds hlevel)
  intro found hfound
  apply Proceeds.step (Proceeds.expectMark _)
  intro _ _
  exact Proceeds.give hfound

theorem whereClause_proceeds (hlevel : level.Proceeds T E) :
    Proceeds T E false (fun clause => forall found, clause = some found -> T.Traces found.node)
      (whereClause level) := by
  apply Proceeds.look
  intro present
  split
  · apply Proceeds.step Proceeds.advance
    intro opening _
    apply Proceeds.step (constraint_proceeds hlevel)
    intro first hfirst
    apply Proceeds.step (Proceeds.repeatWhile (constraint_proceeds hlevel)
      (fun c hend => not_isAt_of_end (by simp) hend))
    intro rest hrest
    apply Proceeds.build
    intro span clause hclause
    cases hclause
    simpa [WhereClause.node] using ⟨hfirst, hrest⟩
  · exact Proceeds.give (by simp)

theorem signature_proceeds (hlevel : level.Proceeds T E) :
    Proceeds T E true (fun signature => T.Traces signature.node) (signature level) := by
  apply Proceeds.look
  intro start
  apply Proceeds.bind hlevel.type
  intro type htype
  apply Proceeds.step (whereClause_proceeds hlevel)
  intro clause hclause
  exact Proceeds.build (fun _ => by simpa [Signature.node] using ⟨htype, hclause⟩)

theorem typeFunction_proceeds :
    Proceeds T E true (fun function => T.Traces function.node) typeFunction := by
  apply Proceeds.look
  intro start
  apply Proceeds.bind typeParameterName_proceeds
  intro first hfirst
  apply Proceeds.step (Proceeds.repeatWhile typeParameterName_proceeds
    (fun c hend => not_isAt_of_end (by simp) hend))
  intro rest hrest
  apply Proceeds.step (Proceeds.expectMark _)
  intro _ _
  apply Proceeds.look
  intro span
  apply Proceeds.step Proceeds.skipLineBreaks
  intro _ _
  exact Proceeds.give (by
    simpa [TypeFunction.node, TypeFunction.parameterNode] using ⟨hfirst, hrest⟩)

end Grammar
end Linewise
