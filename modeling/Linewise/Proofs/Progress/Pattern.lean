import Linewise.Proofs.Progress.Type

/-!
# Patterns go on

The rules of patterns take at least one token that is no comment, and the patterns are
traced back.
-/

namespace Linewise
namespace Grammar

variable {T : Tracing} {E : Excuse} {level : Level}

/-!
## Tuples
-/

theorem elementBehind_proceeds {α : Type} {solid : Bool} {P : α -> Prop} {element : Parser α}
    (h : Proceeds T E solid P element) : Proceeds T E solid P (elementBehind element) := by
  apply Proceeds.step Proceeds.advance
  intro _ _
  exact h

theorem pattern_proceeds (hlevel : level.Proceeds T E) :
    Proceeds T E true (fun pattern => T.Traces pattern.node) (pattern level) := by
  apply Proceeds.look
  intro start
  apply Proceeds.bind hlevel.pattern
  intro first hfirst
  apply Proceeds.step (Proceeds.repeatWhile (elementBehind_proceeds hlevel.pattern)
    (fun c hend => not_isAt_of_end (by simp) hend))
  intro rest hrest
  split
  · exact Proceeds.give hfirst
  · exact Proceeds.build (fun _ => by simpa [Pattern.node] using ⟨hfirst, hrest⟩)

/-!
## Subpatterns
-/

theorem variableName_proceeds : Proceeds T E true (T.Leaf .variableName) variableName :=
  Proceeds.leaf rfl _

theorem number_proceeds : Proceeds T E true (T.Leaf .number) number := Proceeds.leaf rfl _

theorem wildcardPattern_proceeds :
    Proceeds T E true (fun pattern => T.Traces pattern.node) wildcardPattern := by
  apply Proceeds.bind (Proceeds.expectMark _)
  intro token _
  exact Proceeds.give (by simp [Pattern.node])

theorem variablePattern_proceeds :
    Proceeds T E true (fun pattern => T.Traces pattern.node) variablePattern := by
  apply Proceeds.bind variableName_proceeds
  intro name hname
  exact Proceeds.give (by simpa [Pattern.node] using hname)

theorem numberPattern_proceeds :
    Proceeds T E true (fun pattern => T.Traces pattern.node) numberPattern := by
  apply Proceeds.bind number_proceeds
  intro literal hliteral
  exact Proceeds.give (by simpa [Pattern.node] using hliteral)

theorem textPattern_proceeds :
    Proceeds T E true (fun pattern => T.Traces pattern.node) textPattern := by
  apply Proceeds.bind Proceeds.text
  intro literal hliteral
  exact Proceeds.give (by simpa [Pattern.node] using hliteral)

theorem destructureField_proceeds (hlevel : level.Proceeds T E) :
    Proceeds T E true (fun field => T.Leaf .variableName field.key ∧ T.Traces field.value.node)
      (destructureField level) := by
  apply Proceeds.look
  intro start
  apply Proceeds.bind variableName_proceeds
  intro name hname
  apply Proceeds.step (Proceeds.expectMark _)
  intro _ _
  apply Proceeds.step Proceeds.skipLineBreaks
  intro _ _
  apply Proceeds.step (pattern_proceeds hlevel)
  intro value hvalue
  exact Proceeds.build (fun _ => ⟨hname, hvalue⟩)

theorem destructurePattern_proceeds (hlevel : level.Proceeds T E) :
    Proceeds T E true (fun pattern => T.Traces pattern.node) (destructurePattern level) := by
  apply Proceeds.bind (Proceeds.expectMark _)
  intro opening _
  apply Proceeds.step (Proceeds.lines (destructureField_proceeds hlevel))
  intro fields hfields
  split
  · exact Proceeds.unexpected _
  · apply Proceeds.step (Proceeds.expectMark _)
    intro _ _
    exact Proceeds.build (fun _ => by simpa [Pattern.node] using hfields)

theorem enclosedPattern_proceeds {start : Span} {form : Parser.Enclosed Pattern}
    (hform : Makes.ofEnclosed (fun pattern => T.Traces pattern.node) form) :
    Proceeds T E false (fun pattern => T.Traces pattern.node) (enclosedPattern start form) := by
  apply Proceeds.look
  intro span
  cases form with
  | unit => exact Proceeds.give (by simp [Pattern.node])
  | group pattern => exact Proceeds.give hform
  | sequence separator elements =>
      exact Proceeds.give (by simpa [Pattern.node, Makes.ofEnclosed] using hform)

theorem parenthesizedPattern_proceeds (hlevel : level.Proceeds T E) :
    Proceeds T E true (fun pattern => T.Traces pattern.node) (parenthesizedPattern level) := by
  apply Proceeds.look
  intro start
  apply Proceeds.look
  intro plain
  split
  · apply Proceeds.bind (Proceeds.enclosed hlevel.pattern)
    intro form hform
    exact enclosedPattern_proceeds hform
  · apply Proceeds.bind (Proceeds.expectMark _)
    intro _ _
    apply Proceeds.step hlevel.pattern
    intro first hfirst
    apply Proceeds.look
    intro annotated
    split
    · apply Proceeds.step Proceeds.advance
      intro _ _
      apply Proceeds.step Proceeds.skipLineBreaks
      intro _ _
      apply Proceeds.step hlevel.type
      intro type htype
      apply Proceeds.step (Proceeds.expectMark _)
      intro _ _
      exact Proceeds.build (fun _ => by simpa [Pattern.node] using ⟨hfirst, htype⟩)
    · apply Proceeds.step (Proceeds.enclosedRest hlevel.pattern hfirst false)
      intro form hform
      exact enclosedPattern_proceeds hform

theorem subpattern_proceeds (hlevel : level.Proceeds T E) :
    Proceeds T E true (fun pattern => T.Traces pattern.node) (subpattern level) := by
  apply Proceeds.look
  intro kind
  split
  · exact wildcardPattern_proceeds
  · exact variablePattern_proceeds
  · exact numberPattern_proceeds
  · exact textPattern_proceeds
  · exact destructurePattern_proceeds hlevel
  · exact parenthesizedPattern_proceeds hlevel
  · exact Proceeds.unexpected _

theorem subpatterns_proceeds (hlevel : level.Proceeds T E) :
    Proceeds T E false (fun patterns => forall pattern, pattern ∈ patterns ->
      T.Traces pattern.node) (subpatterns level) := by
  apply Proceeds.repeatWhile (subpattern_proceeds hlevel)
  intro c hend
  exact not_startsPattern_of_end hend

/-!
## Pattern elements
-/

theorem variantName_proceeds : Proceeds T E true (T.Leaf .variantName) variantName :=
  Proceeds.leaf rfl _

theorem patternOperand_proceeds (hlevel : level.Proceeds T E) :
    Proceeds T E true (fun pattern => T.Traces pattern.node) (patternOperand level) := by
  apply Proceeds.look
  intro start
  apply Proceeds.look
  intro kind
  split
  · apply Proceeds.step Proceeds.advance
    intro _ _
    apply Proceeds.bind variableName_proceeds
    intro name hname
    exact Proceeds.build (fun _ => by simpa [Pattern.node] using hname)
  · apply Proceeds.bind variantName_proceeds
    intro name hname
    apply Proceeds.step (subpatterns_proceeds hlevel)
    intro elements helements
    exact Proceeds.build (fun _ => by simpa [Pattern.node] using ⟨hname, helements⟩)
  · exact subpattern_proceeds hlevel

theorem alternative_proceeds (hlevel : level.Proceeds T E) (start : Span) :
    Proceeds T E true (fun found => T.Traces found.1.node) (alternative level start) := by
  apply Proceeds.step Proceeds.advance
  intro _ _
  apply Proceeds.step Proceeds.skipLineBreaks
  intro _ _
  apply Proceeds.bind (patternOperand_proceeds hlevel)
  intro right hright
  exact Proceeds.build (fun _ => hright)

theorem traces_joinAlternatives {first : Pattern} {rest : List (Pattern × Span)}
    (hfirst : T.Traces first.node) (hrest : forall found, found ∈ rest -> T.Traces found.1.node) :
    T.Traces (joinAlternatives first rest).node := by
  induction rest generalizing first with
  | nil => exact hfirst
  | cons found rest ih =>
      have hfound := hrest found List.mem_cons_self
      exact ih (by simpa [Pattern.node] using ⟨hfirst, hfound⟩)
        (fun other hother => hrest other (List.mem_cons_of_mem _ hother))

theorem orPattern_proceeds (hlevel : level.Proceeds T E) :
    Proceeds T E true (fun pattern => T.Traces pattern.node) (orPattern level) := by
  apply Proceeds.look
  intro start
  apply Proceeds.bind (patternOperand_proceeds hlevel)
  intro first hfirst
  apply Proceeds.step (Proceeds.repeatWhile (alternative_proceeds hlevel start)
    (fun c hend => not_atOr_of_end hend))
  intro rest hrest
  exact Proceeds.give (traces_joinAlternatives hfirst hrest)

end Grammar
end Linewise
