import Linewise.Proofs.Nesting.Combinator
import Linewise.Proofs.Nesting.Height

/-!
# The heights of types and patterns

Around a level whose trees are at most `n` high, every rule makes trees that are at most a
fixed number of nodes higher.  All rules contain themselves only through the level, so
their runs can be followed as far as those of the level can.
-/

namespace Linewise

structure Level.Bounded (n : Nat) (level : Level) : Prop where
  type : Makes (fun type => type.node.height <= n) level.type
  pattern : Makes (fun pattern => pattern.node.height <= n) level.pattern
  expression : forall least,
    Makes (fun expression => expression.node.height <= n) (level.expression least)
  statement : forall comments,
    Makes (fun statement => statement.node.height <= n) (level.statement comments)

namespace Grammar

open Linewise.Node (height_branch_le height_group_le height_chain_le)

variable {n : Nat} {level : Level}

/-!
## Types
-/

theorem placeholderType_makes :
    Makes (fun type => type.node.height <= n + 2) placeholderType := by
  apply Makes.pass (Makes.expect _)
  intro token
  exact Makes.give (height_branch_le (by grind))

theorem parameterType_makes : Makes (fun type => type.node.height <= n + 2) parameterType := by
  apply Makes.pass (Makes.leaf _ _)
  intro name
  exact Makes.give (height_branch_le (by grind))

theorem namedType_makes : Makes (fun type => type.node.height <= n + 2) namedType := by
  apply Makes.pass (Makes.leaf _ _)
  intro name
  exact Makes.give (height_branch_le (by grind))

theorem blockType_makes (hlevel : level.Bounded n) :
    Makes (fun type => type.node.height <= n + 2) (blockType level) := by
  apply Makes.pass (Makes.expect _)
  intro opening
  apply Makes.pass Makes.skipLineBreaks
  intro _
  apply Makes.bind hlevel.type
  intro output houtput
  apply Makes.pass Makes.skipLineBreaks
  intro _
  apply Makes.pass (Makes.expect _)
  intro _
  exact Makes.build (fun _ => height_branch_le (by grind))

theorem parenthesizedType_makes (hlevel : level.Bounded n) :
    Makes (fun type => type.node.height <= n + 2) (parenthesizedType level) := by
  apply Makes.look
  intro start
  apply Makes.bind (Makes.enclosed hlevel.type)
  intro form hform
  apply Makes.look
  intro span
  cases form with
  | unit => exact Makes.give (height_branch_le (by grind))
  | group type => exact Makes.give (Nat.le_add_right_of_le hform)
  | sequence separator elements =>
      exact Makes.give (height_branch_le (by grind [Makes.ofEnclosed]))

theorem subtype_makes (hlevel : level.Bounded n) :
    Makes (fun type => type.node.height <= n + 2) (subtype level) := by
  apply Makes.look
  intro kind
  split
  · exact placeholderType_makes
  · exact parameterType_makes
  · exact namedType_makes
  · exact blockType_makes hlevel
  · exact parenthesizedType_makes hlevel
  · exact Makes.unexpected _

theorem subtypes_makes (hlevel : level.Bounded n) :
    Makes (fun types => forall type, type ∈ types -> type.node.height <= n + 2)
      (subtypes level) :=
  Makes.repeatWhile (subtype_makes hlevel)

theorem functionOrNamedType_makes (hlevel : level.Bounded n) :
    Makes (fun type => type.node.height <= n + 8) (functionOrNamedType level) := by
  apply Makes.look
  intro start
  apply Makes.look
  intro bare
  apply Makes.bind (subtype_makes hlevel)
  intro first hfirst
  apply Makes.bind (subtypes_makes hlevel)
  intro rest hrest
  apply Makes.look
  intro arrow
  split
  · apply Makes.pass Makes.advance
    intro _
    apply Makes.pass Makes.skipLineBreaks
    intro _
    apply Makes.bind hlevel.type
    intro output houtput
    exact Makes.build (fun _ => height_branch_le (by grind))
  · split
    · exact Makes.give (by omega)
    · split
      · exact Makes.build (fun _ => height_branch_le (by grind))
      · exact Makes.unexpected _

theorem constraintBody_makes (hlevel : level.Bounded n) :
    Makes (fun constraint => constraint.node.height <= n + 3) (constraintBody level) := by
  apply Makes.look
  intro start
  apply Makes.look
  intro kind
  split
  · apply Makes.pass Makes.advance
    intro _
    apply Makes.pass (Makes.leaf _ _)
    intro parameter
    exact Makes.build (fun _ => height_branch_le (by grind))
  · apply Makes.pass (Makes.leaf _ _)
    intro parameter
    apply Makes.pass (Makes.expect _)
    intro _
    apply Makes.pass Makes.skipLineBreaks
    intro _
    apply Makes.bind hlevel.type
    intro value hvalue
    exact Makes.build (fun _ => height_branch_le (by grind))
  · apply Makes.pass (Makes.leaf _ _)
    intro trait
    apply Makes.bind (subtype_makes hlevel)
    intro first hfirst
    apply Makes.bind (subtypes_makes hlevel)
    intro rest hrest
    exact Makes.build (fun _ => height_branch_le (by grind))
  · exact Makes.unexpected _

theorem constraint_makes (hlevel : level.Bounded n) :
    Makes (fun constraint => constraint.node.height <= n + 3) (constraint level) := by
  apply Makes.pass (Makes.expect _)
  intro _
  apply Makes.bind (constraintBody_makes hlevel)
  intro constraint hconstraint
  apply Makes.pass (Makes.expect _)
  intro _
  exact Makes.give hconstraint

theorem whereClause_makes (hlevel : level.Bounded n) :
    Makes (fun clause => forall found, clause = some found -> found.node.height <= n + 4)
      (whereClause level) := by
  apply Makes.look
  intro present
  split
  · apply Makes.pass Makes.advance
    intro opening
    apply Makes.bind (constraint_makes hlevel)
    intro first hfirst
    apply Makes.bind (Makes.repeatWhile (constraint_makes hlevel))
    intro rest hrest
    apply Makes.look
    intro span
    apply Makes.give
    intro found hfound
    cases hfound
    exact height_branch_le (by grind)
  · exact Makes.give (by simp)

theorem signature_makes (hlevel : level.Bounded n) :
    Makes (fun signature => signature.node.height <= n + 5) (signature level) := by
  apply Makes.look
  intro start
  apply Makes.bind hlevel.type
  intro type htype
  apply Makes.bind (whereClause_makes hlevel)
  intro clause hclause
  exact Makes.build (fun _ => height_group_le (by grind))

theorem typeFunction_makes :
    Makes (fun function => function.node.height <= n + 3) typeFunction := by
  apply Makes.look
  intro start
  apply Makes.pass (Makes.leaf _ _)
  intro first
  apply Makes.bind (Makes.repeatWhile (Makes.leaf _ _))
  intro rest _
  apply Makes.pass (Makes.expect _)
  intro _
  apply Makes.look
  intro span
  apply Makes.pass Makes.skipLineBreaks
  intro _
  apply Makes.give
  apply height_branch_le
  have hparameter : forall name, (TypeFunction.parameterNode name).height <= n + 2 :=
    fun name => height_group_le (by grind)
  exact Node.low_map.mpr (fun name _ => hparameter name)

/-!
## Patterns
-/

theorem pattern_makes (hlevel : level.Bounded n) :
    Makes (fun pattern => pattern.node.height <= n + 1) (pattern level) := by
  have helement : Makes (fun pattern => pattern.node.height <= n)
      (elementBehind level.pattern) := by
    apply Makes.pass Makes.advance
    intro _
    exact hlevel.pattern
  apply Makes.look
  intro start
  apply Makes.bind hlevel.pattern
  intro first hfirst
  apply Makes.bind (Makes.repeatWhile helement)
  intro rest hrest
  split
  · exact Makes.give (by omega)
  · exact Makes.build (fun _ => height_branch_le (by grind))

theorem destructurePattern_makes (hlevel : level.Bounded n) :
    Makes (fun pattern => pattern.node.height <= n + 3) (destructurePattern level) := by
  have hfield : Makes (fun field : Entry Lexeme Pattern => field.value.node.height <= n + 1)
      (destructureField level) := by
    apply Makes.look
    intro start
    apply Makes.pass (Makes.leaf _ _)
    intro name
    apply Makes.pass (Makes.expect _)
    intro _
    apply Makes.pass Makes.skipLineBreaks
    intro _
    apply Makes.bind (pattern_makes hlevel)
    intro value hvalue
    exact Makes.build (fun _ => hvalue)
  apply Makes.pass (Makes.expect _)
  intro opening
  apply Makes.bind (Makes.lines hfield)
  intro fields hfields
  split
  · exact Makes.unexpected _
  · apply Makes.pass (Makes.expect _)
    intro _
    apply Makes.look
    intro span
    apply Makes.give
    apply height_branch_le
    exact Pattern.low_fieldNodes (fun field hmem => ⟨by omega, hfields field hmem⟩)

theorem enclosedPattern_makes {start : Span} {form : Parser.Enclosed Pattern}
    (hform : Makes.ofEnclosed (fun pattern => pattern.node.height <= n) form) :
    Makes (fun pattern => pattern.node.height <= n + 3) (enclosedPattern start form) := by
  apply Makes.look
  intro span
  cases form with
  | unit => exact Makes.give (height_branch_le (by grind))
  | group pattern => exact Makes.give (Nat.le_add_right_of_le hform)
  | sequence separator elements =>
      exact Makes.give (height_branch_le (by grind [Makes.ofEnclosed]))

theorem parenthesizedPattern_makes (hlevel : level.Bounded n) :
    Makes (fun pattern => pattern.node.height <= n + 3) (parenthesizedPattern level) := by
  apply Makes.look
  intro start
  apply Makes.look
  intro plain
  split
  · apply Makes.bind (Makes.enclosed hlevel.pattern)
    intro form hform
    exact enclosedPattern_makes hform
  · apply Makes.pass (Makes.expect _)
    intro _
    apply Makes.bind hlevel.pattern
    intro first hfirst
    apply Makes.look
    intro annotated
    split
    · apply Makes.pass Makes.advance
      intro _
      apply Makes.pass Makes.skipLineBreaks
      intro _
      apply Makes.bind hlevel.type
      intro type htype
      apply Makes.pass (Makes.expect _)
      intro _
      exact Makes.build (fun _ => height_branch_le (by grind))
    · apply Makes.bind (Makes.enclosedRest hlevel.pattern hfirst false)
      intro form hform
      exact enclosedPattern_makes hform

theorem subpattern_makes (hlevel : level.Bounded n) :
    Makes (fun pattern => pattern.node.height <= n + 3) (subpattern level) := by
  apply Makes.look
  intro kind
  split
  · apply Makes.pass (Makes.expect _)
    intro token
    exact Makes.give (height_branch_le (by grind))
  · apply Makes.pass (Makes.leaf _ _)
    intro name
    exact Makes.give (height_branch_le (by grind))
  · apply Makes.pass (Makes.leaf _ _)
    intro literal
    exact Makes.give (height_branch_le (by grind))
  · apply Makes.pass Makes.text
    intro literal
    exact Makes.give (height_branch_le (by grind))
  · exact destructurePattern_makes hlevel
  · exact parenthesizedPattern_makes hlevel
  · exact Makes.unexpected _

theorem subpatterns_makes (hlevel : level.Bounded n) :
    Makes (fun patterns => forall pattern, pattern ∈ patterns -> pattern.node.height <= n + 3)
      (subpatterns level) :=
  Makes.repeatWhile (subpattern_makes hlevel)

theorem patternOperand_makes (hlevel : level.Bounded n) :
    Makes (fun pattern => pattern.node.height <= n + 4) (patternOperand level) := by
  apply Makes.look
  intro start
  apply Makes.look
  intro kind
  split
  · apply Makes.pass Makes.advance
    intro _
    apply Makes.pass (Makes.leaf _ _)
    intro name
    exact Makes.build (fun _ => height_branch_le (by grind))
  · apply Makes.pass (Makes.leaf _ _)
    intro name
    apply Makes.bind (subpatterns_makes hlevel)
    intro elements helements
    exact Makes.build (fun _ => height_branch_le (by grind))
  · exact (subpattern_makes hlevel).mono (fun pattern hpattern => by omega)

theorem height_joinAlternatives_le {first : Pattern} {rest : List (Pattern × Span)}
    (hfirst : Node.continues "or_pattern" first.node.tag = true ∧ first.node.height <= n + 1 ∨
      first.node.height <= n)
    (hrest : forall found, found ∈ rest -> found.1.node.height <= n) :
    (joinAlternatives first rest).node.height <= n + 1 := by
  induction rest generalizing first with
  | nil =>
      change first.node.height <= n + 1
      omega
  | cons found rest ih =>
      apply ih
      · left
        exact ⟨rfl, height_chain_le hfirst (hrest found (by simp))⟩
      · intro other hother
        exact hrest other (by simp [hother])

theorem orPattern_makes (hlevel : level.Bounded n) :
    Makes (fun pattern => pattern.node.height <= n + 8) (orPattern level) := by
  apply Makes.look
  intro start
  have halternative : Makes (fun found : Pattern × Span => found.1.node.height <= n + 4)
      (alternative level start) := by
    apply Makes.pass Makes.advance
    intro _
    apply Makes.pass Makes.skipLineBreaks
    intro _
    apply Makes.bind (patternOperand_makes hlevel)
    intro right hright
    exact Makes.build (fun _ => hright)
  apply Makes.bind (patternOperand_makes hlevel)
  intro first hfirst
  apply Makes.bind (Makes.repeatWhile halternative)
  intro rest hrest
  apply Makes.give
  have hjoined := height_joinAlternatives_le (Or.inr hfirst) hrest
  omega

end Grammar
end Linewise
