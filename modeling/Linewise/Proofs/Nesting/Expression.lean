import Linewise.Proofs.Nesting.Pattern

/-!
# The heights of expressions

A record is read from statements, which open a level of their own.  However many operators
stand in a row, their chain is only one node higher than its operands.
-/

namespace Linewise
namespace Grammar

open Linewise.Node (height_branch_le height_group_le height_chain_le)

variable {n : Nat} {level : Level}

/-!
## Statements in a row
-/

theorem endOfStatement_goes (terminator : Kind) : Goes (endOfStatement terminator) := by
  apply Makes.look
  intro lineEnds
  apply Makes.look
  intro listEnds
  split
  · exact Makes.give trivial
  · exact Makes.unexpected _

theorem recovering_makes {terminator : Kind} {parser : Parser Statement}
    (h : Makes (fun statement => statement.node.height <= n + 1) parser) :
    Makes (fun statement => statement.node.height <= n + 1) (recovering terminator parser) where
  visits := by
    intro c
    rcases h.visits c with ⟨moments, hvisits⟩
    by_cases herror : exists diagnostic d, parser c = .error diagnostic d
    · rcases herror with ⟨diagnostic, d, herror⟩
      rcases (d.record diagnostic).exists_walk_skipStatement terminator with ⟨moments', hwalk⟩
      exact ⟨_, Parser.Visits.givingUp herror hvisits hwalk⟩
    · exact ⟨moments, Parser.Visits.recovering
        (fun diagnostic d hparser => herror ⟨diagnostic, d, hparser⟩) hvisits⟩
  holds := by
    intro c statement d hstatement
    rcases recovering_eq_ok hstatement with hread | ⟨diagnostic, e, _, hgiven⟩
    · exact h.holds c statement d hread
    · cases hgiven
      exact height_branch_le (by grind)

theorem statementLine_makes (hlevel : level.Bounded n) (terminator : Kind)
    (comments : List Lexeme) :
    Makes (fun statement => statement.node.height <= n + 1)
      (statementLine level terminator comments) := by
  apply Makes.bind (hlevel.statement comments)
  intro statement hstatement
  apply Makes.pass (endOfStatement_goes terminator)
  intro _
  exact Makes.give (by omega)

theorem statements_makes (hlevel : level.Bounded n) (terminator : Kind) :
    Makes (fun found => forall statement, statement ∈ found -> statement.node.height <= n + 1)
      (statements level terminator) := by
  apply Makes.look
  intro bound
  induction bound with
  | zero => exact Makes.faulty _
  | succ bound ih =>
      apply Makes.pass Makes.leadingComments
      intro comments
      apply Makes.look
      intro ended
      split
      · exact Makes.give (by simp)
      · apply Makes.bind (recovering_makes (statementLine_makes hlevel terminator comments))
        intro first hfirst
        apply Makes.look
        intro more
        split
        · apply Makes.pass Makes.advance
          intro _
          apply Makes.bind ih
          intro rest hrest
          exact Makes.give (List.forall_mem_cons.mpr ⟨hfirst, hrest⟩)
        · exact Makes.give (by simpa using hfirst)

/-!
## Sequences
-/

theorem height_sequenceOf_le {separator : Kind} {elements : List Expression} {span : Span}
    (h : forall element, element ∈ elements -> element.node.height <= n) :
    (sequenceOf separator elements span).node.height <= n + 1 := by
  unfold sequenceOf
  split <;> exact height_branch_le (by grind)

theorem expression_makes (hlevel : level.Bounded n) :
    Makes (fun expression => expression.node.height <= n + 1) (expression level) := by
  have hnext : forall separator, Makes (fun expression => expression.node.height <= n)
      (nextElement level separator) := by
    intro separator
    apply Makes.look
    intro kind
    split
    · apply Makes.pass Makes.advance
      intro _
      exact hlevel.expression 0
    · exact Makes.mixedSeparators _
  apply Makes.look
  intro start
  apply Makes.bind (hlevel.expression 0)
  intro first hfirst
  apply Makes.look
  intro separator
  split
  · apply Makes.bind (Makes.repeatWhile (hnext separator))
    intro rest hrest
    exact Makes.build (fun _ => height_sequenceOf_le (List.forall_mem_cons.mpr ⟨hfirst, hrest⟩))
  · exact Makes.give (by omega)

/-!
## Subexpressions
-/

theorem height_field_le {field : Entry Lexeme Expression}
    (h : field.toStatement.node.height <= n + 1) : field.value.node.height <= n := by
  have hlt : field.value.node.height < field.toStatement.node.height :=
    Node.height_lt_of_mem (List.mem_singleton_self _)
  exact Nat.le_of_lt_succ (Nat.lt_of_lt_of_le hlt h)

theorem bracedExpression_makes (hlevel : level.Bounded n) :
    Makes (fun expression => expression.node.height <= n + 3) (bracedExpression level) := by
  apply Makes.pass (Makes.expect _)
  intro opening
  apply Makes.bind (statements_makes hlevel _)
  intro found hfound
  apply Makes.pass (Makes.expect _)
  intro _
  apply Makes.look
  intro span
  apply Makes.give
  unfold recordOrBlock
  split
  · rename_i fields hfields
    rw [(fields?_eq_some.mp hfields).2] at hfound
    apply height_branch_le
    apply Expression.low_fieldNodes
    intro field hfield
    have hvalue := height_field_le (hfound _ (List.mem_map_of_mem hfield))
    grind
  · exact height_branch_le (by grind)

theorem parenthesizedExpression_makes (hlevel : level.Bounded n) :
    Makes (fun expression => expression.node.height <= n + 3) (parenthesizedExpression level) := by
  apply Makes.look
  intro start
  apply Makes.bind (Makes.enclosed (hlevel.expression 0))
  intro form hform
  apply Makes.look
  intro span
  cases form with
  | unit => exact Makes.give (height_branch_le (by grind))
  | group expression => exact Makes.give (Nat.le_add_right_of_le hform)
  | sequence separator elements =>
      exact Makes.give (Nat.le_trans (height_sequenceOf_le hform) (by omega))

theorem subexpression_makes (hlevel : level.Bounded n) :
    Makes (fun expression => expression.node.height <= n + 3) (subexpression level) := by
  apply Makes.look
  intro kind
  split
  · apply Makes.pass (Makes.expect _)
    intro token
    exact Makes.give (height_branch_le (by grind))
  · apply Makes.pass (Makes.leaf _ _)
    intro name
    exact Makes.give (height_branch_le (by grind))
  · apply Makes.pass (Makes.leaf _ _)
    intro name
    exact Makes.give (height_branch_le (by grind))
  · apply Makes.pass (Makes.leaf _ _)
    intro literal
    exact Makes.give (height_branch_le (by grind))
  · apply Makes.pass Makes.text
    intro literal
    exact Makes.give (height_branch_le (by grind))
  · exact bracedExpression_makes hlevel
  · exact parenthesizedExpression_makes hlevel
  · exact Makes.unexpected _

theorem inputs_makes (hlevel : level.Bounded n) :
    Makes (fun inputs => forall input, input ∈ inputs -> input.node.height <= n + 3)
      (inputs level) :=
  Makes.repeatWhile (subexpression_makes hlevel)

/-!
## Operands
-/

theorem whenExpression_makes (hlevel : level.Bounded n) :
    Makes (fun expression => expression.node.height <= n + 4) (whenExpression level) := by
  have harm : Makes (fun arm : Entry Pattern Expression =>
      arm.key.node.height <= n + 2 ∧ arm.value.node.height <= n + 2) (arm level) := by
    apply Makes.look
    intro start
    apply Makes.bind (pattern_makes hlevel)
    intro key hkey
    apply Makes.pass (Makes.expect _)
    intro _
    apply Makes.pass Makes.skipLineBreaks
    intro _
    apply Makes.bind (expression_makes hlevel)
    intro value hvalue
    exact Makes.build (fun _ => ⟨Nat.le_succ_of_le hkey, Nat.le_succ_of_le hvalue⟩)
  apply Makes.pass (Makes.expect _)
  intro opening
  apply Makes.bind (subexpression_makes hlevel)
  intro input hinput
  apply Makes.pass (Makes.expect _)
  intro _
  apply Makes.bind (Makes.lines harm)
  intro arms harms
  apply Makes.pass (Makes.expect _)
  intro _
  apply Makes.look
  intro span
  apply Makes.give
  apply height_branch_le
  exact Node.low_cons.mpr ⟨hinput, Expression.low_armNodes harms⟩

theorem callExpression_makes (hlevel : level.Bounded n) (start : Span) :
    Makes (fun expression => expression.node.height <= n + 4) (callExpression level start) := by
  apply Makes.look
  intro textHead
  apply Makes.bind (subexpression_makes hlevel)
  intro head hhead
  apply Makes.look
  intro more
  split
  · apply Makes.bind (inputs_makes hlevel)
    intro inputs hinputs
    apply Makes.look
    intro span
    apply Makes.give
    unfold applied
    split <;> exact height_branch_le (by grind)
  · exact Makes.give (by omega)

theorem operand_makes (hlevel : level.Bounded n) :
    Makes (fun expression => expression.node.height <= n + 4) (operand level) := by
  apply Makes.look
  intro start
  apply Makes.look
  intro kind
  split
  · apply Makes.pass Makes.advance
    intro _
    apply Makes.bind (subexpression_makes hlevel)
    intro input hinput
    exact Makes.build (fun _ => height_branch_le (by grind))
  · exact whenExpression_makes hlevel
  · apply Makes.pass Makes.advance
    intro _
    apply Makes.pass Makes.text
    intro name
    apply Makes.bind (inputs_makes hlevel)
    intro inputs hinputs
    exact Makes.build (fun _ => height_branch_le (by grind))
  · exact callExpression_makes hlevel start

/-!
## Functions and operators
-/

theorem functionInputs_makes (hlevel : level.Bounded n) :
    Makes (fun patterns => forall pattern, pattern ∈ patterns -> pattern.node.height <= n + 3)
      (functionInputs level) := by
  apply Makes.bind (subpattern_makes hlevel)
  intro first hfirst
  apply Makes.bind (subpatterns_makes hlevel)
  intro rest hrest
  apply Makes.pass (Makes.expect _)
  intro _
  exact Makes.give (List.forall_mem_cons.mpr ⟨hfirst, hrest⟩)

theorem functionLiteral_makes (hlevel : level.Bounded n) :
    Makes (fun function => forall found, function = some found -> found.node.height <= n + 4)
      (functionLiteral level) := by
  apply Makes.look
  intro start
  apply Makes.look
  intro worthTrying
  apply Makes.optional (Makes.speculate (functionInputs_makes hlevel))
  intro inputs hinputs
  cases inputs with
  | none => exact Makes.give (by simp)
  | some inputs =>
      have hinputs := hinputs inputs rfl
      apply Makes.pass Makes.skipLineBreaks
      intro _
      apply Makes.bind (hlevel.expression 0)
      intro output houtput
      apply Makes.look
      intro span
      apply Makes.give
      intro found hfound
      cases hfound
      exact height_branch_le (by grind)

theorem rightOperand_makes (hlevel : level.Bounded n) (operator : Operator) :
    Makes (fun operand => operand.node.height <= n + 5) (rightOperand level operator) := by
  unfold rightOperand
  split
  · apply Makes.bind (hlevel.expression _)
    intro expression hexpression
    exact Makes.give (height_group_le (by grind))
  · apply Makes.bind hlevel.type
    intro type htype
    exact Makes.give (height_group_le (by grind))
  · apply Makes.bind (patternOperand_makes hlevel)
    intro pattern hpattern
    exact Makes.give (height_group_le (by grind))

/-- However many operators are applied, only one node comes on top of the operands. -/
theorem height_applyContinuations_le {first : Expression} {rest : List Continuation}
    (hfirst : (forall operator : Operator,
      Node.continues operator.tag first.node.tag = true) ∧ first.node.height <= n + 1 ∨
        first.node.height <= n)
    (hrest : forall next, next ∈ rest -> next.right.node.height <= n) :
    (applyContinuations first rest).node.height <= n + 1 := by
  induction rest generalizing first with
  | nil =>
      change first.node.height <= n + 1
      omega
  | cons next rest ih =>
      have hleft : Node.continues next.operator.tag first.node.tag = true ∧
          first.node.height <= n + 1 ∨ first.node.height <= n :=
        hfirst.imp (fun hchain => ⟨hchain.1 next.operator, hchain.2⟩) id
      apply ih
      · left
        constructor
        · exact next.operator.continues_tag
        · exact height_chain_le hleft (hrest next (by simp))
      · intro other hother
        exact hrest other (by simp [hother])

theorem binaryExpression_makes (hlevel : level.Bounded n) (least : Nat) :
    Makes (fun expression => expression.node.height <= n + 8) (binaryExpression level least) := by
  apply Makes.look
  intro start
  have hcontinuation : Makes (fun next : Continuation => next.right.node.height <= n + 5)
      (continuation level start) := by
    apply Makes.pass Makes.advance
    intro token
    apply Makes.pass Makes.skipLineBreaks
    intro _
    split
    · apply Makes.bind (rightOperand_makes hlevel _)
      intro right hright
      exact Makes.build (fun _ => hright)
    · exact Makes.unexpected _
  apply Makes.bind (functionLiteral_makes hlevel)
  intro function hfunction
  cases function with
  | some function =>
      have hfunction := hfunction function rfl
      exact Makes.give (by omega)
  | none =>
      apply Makes.bind (operand_makes hlevel)
      intro first hfirst
      apply Makes.bind (Makes.repeatWhile hcontinuation)
      intro rest hrest
      apply Makes.give
      have happlied := height_applyContinuations_le (Or.inr (Nat.le_succ_of_le hfirst)) hrest
      omega

end Grammar
end Linewise
