import Linewise.Proofs.Parallel.Block
import Linewise.Proofs.Progress.Pattern

/-!
# Expressions go on

The rules of expressions take at least one token that is no comment, and the expressions
are traced back.  A list of statements may take nothing, but each statement that another
one follows takes the line break between them.
-/

namespace Linewise

open Linewise.Parser

namespace Cursor

theorem record_passage (c : Cursor) (diagnostic : Diagnostic) :
    Passage c [] [diagnostic] (c.record diagnostic) :=
  ⟨rfl, rfl, rfl, rfl, rfl, by simp⟩

theorem Reaches.giveUp {c : Cursor} (hfinal : c.final.kind = .endOfInput) (terminator : Kind)
    (diagnostic : Diagnostic) :
    c.Reaches false ((c.record diagnostic).skipStatement terminator) := by
  rcases skipStatement_passage terminator (c := c.record diagnostic) hfinal with
    ⟨skipped, hskip, _⟩
  exact passage ((c.record_passage diagnostic).trans hskip)

end Cursor

namespace Grammar

variable {T : Tracing} {E : Excuse} {level : Level}

/-!
## Statements in a row
-/

theorem endOfStatement_proceeds (terminator : Kind) :
    Proceeds T E false (fun _ => True) (endOfStatement terminator) := by
  apply Proceeds.look
  intro lineEnds
  apply Proceeds.look
  intro listEnds
  split
  · exact Proceeds.give trivial
  · exact Proceeds.unexpected _

theorem recovering_proceeds {terminator : Kind} {solid : Bool} {parser : Parser Statement}
    (h : Proceeds T E solid (fun statement => T.Traces statement.node) parser) :
    Proceeds T E false (fun statement => T.Traces statement.node)
      (recovering terminator parser) := by
  intro c hc
  have hreply := h c hc
  unfold recovering
  cases hparser : parser c with
  | ok statement d =>
      rw [hparser] at hreply
      exact ⟨hreply.1.weaken, hreply.2⟩
  | error diagnostic d =>
      rw [hparser] at hreply
      have hfinal := (hc.after hreply).final
      exact ⟨Cursor.Reaches.trans hreply (Cursor.Reaches.giveUp hfinal terminator diagnostic),
        by simp [Statement.node]⟩
  | fault found =>
      rw [hparser] at hreply
      exact hreply

theorem statementLine_proceeds (hlevel : level.Proceeds T E) (terminator : Kind)
    {comments : List Lexeme}
    (hcomments : forall comment, comment ∈ comments -> T.Leaf .comment comment) :
    Proceeds T E true (fun statement => T.Traces statement.node)
      (statementLine level terminator comments) := by
  apply Proceeds.bind (hlevel.statement comments hcomments)
  intro statement hstatement
  apply Proceeds.step (endOfStatement_proceeds terminator)
  intro _ _
  exact Proceeds.give hstatement

theorem statementsUpTo_proceeds (hlevel : level.Proceeds T E) (terminator : Kind) (bound : Nat)
    {c : Cursor} (hc : T.Fits c) (hbound : c.ahead.length < bound) :
    (statementsUpTo level terminator bound c).Leads E c false
      (fun found => forall statement, statement ∈ found -> T.Traces statement.node) := by
  induction bound generalizing c with
  | zero => exact absurd hbound (Nat.not_lt_zero _)
  | succ bound ih =>
      apply Reply.Leads.bind (Proceeds.leadingComments c hc)
      intro comments d _ hskip hcomments
      apply Reply.Leads.look
      split
      · exact Reply.Leads.give (by simp)
      · have hline := statementLine_proceeds hlevel terminator hcomments
        apply Reply.Leads.bind (recovering_proceeds hline d (hc.after hskip))
        intro first e _ hread hfirst
        apply Reply.Leads.look
        split
        · rename_i hbreak
          have hway := hskip.trans hread
          have hne : e.kind ≠ .endOfInput := by
            intro hend
            rw [not_isAt_of_end (by simp) hend] at hbreak
            cases hbreak
          have hbehind := hway.trans (Cursor.Reaches.advanceToken (hc.after hway).final hne)
          have hshort := Cursor.Reaches.length_lt hbehind
          apply Reply.Leads.bind (Proceeds.advance e (hc.after hway))
          intro _ f hf _ _
          cases hf
          apply Reply.Leads.bind (ih (hc.after hbehind) (by omega))
          intro rest g _ _ hrest
          exact Reply.Leads.give (List.forall_mem_cons.mpr ⟨hfirst, hrest⟩)
        · exact Reply.Leads.give (by simpa using hfirst)

theorem statements_proceeds (hlevel : level.Proceeds T E) (terminator : Kind) :
    Proceeds T E false (fun found => forall statement, statement ∈ found ->
      T.Traces statement.node) (statements level terminator) :=
  fun c hc => statementsUpTo_proceeds hlevel terminator (c.ahead.length + 1) hc
    (Nat.lt_succ_self _)

/-!
## Sequences
-/

theorem nextElement_proceeds (hlevel : level.Proceeds T E) (separator : Kind) :
    Proceeds T E true (fun expression => T.Traces expression.node)
      (nextElement level separator) := by
  apply Proceeds.look
  intro kind
  split
  · apply Proceeds.step Proceeds.advance
    intro _ _
    exact hlevel.expression 0
  · exact Proceeds.mixedSeparators _

theorem traces_sequenceOf {separator : Kind} {elements : List Expression} {span : Span}
    (h : forall element, element ∈ elements -> T.Traces element.node) :
    T.Traces (sequenceOf separator elements span).node := by
  unfold sequenceOf
  split
  · simpa [Expression.node] using h
  · simpa [Expression.node] using h

theorem not_atSeparator_of_end {c : Cursor} (h : c.kind = .endOfInput) :
    separators.contains c.kind = false := by
  rw [h]
  decide

theorem expression_proceeds (hlevel : level.Proceeds T E) :
    Proceeds T E true (fun expression => T.Traces expression.node) (expression level) := by
  apply Proceeds.look
  intro start
  apply Proceeds.bind (hlevel.expression 0)
  intro first hfirst
  apply Proceeds.look
  intro separator
  split
  · apply Proceeds.step (Proceeds.repeatWhile (nextElement_proceeds hlevel separator)
      (fun c hend => not_atSeparator_of_end hend))
    intro rest hrest
    exact Proceeds.build (fun _ => traces_sequenceOf (List.forall_mem_cons.mpr ⟨hfirst, hrest⟩))
  · exact Proceeds.give hfirst

/-!
## Records and blocks
-/

theorem traces_field {field : Entry Lexeme Expression} (h : T.Traces field.toStatement.node) :
    T.Leaf .variableName field.key ∧ T.Traces field.value.node := by
  simpa [Entry.toStatement, Statement.node, Pattern.node] using h

theorem traces_recordOrBlock {found : List Statement} {span : Span}
    (hfound : forall statement, statement ∈ found -> T.Traces statement.node)
    (hblock : fields? found = none -> T.Block span (Statement.nodes found))
    (hrecord : forall fields, fields? found = some fields ->
      T.Record span (Expression.fieldNodes fields)) :
    T.Traces (recordOrBlock found span).node := by
  unfold recordOrBlock
  split
  · rename_i fields hfields
    have hknown := hrecord fields hfields
    rw [(fields?_eq_some.mp hfields).2, List.forall_mem_map] at hfound
    simpa [Expression.node] using ⟨hknown, fun field hfield => traces_field (hfound field hfield)⟩
  · rename_i hnone
    simpa [Expression.node] using ⟨hblock hnone, hfound⟩

theorem current_of_expectAs {kind : Kind} {description : String} {c d : Cursor} {token : Token}
    (h : expectAs kind description c = .ok token d) : token = c.current := by
  unfold expectAs expectOr at h
  split at h
  · cases h
    rfl
  · cases h

theorem text_of_advance {c : Cursor} (hc : T.Fits c) (h : c.kind ≠ .endOfInput) :
    exists before, T.text = before ++ c.current :: c.advance.ahead := by
  rcases hc.inside with ⟨before, htext⟩
  rcases Cursor.significant_of_kind_ne hc.final h with ⟨rest, hs⟩
  rw [c.ahead_eq_significant, hs, ← List.append_assoc] at htext
  exists before ++ c.ahead.takeWhile Token.isComment
  rw [Cursor.advance_eq hs h, htext]

theorem bracedExpression_proceeds (hlevel : level.Proceeds T E) :
    Proceeds T E true (fun expression => T.Traces expression.node) (bracedExpression level) := by
  intro c hc
  apply Reply.Leads.bind (Proceeds.expectMark .openCurly c hc)
  intro opening d hopen hway _
  rcases expectAs_eq_ok hopen with ⟨hkind, rfl⟩
  apply Reply.Leads.bind (statements_proceeds hlevel (.mark .closeCurly) _ (hc.after hway))
  intro found e hfound hinside htraces
  have he := (hc.after hway).after hinside
  apply Reply.Leads.bind (Proceeds.expectMark .closeCurly e he).weaken
  intro closing f hclosed _ _
  rcases expectAs_eq_ok hclosed with ⟨hclose, rfl⟩
  apply Reply.Leads.look
  apply Reply.Leads.give
  rcases text_of_advance hc (by simp [hkind]) with ⟨before, htext⟩
  rw [current_of_expectAs hopen]
  rcases hlevel.block htext (hc.after hway).final hkind hfound hclose with ⟨hblock, hrecord⟩
  exact traces_recordOrBlock htraces hblock hrecord

theorem parenthesizedExpression_proceeds (hlevel : level.Proceeds T E) :
    Proceeds T E true (fun expression => T.Traces expression.node)
      (parenthesizedExpression level) := by
  apply Proceeds.look
  intro start
  apply Proceeds.bind (Proceeds.enclosed (hlevel.expression 0))
  intro form hform
  apply Proceeds.look
  intro span
  cases form with
  | unit => exact Proceeds.give (by simp [Expression.node])
  | group expression => exact Proceeds.give hform
  | sequence separator elements => exact Proceeds.give (traces_sequenceOf hform)

/-!
## Subexpressions
-/

theorem placeholderExpression_proceeds :
    Proceeds T E true (fun expression => T.Traces expression.node) placeholderExpression := by
  apply Proceeds.bind (Proceeds.expectMark _)
  intro token _
  exact Proceeds.give (by simp [Expression.node])

theorem variableExpression_proceeds :
    Proceeds T E true (fun expression => T.Traces expression.node) variableExpression := by
  apply Proceeds.bind variableName_proceeds
  intro name hname
  exact Proceeds.give (by simpa [Expression.node] using hname)

theorem typeNameExpression_proceeds :
    Proceeds T E true (fun expression => T.Traces expression.node) typeNameExpression := by
  apply Proceeds.bind typeName_proceeds
  intro name hname
  exact Proceeds.give (by simpa [Expression.node] using hname)

theorem numberExpression_proceeds :
    Proceeds T E true (fun expression => T.Traces expression.node) numberExpression := by
  apply Proceeds.bind number_proceeds
  intro literal hliteral
  exact Proceeds.give (by simpa [Expression.node] using hliteral)

theorem textExpression_proceeds :
    Proceeds T E true (fun expression => T.Traces expression.node) textExpression := by
  apply Proceeds.bind Proceeds.text
  intro literal hliteral
  exact Proceeds.give (by simpa [Expression.node] using hliteral)

theorem subexpression_proceeds (hlevel : level.Proceeds T E) :
    Proceeds T E true (fun expression => T.Traces expression.node) (subexpression level) := by
  apply Proceeds.look
  intro kind
  split
  · exact placeholderExpression_proceeds
  · exact variableExpression_proceeds
  · exact typeNameExpression_proceeds
  · exact numberExpression_proceeds
  · exact textExpression_proceeds
  · exact bracedExpression_proceeds hlevel
  · exact parenthesizedExpression_proceeds hlevel
  · exact Proceeds.unexpected _

theorem inputs_proceeds (hlevel : level.Proceeds T E) :
    Proceeds T E false (fun inputs => forall input, input ∈ inputs -> T.Traces input.node)
      (inputs level) := by
  apply Proceeds.repeatWhile (subexpression_proceeds hlevel)
  intro c hend
  exact not_startsExpression_of_end hend

/-!
## Operands
-/

theorem performExpression_proceeds (hlevel : level.Proceeds T E) (start : Span) :
    Proceeds T E true (fun expression => T.Traces expression.node)
      (performExpression level start) := by
  apply Proceeds.step Proceeds.advance
  intro _ _
  apply Proceeds.bind (subexpression_proceeds hlevel)
  intro input hinput
  exact Proceeds.build (fun _ => by simpa [Expression.node] using hinput)

theorem arm_proceeds (hlevel : level.Proceeds T E) :
    Proceeds T E true (fun arm => T.Traces arm.key.node ∧ T.Traces arm.value.node)
      (arm level) := by
  apply Proceeds.look
  intro start
  apply Proceeds.bind (pattern_proceeds hlevel)
  intro key hkey
  apply Proceeds.step (Proceeds.expectMark _)
  intro _ _
  apply Proceeds.step Proceeds.skipLineBreaks
  intro _ _
  apply Proceeds.step (expression_proceeds hlevel)
  intro value hvalue
  exact Proceeds.build (fun _ => ⟨hkey, hvalue⟩)

theorem whenExpression_proceeds (hlevel : level.Proceeds T E) :
    Proceeds T E true (fun expression => T.Traces expression.node) (whenExpression level) := by
  apply Proceeds.bind (Proceeds.expectReserved _)
  intro opening _
  apply Proceeds.step (subexpression_proceeds hlevel)
  intro input hinput
  apply Proceeds.step (Proceeds.expectMark _)
  intro _ _
  apply Proceeds.step (Proceeds.lines (arm_proceeds hlevel))
  intro arms harms
  apply Proceeds.step (Proceeds.expectMark _)
  intro _ _
  exact Proceeds.build (fun _ => by simpa [Expression.node] using ⟨hinput, harms⟩)

theorem intrinsicExpression_proceeds (hlevel : level.Proceeds T E) (start : Span) :
    Proceeds T E true (fun expression => T.Traces expression.node)
      (intrinsicExpression level start) := by
  apply Proceeds.step Proceeds.advance
  intro _ _
  apply Proceeds.bind Proceeds.text
  intro name hname
  apply Proceeds.step (inputs_proceeds hlevel)
  intro inputs hinputs
  exact Proceeds.build (fun _ => by simpa [Expression.node] using ⟨hname, hinputs⟩)

theorem traces_applied {textHead : Bool} {head : Expression} {inputs : List Expression}
    {span : Span} (hhead : T.Traces head.node)
    (hinputs : forall input, input ∈ inputs -> T.Traces input.node) :
    T.Traces (applied textHead head inputs span).node := by
  unfold applied
  split
  · rename_i literal
    have hliteral : T.Leaf .text literal := by simpa [Expression.node] using hhead
    simpa [Expression.node] using ⟨hliteral, hinputs⟩
  · simpa [Expression.node] using ⟨hhead, hinputs⟩

theorem callExpression_proceeds (hlevel : level.Proceeds T E) (start : Span) :
    Proceeds T E true (fun expression => T.Traces expression.node)
      (callExpression level start) := by
  apply Proceeds.look
  intro textHead
  apply Proceeds.bind (subexpression_proceeds hlevel)
  intro head hhead
  apply Proceeds.look
  intro more
  split
  · apply Proceeds.step (inputs_proceeds hlevel)
    intro inputs hinputs
    exact Proceeds.build (fun _ => traces_applied hhead hinputs)
  · exact Proceeds.give hhead

theorem operand_proceeds (hlevel : level.Proceeds T E) :
    Proceeds T E true (fun expression => T.Traces expression.node) (operand level) := by
  apply Proceeds.look
  intro start
  apply Proceeds.look
  intro kind
  split
  · exact performExpression_proceeds hlevel start
  · exact whenExpression_proceeds hlevel
  · exact intrinsicExpression_proceeds hlevel start
  · exact callExpression_proceeds hlevel start

/-!
## Functions and operators
-/

theorem functionInputs_proceeds (hlevel : level.Proceeds T E) :
    Proceeds T E true (fun patterns => forall pattern, pattern ∈ patterns ->
      T.Traces pattern.node) (functionInputs level) := by
  apply Proceeds.bind (subpattern_proceeds hlevel)
  intro first hfirst
  apply Proceeds.step (subpatterns_proceeds hlevel)
  intro rest hrest
  apply Proceeds.step (Proceeds.expectMark _)
  intro _ _
  exact Proceeds.give (List.forall_mem_cons.mpr ⟨hfirst, hrest⟩)

theorem functionLiteral_tries (hlevel : level.Proceeds T E) :
    Tries T E (fun function => T.Traces function.node) (functionLiteral level) := by
  apply Tries.look
  intro start
  apply Tries.look
  intro worthTrying
  dsimp only
  split
  · apply Tries.bind (Proceeds.speculate (functionInputs_proceeds hlevel))
    · exact Tries.none
    · intro inputs hinputs
      apply Proceeds.step Proceeds.skipLineBreaks
      intro _ _
      apply Proceeds.step (hlevel.expression 0)
      intro output houtput
      exact Proceeds.build (fun _ => ⟨_, rfl, by
        simpa [Expression.node] using ⟨hinputs, houtput⟩⟩)
  · exact Tries.none

theorem rightOperand_proceeds (hlevel : level.Proceeds T E) (operator : Operator) :
    Proceeds T E true (fun operand => T.Traces operand.node) (rightOperand level operator) := by
  unfold rightOperand
  split
  · apply Proceeds.bind (hlevel.expression _)
    intro expression hexpression
    exact Proceeds.give (by simpa [Operand.node] using hexpression)
  · apply Proceeds.bind hlevel.type
    intro type htype
    exact Proceeds.give (by simpa [Operand.node] using htype)
  · apply Proceeds.bind (patternOperand_proceeds hlevel)
    intro pattern hpattern
    exact Proceeds.give (by simpa [Operand.node] using hpattern)

theorem continuation_proceeds (hlevel : level.Proceeds T E) (start : Span) :
    Proceeds T E true (fun next => T.Traces next.right.node) (continuation level start) := by
  apply Proceeds.step Proceeds.advance
  intro token _
  apply Proceeds.step Proceeds.skipLineBreaks
  intro _ _
  split
  · apply Proceeds.bind (rightOperand_proceeds hlevel _)
    intro right hright
    exact Proceeds.build (fun _ => hright)
  · exact Proceeds.unexpected _

theorem tag_ne_braced (operator : Operator) :
    operator.tag ≠ "block_expression" ∧ operator.tag ≠ "structure_expression" := by
  cases operator <;> decide

theorem traces_applyContinuations {first : Expression} {rest : List Continuation}
    (hfirst : T.Traces first.node) (hrest : forall next, next ∈ rest -> T.Traces next.right.node) :
    T.Traces (applyContinuations first rest).node := by
  induction rest generalizing first with
  | nil => exact hfirst
  | cons next rest ih =>
      have hnext := hrest next List.mem_cons_self
      exact ih (by simpa [Expression.node, tag_ne_braced] using ⟨hfirst, hnext⟩)
        (fun other hother => hrest other (List.mem_cons_of_mem _ hother))

theorem binaryExpression_proceeds (hlevel : level.Proceeds T E) (least : Nat) :
    Proceeds T E true (fun expression => T.Traces expression.node)
      (binaryExpression level least) := by
  apply Proceeds.look
  intro start
  apply Proceeds.afterTrial (functionLiteral_tries hlevel)
  · apply Proceeds.bind (operand_proceeds hlevel)
    intro first hfirst
    apply Proceeds.step (Proceeds.repeatWhile (continuation_proceeds hlevel start)
      (fun c hend => not_atOperator_of_end hend))
    intro rest hrest
    exact Proceeds.give (traces_applyContinuations hfirst hrest)
  · intro function hfunction
    exact Proceeds.give hfunction

end Grammar
end Linewise
