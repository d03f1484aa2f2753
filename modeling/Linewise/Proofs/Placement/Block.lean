import Linewise.Proofs.Coverage
import Linewise.Proofs.Parallel.Block
import Linewise.Proofs.Placement.Type

/-!
# Statements in their places

The statements of a list sit in the text one behind the other.  The comments above a
statement stand in front of its first token, and a statement that is given up takes
the tokens up to the end of its line.  Where all statements in braces are fields,
each of them is shown as one.
-/

namespace Linewise

theorem Cursor.Within.above {text : List Token} {c : Cursor} {terminator : Kind}
    (h : c.Within text) (hbegins : c.skipTrivia.Begins terminator) :
    Above text c.skipTrivia.current.span.start c.leadingComments := by
  have hpassage := c.skipTrivia_passage
  have hcomment : forall comment, comment ∈ c.leadingComments ->
      exists t, t ∈ c.ahead.takeWhile isTrivia ∧ comment.span = t.span := by
    intro comment hcomment
    rcases List.mem_map.mp hcomment with ⟨t, ht, rfl⟩
    exact ⟨t, (List.mem_filter.mp ht).1, rfl⟩
  constructor
  · intro comment hmem
    rcases hcomment comment hmem with ⟨t, ht, hspan⟩
    have htext := h.mem_read hpassage ht
    refine ⟨?_, ⟨t, htext, by rw [Node.span, hspan]⟩, ⟨t, htext, by rw [Node.span, hspan]⟩⟩
    rw [Node.span, hspan]
    exact (h.ordered_read hpassage).nonempty t ht
  · intro comment hmem
    rcases hcomment comment hmem with ⟨t, ht, hspan⟩
    have hordered := h.ordered
    rw [hpassage.ahead] at hordered
    rw [hspan]
    exact hordered.across ht (List.mem_of_head? hbegins.current_eq)
  · apply List.pairwise_map.mpr
    apply ((h.ordered_read hpassage).before.filter Token.isComment).imp
    intro first second hbefore
    exact ⟨Nat.lt_of_lt_of_le hbefore.nonempty hbefore.behind, hbefore.behind⟩

namespace Grammar

open Linewise.Parser
open Linewise.Places

variable {text : List Token} {level : Level}

/-!
## Lists of statements
-/

theorem recovering_places (hlevel : level.Places text) {terminator : Kind}
    {comments : List Lexeme} {c d : Cursor} {found : Statement} (hc : c.Within text)
    (hbegins : c.Begins terminator) (hcomments : Above text c.current.span.start comments)
    (h : recovering terminator (statementLine level terminator comments) c = .ok found d) :
    Reached text c false [found.node] d := by
  rcases recovering_eq_ok h with hline | ⟨diagnostic, e, hline, hgiven⟩
  · exact hlevel.statement comments c found d hc hcomments (statementLine_eq_ok hline).1
  · cases hgiven
    rcases Correspondence.passage_of_error (statementLine_reads hlevel.keeps terminator comments)
      hc.fits trivial hline with ⟨read, noted, passage⟩
    have hfinal := (hc.after passage).fits.final
    rcases Cursor.skipStatement_passage terminator (c := e.record diagnostic) hfinal with
      ⟨skipped, hskip, _⟩
    rcases hbegins.passage_givenUp hfinal passage hskip with ⟨hwhole, hne⟩
    rcases hbegins.spans hwhole hne with ⟨first, more, hfirst, htrivia, _⟩
    have hreached : Reached text c true [] ((e.record diagnostic).skipStatement terminator) :=
      ⟨hc, _, _, hwhole, Row.nil, fun _ => ⟨first, by simp [hfirst], htrivia⟩⟩
    have hclosed : Reached text c (false || true) [(giveUp terminator c.current.span diagnostic
        e).1.node] ((e.record diagnostic).skipStatement terminator) :=
      hreached.close (Or.inl rfl) (Above.none text _) rfl rfl rfl
    exact hclosed.weaken

theorem statementsUpTo_places (hlevel : level.Places text) (terminator : Kind) (bound : Nat) :
    Places text false (statementsUpTo level terminator bound) Statement.nodes := by
  induction bound with
  | zero =>
      intro c found d _ hfound
      cases hfound
  | succ bound ih =>
      intro c found d hc hfound
      have hreached : Reached text c false [] c.skipTrivia :=
        Reached.passage hc c.skipTrivia_passage
      rw [statementsUpTo_eq] at hfound
      rcases bind_eq_ok.mp hfound with ⟨ended, _, hended, hrest⟩
      cases hended
      split at hrest
      · cases hrest
        exact hreached
      · rename_i hinside
        have hbegins : c.skipTrivia.Begins terminator :=
          Cursor.begins_skipTrivia hc.fits.final (by simpa using hinside)
        rcases bind_eq_ok.mp hrest with ⟨first, e, hfirst, hothers⟩
        have hstatement : Reached text c false [first.node] e :=
          hreached.trans
            (recovering_places hlevel hreached.arrived hbegins (hc.above hbegins) hfirst)
        refine Builds.look (fun more => ?_) e found d hstatement hothers
        split
        · apply Builds.pass advance
          intro _
          apply Builds.bind ih
          intro rest
          exact Builds.give rfl
        · exact Builds.give rfl

theorem statements_places (hlevel : level.Places text) (terminator : Kind) :
    Places text false (statements level terminator) Statement.nodes := by
  apply Places.look
  intro bound
  exact statementsUpTo_places hlevel terminator bound

/-!
## Braces
-/

theorem becomes_field (name : Lexeme) (value : Expression) (span : Span) :
    Becomes text (Statement.assignment (.variable name) value span).node
      (.branch "structure_expression_field" span [.leaf .variableName name, value.node]) := by
  intro tokens h
  have hvariable : (Pattern.variable name).node.Orderly text := 
    h.orderly.child List.mem_cons_self
  refine ⟨h.stands, rfl, Node.Orderly.intro (h.orderly.placed.ofSpan rfl)
    (h.orderly.nests.ofSpans rfl rfl) ?_⟩
  intro child hchild
  rcases List.mem_pair.mp hchild with rfl | rfl
  · exact Node.Orderly.intro (hvariable.placed.ofSpan rfl) (Node.Nests.childless rfl)
      (by simp [Node.children])
  · exact h.orderly.child (List.mem_cons_of_mem _ List.mem_cons_self)

theorem becomes_fields (fields : List (Entry Lexeme Expression)) :
    List.Forall₂ (Becomes text) (Statement.nodes (fields.map Entry.toStatement))
      (Expression.fieldNodes fields) := by
  induction fields with
  | nil => exact .nil
  | cons field fields ih => exact .cons (becomes_field field.key field.value field.span) ih

theorem bracedExpression_places (hlevel : level.Places text) :
    Places text true (bracedExpression level) (fun expression => [expression.node]) := by
  apply opening rfl
  intro c
  apply Builds.bind (statements_places hlevel _)
  intro statements
  apply Builds.pass (expectMark .closeCurly)
  intro _
  unfold recordOrBlock
  split
  · rename_i fields hfields
    rw [(fields?_eq_some.mp hfields).2]
    apply Builds.restate (becomes_fields fields)
    exact Builds.branch (Or.inl rfl) (fun _ => rfl)
  · exact Builds.branch (Or.inl rfl) (fun _ => rfl)

end Grammar
end Linewise
