import Linewise.Proofs.Carrying.Type
import Linewise.Proofs.Parallel.Block

/-!
# Lists of statements carried over

Where the texts end alike, and inside of brackets, lists of statements are carried over.
A statement that is given up notes a diagnostic, so then nothing has to be shown.
-/

namespace Linewise
namespace Grammar

open Linewise.Parser
open Linewise.Pairing

variable {P : Pairing} {level : Level} {S : List Bracket} {k : Nat} {pre : Cursor -> Prop}

theorem atListEnd_of_same {c d : Cursor} (terminator : Kind) (h : d.current = c.current) :
    atListEnd terminator d = atListEnd terminator c := by
  simp [atListEnd, Cursor.hasTokens, Cursor.isAt, Cursor.kind, h]

theorem statementLine_carries (hlevel : level.Carries P k) (hstack : P.Whole ∨ S ≠ [])
    (terminator : Kind) (comments : List Lexeme) :
    P.Carries false ⟨false, S, k⟩ pre (statementLine level terminator comments)
      (fun _ => ⟨false, S, k⟩) := by
  have hends : P.Carries false ⟨false, S, k⟩ (fun _ => True) (endOfStatement terminator)
      (fun _ => ⟨false, S, k⟩) := by
    apply Carries.isAt (by simp) (by simp)
    intro lineEnds
    apply Carries.look
      (fun htwin _ => atListEnd_of_same terminator (same_of_sheltered htwin hstack))
    intro listEnds
    split
    · exact Carries.give
    · exact Carries.unexpected _
  apply Carries.bind (hlevel.statement comments hstack)
  intro found
  apply Carries.bind hends
  intro _
  exact Carries.give

theorem errors_skipStatement (terminator : Kind) (c : Cursor) :
    (c.skipStatement terminator).errors = c.errors := by
  unfold Cursor.skipStatement
  split <;> rfl

theorem recovering_carries {terminator : Kind} {line : Parser Statement}
    (hline : P.Carries false ⟨false, S, k⟩ pre line (fun _ => ⟨false, S, k⟩)) :
    P.Carries false ⟨false, S, k⟩ pre (recovering terminator line)
      (fun _ => ⟨false, S, k⟩) where
  grows := by
    intro c
    have hreply := hline.grows c
    unfold recovering
    generalize line c = reply at hreply
    cases reply with
    | fault found => trivial
    | ok found d => exact hreply
    | error g d =>
        show c.errors <+: ((d.record g).skipStatement terminator).errors
        rw [errors_skipStatement]
        exact hreply.trans (List.prefix_append d.errors [g])
  replies := by
    intro c d htwin hpre
    have hreply := hline.replies htwin hpre
    have hgrows := hline.grows c
    unfold recovering
    generalize line c = reply at hreply hgrows
    cases reply with
    | fault found => trivial
    | ok found c' =>
        intro hclean
        rcases hreply hclean with ⟨d', hd, htwin'⟩
        exact ⟨d', by rw [hd], htwin'⟩
    | error g c' =>
        rintro (hsharp | hclean)
        · cases hsharp
        · have hnoted : c'.errors ++ [g] = c.errors := by
            rw [← hclean]
            exact (errors_skipStatement terminator (c'.record g)).symm
          have hlength := List.IsPrefix.length_le hgrows
          have hlonger := congrArg List.length hnoted
          rw [List.length_append, List.length_singleton] at hlonger
          omega

theorem statementsUpTo_carries (hlevel : level.Carries P k) (hstack : P.Whole ∨ S ≠ [])
    (terminator : Kind) (bound : Nat) :
    P.Carries false ⟨false, S, k⟩ pre (statementsUpTo level terminator bound)
      (fun _ => ⟨false, S, k⟩) := by
  induction bound generalizing pre with
  | zero => exact Carries.faulty _
  | succ bound ih =>
      apply Carries.bind Carries.leadingComments
      intro comments
      apply Carries.look
        (fun htwin _ => atListEnd_of_same terminator (same_of_sheltered htwin hstack))
      intro ended
      split
      · exact Carries.give
      · apply Carries.bind
          (recovering_carries (statementLine_carries hlevel hstack terminator comments))
        intro first
        apply Carries.isAt (by simp) (by simp)
        intro more
        split
        · rename_i hmore
          apply Carries.bind (Carries.advanceAt .lineBreak (by simp)
            (Bracket.step_plain rfl S) (fun c hc => hc.2.trans hmore))
          intro _
          apply Carries.bind ih
          intro rest
          exact Carries.give
        · exact Carries.give

theorem statements_carries (hlevel : level.Carries P k) (hstack : P.Whole ∨ S ≠ [])
    (terminator : Kind) :
    P.Carries false ⟨false, S, k⟩ pre (statements level terminator)
      (fun _ => ⟨false, S, k⟩) :=
  Carries.bounded
    (fun hc hbound hbound' =>
      statementsUpTo_bound hlevel.keeps hlevel.spans terminator _ _ hc hbound hbound')
    (fun bound => statementsUpTo_carries hlevel hstack terminator bound)

theorem bracedExpression_carries (hlevel : level.Carries P k) :
    P.Carries false ⟨false, S, k⟩ pre (bracedExpression level) (fun _ => ⟨false, S, k⟩) := by
  apply Carries.bind (Carries.expectAs (by simp) rfl _)
  intro opening
  apply Carries.bind (statements_carries hlevel (Or.inr (by simp)) _)
  intro found
  apply Carries.bind (Carries.expectAs (by simp) rfl _)
  intro _
  apply Carries.spanFrom
  intro span
  exact Carries.give

end Grammar
end Linewise
