import Linewise.Proofs.Carrying.Block
import Linewise.Proofs.Carrying.Pattern
import Linewise.Proofs.Lookahead
import Linewise.Proofs.Parallel.Expression

/-!
# Expressions carried over

The rules of the expression grammar carry a reading over.  Blocks may note diagnostics, so
this is not sharp; expressions are never tried.  Both readings try the same tokens as the
inputs of a function, since the search for an arrow ends alike.
-/

namespace Linewise
namespace Grammar

open Linewise.Parser
open Linewise.Pairing

variable {P : Pairing} {level : Level} {S : List Bracket} {k : Nat} {pre : Cursor -> Prop}

/-!
## Sequences
-/

theorem nextElement_carries (hlevel : level.Carries P k) (hstack : P.Whole ∨ S ≠ [])
    {separator : Kind} (hmem : separator ∈ separators) :
    P.Carries false ⟨false, S, k⟩ (fun c => separators.contains c.kind = true)
      (nextElement level separator) (fun _ => ⟨false, S, k⟩) := by
  apply Carries.kindInside hstack
  intro kind
  split
  · rename_i hkind
    apply Carries.bind (Carries.separator separators_separate hmem
      (fun _ hc => hc.2.trans hkind))
    intro _
    exact hlevel.expression 0
  · exact Carries.stop (fun _ => ⟨_, rfl⟩)

theorem expression_carries (hlevel : level.Carries P k) (hstack : P.Whole ∨ S ≠ []) :
    P.Carries false ⟨false, S, k⟩ pre (expression level) (fun _ => ⟨false, S, k⟩) := by
  apply Carries.start (fun _ => (hlevel.expression_balks 0).bind)
  intro start
  apply Carries.bind (hlevel.expression 0)
  intro first
  apply Carries.kindInside hstack
  intro separator
  split
  · rename_i hseparator
    have hmem : separator ∈ separators := by simpa using hseparator
    have hend : forall c : Cursor, c.kind = .endOfInput -> separators.contains c.kind = false := by
      intro c hc
      simp [separators, hc]
    have hmore : forall {c d}, P.Twin ⟨false, S, k⟩ c d ->
        separators.contains d.kind = separators.contains c.kind := by
      intro c d htwin
      rw [Cursor.kind, Cursor.kind, same_of_sheltered htwin hstack]
    apply Carries.bind (Carries.repeatWhile (nextElement_reads hlevel.keeps hmem) hend hmore
      (nextElement_carries hlevel hstack hmem))
    intro rest
    apply Carries.spanFrom
    intro span
    exact Carries.give
  · exact Carries.give

/-!
## Subexpressions
-/

theorem parenthesizedExpression_carries (hlevel : level.Carries P k)
    (hpre : forall c, pre c -> c.kind = .mark .openParen) :
    P.Carries false ⟨false, S, k⟩ pre (parenthesizedExpression level)
      (fun _ => ⟨false, S, k⟩) := by
  apply Carries.startAt (fun c hc => not_atClose (hpre c hc) (by simp) (by simp))
  intro start
  apply Carries.bind (Carries.enclosed separators_separate (hlevel.keeps.expression 0)
    (hlevel.expression 0))
  intro form
  apply Carries.spanFrom
  intro span
  cases form with
  | unit => exact Carries.give
  | group inner => exact Carries.give
  | sequence separator elements => exact Carries.give

theorem subexpression_balks (level : Level) : Balks (subexpression level) :=
  Balks.kind (balks_unexpected _) (balks_unexpected _)

theorem subexpression_carries (hlevel : level.Carries P k) :
    P.Carries false ⟨false, S, k⟩ pre (subexpression level) (fun _ => ⟨false, S, k⟩) := by
  apply Carries.kind (subexpression_balks level)
  intro kind
  split
  · exact Carries.bind (Carries.expectPlain (by simp) rfl _) (fun _ => Carries.give)
  · exact Carries.bind (Carries.lowercaseName _) (fun _ => Carries.give)
  · exact Carries.bind (Carries.capitalName _) (fun _ => Carries.give)
  · exact Carries.bind Carries.number (fun _ => Carries.give)
  · exact Carries.bind Carries.text (fun _ => Carries.give)
  · exact bracedExpression_carries hlevel
  · exact parenthesizedExpression_carries hlevel (fun _ hc => hc.2)
  · exact Carries.unexpected _

theorem inputs_carries (hlevel : level.Carries P k) :
    P.Carries false ⟨false, S, k⟩ pre (inputs level) (fun _ => ⟨false, S, k⟩) :=
  Carries.repeatWhile (subexpression_reads hlevel.keeps hlevel.braced).readsIf
    (fun _ hend => not_startsExpression_of_end hend)
    (fun htwin => steady_startsExpression.eq htwin) (subexpression_carries hlevel)

/-!
## Operands
-/

theorem performExpression_carries (hlevel : level.Carries P k) (start : Span) :
    P.Carries false ⟨false, S, k⟩ (fun c => pre c ∧ c.kind = .reserved .doWord)
      (performExpression level start) (fun _ => ⟨false, S, k⟩) := by
  apply Carries.bind (Carries.advanceKind (by simp) (Bracket.step_plain rfl S)
    (fun c hc => hc.2))
  intro _
  apply Carries.bind (subexpression_carries hlevel)
  intro input
  apply Carries.spanFrom
  intro span
  exact Carries.give

theorem arm_carries (hlevel : level.Carries P k) (hstack : P.Whole ∨ S ≠ []) :
    P.Carries false ⟨false, S, k⟩ pre (arm level) (fun _ => ⟨false, S, k⟩) := by
  apply Carries.startInside hstack
  intro start
  apply Carries.bind (pattern_carries hlevel)
  intro key
  apply Carries.bind (Carries.expectPlain (by simp) rfl _)
  intro _
  apply Carries.skip
  apply Carries.bind (expression_carries hlevel hstack)
  intro value
  apply Carries.spanFrom
  intro span
  exact Carries.give

theorem whenExpression_carries (hlevel : level.Carries P k) :
    P.Carries false ⟨false, S, k⟩ pre (whenExpression level) (fun _ => ⟨false, S, k⟩) := by
  apply Carries.bind (Carries.expectPlain (by simp) rfl _)
  intro opening
  apply Carries.bind (subexpression_carries hlevel)
  intro input
  apply Carries.bind (Carries.expectAs (by simp) rfl _)
  intro _
  apply Carries.bind (Carries.lines (arm_reads hlevel.keeps)
    (arm_carries hlevel (Or.inr (by simp))))
  intro arms
  apply Carries.bind (Carries.expectAs (by simp) rfl _)
  intro _
  apply Carries.spanFrom
  intro span
  exact Carries.give

theorem intrinsicExpression_carries (hlevel : level.Carries P k) (start : Span) :
    P.Carries false ⟨false, S, k⟩ (fun c => pre c ∧ c.kind = .reserved .intrinsicWord)
      (intrinsicExpression level start) (fun _ => ⟨false, S, k⟩) := by
  apply Carries.bind (Carries.advanceKind (by simp) (Bracket.step_plain rfl S)
    (fun c hc => hc.2))
  intro _
  apply Carries.bind Carries.text
  intro name
  apply Carries.bind (inputs_carries hlevel)
  intro found
  apply Carries.spanFrom
  intro span
  exact Carries.give

theorem callExpression_balks (level : Level) (start : Span) :
    Balks (callExpression level start) :=
  Balks.look (fun _ => (subexpression_balks level).bind)

theorem callExpression_carries (hlevel : level.Carries P k) (start : Span) :
    P.Carries false ⟨false, S, k⟩ pre (callExpression level start)
      (fun _ => ⟨false, S, k⟩) := by
  apply Carries.isAt (by simp) (by simp)
  intro textHead
  apply Carries.bind (subexpression_carries hlevel)
  intro head
  apply Carries.test steady_startsExpression
  intro more
  split
  · apply Carries.bind (inputs_carries hlevel)
    intro found
    apply Carries.spanFrom
    intro span
    exact Carries.give
  · exact Carries.give

theorem operand_balks (level : Level) : Balks (operand level) :=
  Balks.look
    (fun _ => Balks.kind (callExpression_balks level _) (callExpression_balks level _))

theorem operand_carries (hlevel : level.Carries P k) :
    P.Carries false ⟨false, S, k⟩ pre (operand level) (fun _ => ⟨false, S, k⟩) := by
  apply Carries.start
    (fun _ => Balks.kind (callExpression_balks level _) (callExpression_balks level _))
  intro start
  apply Carries.kind (Balks.kind (callExpression_balks level _) (callExpression_balks level _))
  intro kind
  rcases kind with _ | _ | _ | _ | _ | _ | _ | _ | mark | word
  case reserved =>
    cases word with
    | doWord => exact performExpression_carries hlevel start
    | whenWord => exact whenExpression_carries hlevel
    | intrinsicWord => exact intrinsicExpression_carries hlevel start
    | _ => exact callExpression_carries hlevel start
  all_goals exact callExpression_carries hlevel start

/-!
## Function literals
-/

theorem functionInputs_carries (hlevel : level.Carries P k) {sharp : Bool} :
    P.Carries sharp ⟨false, S, k⟩ pre (functionInputs level) (fun _ => ⟨true, S, k⟩) := by
  apply Carries.bind (subpattern_carries hlevel)
  intro first
  apply Carries.bind (subpatterns_carries hlevel)
  intro rest
  apply Carries.bind (Carries.expectPlain (by simp) rfl _)
  intro _
  exact Carries.give

theorem functionLiteral_atClose {c : Cursor} (hc : c.AtClose) :
    functionLiteral level c = .ok none c := by
  apply functionLiteral_of_not
  rcases hc with hc | hc <;> simp [mayBeFunction, Token.patternStarts, hc]

theorem functionLiteral_carries (hlevel : level.Carries P k) :
    P.Carries false ⟨false, S, k⟩ pre (functionLiteral level) (fun _ => ⟨false, S, k⟩) := by
  have haway : P.Carries false ⟨false, S, k⟩ (fun c => ¬ c.AtClose) (functionLiteral level)
      (fun _ => ⟨false, S, k⟩) := by
    apply Carries.startAt (fun _ hc => hc)
    intro start
    apply Carries.look (fun htwin _ => P.arrow htwin)
    intro worthTrying
    split
    · apply Carries.bind (Carries.speculate (functionInputs_reads hlevel.keeps)
        (fun _ _ => ⟨trivial, trivial⟩) (functionInputs_carries hlevel))
      intro inputs
      cases inputs with
      | none => exact Carries.give
      | some inputs =>
          apply Carries.skip
          apply Carries.bind (hlevel.expression 0)
          intro output
          apply Carries.spanFrom
          intro span
          exact Carries.give
    · exact Carries.give
  constructor
  · exact haway.grows
  · intro c d htwin _
    by_cases hc : c.AtClose
    · -- no function literal begins where a text ends
      have hd : d.AtClose := by
        rcases P.current htwin with hsame | ⟨_, _, _, hd⟩
        · rwa [Cursor.AtClose, Cursor.kind, hsame]
        · exact hd
      rw [functionLiteral_atClose hc, functionLiteral_atClose hd]
      exact fun _ => ⟨d, rfl, htwin⟩
    · exact haway.replies htwin hc

/-!
## Operators
-/

theorem rightOperand_carries (hlevel : level.Carries P k) (operator : Operator) :
    P.Carries false ⟨false, S, k⟩ pre (rightOperand level operator)
      (fun _ => ⟨false, S, k⟩) := by
  unfold rightOperand
  split
  · exact Carries.bind (hlevel.expression _) (fun _ => Carries.give)
  · exact Carries.bind hlevel.type (fun _ => Carries.give)
  · exact Carries.bind (patternOperand_carries hlevel) (fun _ => Carries.give)

theorem atOperator_steady (least : Nat) : Steady (atOperator least) where
  same := by
    intro c d hsame
    simp [atOperator, hsame]
  close := by
    intro c hc
    have hnone : c.current.operator? = none := by
      rcases hc with hc | hc
      · have hkind : c.current.kind = .endOfInput := hc
        simp [Token.operator?, hkind, Kind.spelling?]
      · have hkind : c.current.kind = .mark .closeParen := hc
        simp only [Token.operator?, hkind]
        decide +kernel
    simp [atOperator, hnone]

theorem step_of_atOperator {least : Nat} {c : Cursor} (h : atOperator least c = true) :
    c.kind ≠ .endOfInput ∧ Bracket.step S c.kind = some S := by
  rcases operator?_of_atOperator h with ⟨operator, hoperator⟩
  cases hword : c.current.isOperatorWord with
  | true =>
      rcases advance_word (S := S) hword with ⟨hend, _, hstep, _⟩
      exact ⟨hend, hstep⟩
  | false =>
      rcases joined_of_operator? hoperator hword with ⟨mark, hmark, hplain, _⟩
      have hkind : c.kind = .mark mark := hmark
      rw [hkind]
      exact ⟨by simp, Bracket.step_plain hplain S⟩

theorem continuation_carries (hlevel : level.Carries P k) (start : Span) (least : Nat) :
    P.Carries false ⟨false, S, k⟩ (fun c => atOperator least c = true)
      (continuation level start) (fun _ => ⟨false, S, k⟩) := by
  apply Carries.bind (Carries.advance (fun _ hc => step_of_atOperator hc))
  intro token
  apply Carries.skip
  cases token.operator? with
  | none => exact Carries.unexpected _
  | some operator =>
      apply Carries.bind (rightOperand_carries hlevel operator)
      intro right
      apply Carries.spanFrom
      intro span
      exact Carries.give

theorem binaryExpression_rest_balks (level : Level) (least : Nat) (start : Span) :
    Balks (do
      let function <- functionLiteral level
      match function with
      | some function => pure function
      | none =>
          let first <- operand level
          let rest <- repeatWhile (atOperator least) (continuation level start)
          pure (applyContinuations first rest)) := by
  intro c hc
  rw [bind_apply, functionLiteral_atClose hc]
  exact (operand_balks level).bind c hc

theorem binaryExpression_balks (level : Level) (least : Nat) :
    Balks (binaryExpression level least) :=
  Balks.look (fun start => binaryExpression_rest_balks level least start)

theorem binaryExpression_carries (hlevel : level.Carries P k) (least : Nat) :
    P.Carries false ⟨false, S, k⟩ pre (binaryExpression level least)
      (fun _ => ⟨false, S, k⟩) := by
  apply Carries.start (fun start => binaryExpression_rest_balks level least start)
  intro start
  apply Carries.bind (functionLiteral_carries hlevel)
  intro function
  cases function with
  | some function => exact Carries.give
  | none =>
      apply Carries.bind (operand_carries hlevel)
      intro first
      apply Carries.bind (Carries.repeatWhile (continuation_reads hlevel.keeps start least)
        (fun _ => not_atOperator_of_end) (fun htwin => (atOperator_steady least).eq htwin)
        (continuation_carries hlevel start least))
      intro rest
      exact Carries.give

end Grammar
end Linewise
