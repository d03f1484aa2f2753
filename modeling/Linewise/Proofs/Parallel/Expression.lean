import Linewise.Proofs.Parallel.Block
import Linewise.Proofs.Parallel.Pattern

/-!
# Expressions read side by side

The rules of the expression grammar lead pairs of cursors to pairs of cursors.  The
inputs of a function literal are tried without loss; behind an operator word the
first reading may be lost.
-/

namespace Linewise
namespace Correspondence

variable {α : Type} {K : Correspondence} {lax : Bool} {S : List Bracket} {σ : Frame}
  {pre : Cursor -> Prop}

theorem Tracks.kindAt {next next' : Kind -> Parser α} {τ : α -> Frame} {move : α -> α}
    (hmargin : forall c, pre c -> ¬ c.AtMargin)
    (h : forall kind, K.Tracks lax S σ (fun c => pre c ∧ c.kind = kind) (next kind) (next' kind)
      τ move) :
    K.Tracks lax S σ pre (Parser.currentKind >>= next) (Parser.currentKind >>= next') τ move :=
  Tracks.kindOr (fun _ hpre hc => absurd hc (hmargin _ hpre)) h

theorem Tracks.cases {first second : Parser α} {τ : α -> Frame} {move : α -> α}
    (test : Cursor -> Bool)
    (htrue : K.Tracks lax S σ (fun c => pre c ∧ test c = true) first second τ move)
    (hfalse : K.Tracks lax S σ (fun c => pre c ∧ test c = false) first second τ move) :
    K.Tracks lax S σ pre first second τ move := by
  intro c d htwin hpre
  cases htest : test c with
  | true => exact htrue c d htwin ⟨hpre, htest⟩
  | false => exact hfalse c d htwin ⟨hpre, htest⟩

end Correspondence

namespace Grammar

open Linewise.Parser
open Linewise.Correspondence

variable {K : Correspondence} {level : Level} {lax : Bool} {S : List Bracket} {p : Phase}
  {pre : Cursor -> Prop}

/-!
## Sequences
-/

theorem separators_separate (kind : Kind) (h : kind ∈ separators) :
    kind = .mark .semicolon ∨ kind = .mark .comma := by
  simpa [separators] using h

theorem not_atMargin_of_separator {c : Cursor} (h : separators.contains c.kind = true) :
    ¬ c.AtMargin := by
  rintro (hc | hc) <;> simp [separators, hc] at h

theorem sequenceOf_relabel (ρ : Relabelling) (separator : Kind) (elements : List Expression)
    (span : Span) :
    sequenceOf separator (elements.map (Expression.relabel ρ)) (span.relabel ρ) =
      (sequenceOf separator elements span).relabel ρ := by
  unfold sequenceOf
  split <;> simp [Expression.relabel]

theorem nextElement_tracks (hlevel : level.Tracks K) (separator : Kind) :
    K.Tracks true S ⟨p, S, false⟩ (fun c => separators.contains c.kind = true)
      (nextElement level separator) (nextElement level separator)
      (fun _ => ⟨.settled, S, false⟩) (Expression.relabel K.relabelling) := by
  apply Tracks.kindAt (fun _ => not_atMargin_of_separator)
  intro kind
  split
  · apply Tracks.bind (Tracks.advance (fun c hc =>
      step_separator separators_separate hc.2 (by simpa [hc.2] using hc.1)))
    intro _
    exact hlevel.expression 0
  · exact Tracks.mixedSeparators _

theorem expression_tracks (hlevel : level.Tracks K) :
    K.Tracks true S ⟨.expecting, S, false⟩ pre (expression level) (expression level)
      (fun _ => ⟨.settled, S, false⟩) (Expression.relabel K.relabelling) := by
  apply Tracks.start (fun _ => (hlevel.expression_refuses 0).bind)
    (fun _ => (hlevel.expression_refuses 0).bind)
  intro start
  apply Tracks.bind (hlevel.expression 0)
  intro first
  apply Tracks.kindOr
  · -- At the end of a line no separator follows, so the sequence is the first element.
    intro c d htwin _ hc hd _
    have hnone : forall e : Cursor, e.AtMargin -> separators.contains e.kind = false := by
      rintro e (he | he) <;> simp [separators, he]
    simp only [hnone c hc, hnone d hd]
    exact Replies.gave rfl htwin
  intro separator
  split
  · rename_i hseparator
    have hmem : separator ∈ separators := by simpa using hseparator
    have hend : forall c : Cursor, c.kind = .endOfInput -> separators.contains c.kind = false := by
      intro c hc
      simp [separators, hc]
    have hmore : forall {c d}, K.Twin ⟨.settled, S, false⟩ c d ->
        separators.contains d.kind = separators.contains c.kind := by
      intro c d htwin
      rcases alike htwin with hsame | ⟨hc, hd⟩
      · rw [kind_eq hsame]
      · rcases hc with hc | hc <;> rcases hd with hd | hd <;> simp [separators, hc, hd]
    apply Tracks.bind (Tracks.repeatWhile (nextElement_reads hlevel.keeps hmem)
      (nextElement_reads hlevel.keeps hmem) hend hmore (nextElement_tracks hlevel separator))
    intro rest
    apply Tracks.spanFrom (Or.inl rfl)
    intro span
    exact Tracks.give (sequenceOf_relabel K.relabelling separator (first :: rest) span)
  · exact Tracks.give rfl

/-!
## Subexpressions
-/

theorem parenthesizedExpression_tracks (hlevel : level.Tracks K) :
    K.Tracks lax S ⟨p, S, false⟩ pre (parenthesizedExpression level)
      (parenthesizedExpression level) (fun _ => ⟨.settled, S, false⟩)
      (Expression.relabel K.relabelling) := by
  have hrefuses : Refuses (enclosed "sequence" separators (level.expression 0)) :=
    (refuses_expectAs (by simp) (by simp) _).bind
  apply Tracks.start (fun _ => hrefuses.bind) (fun _ => hrefuses.bind)
  intro start
  apply Tracks.bind (Tracks.enclosed separators_separate (hlevel.keeps.expression 0)
    (fun _ => (hlevel.expression 0).inner.expecting))
  intro form
  apply Tracks.spanFrom (Or.inl rfl)
  intro span
  cases form with
  | unit => exact Tracks.give rfl
  | group inner => exact Tracks.give rfl
  | sequence separator elements =>
      exact Tracks.give (sequenceOf_relabel K.relabelling separator elements span)

theorem subexpression_refuses (level : Level) : Refuses (subexpression level) :=
  Refuses.kind (refuses_unexpected _) (refuses_unexpected _)

theorem subexpression_tracks (hlevel : level.Tracks K) (hbegins : forall c, pre c -> p.Begins c) :
    K.Tracks lax S ⟨p, S, false⟩ pre (subexpression level) (subexpression level)
      (fun _ => ⟨.settled, S, false⟩) (Expression.relabel K.relabelling) := by
  apply Tracks.kind (subexpression_refuses level) (subexpression_refuses level)
  intro kind
  split
  · exact Tracks.bind (Tracks.expectMark .underscore rfl) (fun _ => Tracks.give rfl)
  · exact Tracks.bind (Tracks.lowercaseName _ (fun c hc => hbegins c hc.1))
      (fun _ => Tracks.give rfl)
  · exact Tracks.bind (Tracks.capitalName _) (fun _ => Tracks.give rfl)
  · exact Tracks.bind Tracks.number (fun _ => Tracks.give rfl)
  · exact Tracks.bind Tracks.text (fun _ => Tracks.give rfl)
  · exact bracedExpression_tracks hlevel
  · exact parenthesizedExpression_tracks hlevel
  · exact Tracks.unexpected _

theorem begins_of_startsExpression {c : Cursor} (h : c.current.startsExpression = true) :
    Phase.settled.Begins c := by
  simp only [Token.startsExpression, Bool.and_eq_true, Bool.not_eq_true'] at h
  exact Or.inr (Or.inr h.2)

theorem inputs_tracks (hlevel : level.Tracks K) :
    K.Tracks lax S ⟨.settled, S, false⟩ pre (inputs level) (inputs level)
      (fun _ => ⟨.settled, S, false⟩) (List.map (Expression.relabel K.relabelling)) :=
  Tracks.repeatWhile (subexpression_reads hlevel.keeps hlevel.braced).readsIf
    (subexpression_reads hlevel.keeps hlevel.braced).readsIf
    (fun _ hend => not_startsExpression_of_end hend)
    (fun htwin => steady_startsExpression.eq (alike htwin))
    (subexpression_tracks hlevel (fun _ => begins_of_startsExpression))

/-!
## Operands
-/

theorem performExpression_tracks (hlevel : level.Tracks K) (start : Span) :
    K.Tracks lax S ⟨p, S, false⟩ (fun c => pre c ∧ c.kind = .reserved .doWord)
      (performExpression level start)
      (performExpression level (start.relabel K.relabelling)) (fun _ => ⟨.settled, S, false⟩)
      (Expression.relabel K.relabelling) := by
  apply Tracks.bind (Tracks.advanceReserved .doWord (fun c hc => hc.2))
  intro _
  apply Tracks.bind (subexpression_tracks hlevel (fun _ _ => Or.inl rfl))
  intro input
  apply Tracks.spanFrom (Or.inl rfl)
  intro span
  exact Tracks.give rfl

theorem arm_tracks (hlevel : level.Tracks K) :
    K.Tracks true S ⟨.joined, S, false⟩ pre (arm level) (arm level)
      (fun _ => ⟨.settled, S, false⟩) (Expression.relabelArm K.relabelling) := by
  apply Tracks.start (fun _ => (pattern_refuses hlevel).bind)
    (fun _ => (pattern_refuses hlevel).bind)
  intro start
  apply Tracks.bind (pattern_tracks hlevel).expecting
  intro key
  apply Tracks.bind (Tracks.expectMark .arrow rfl)
  intro _
  apply Tracks.bind Tracks.skipJoined
  intro _
  apply Tracks.bind (expression_tracks hlevel).expecting
  intro value
  apply Tracks.spanFrom (Or.inl rfl)
  intro span
  exact Tracks.give rfl

theorem whenExpression_tracks (hlevel : level.Tracks K) :
    K.Tracks lax S ⟨p, S, false⟩ pre (whenExpression level) (whenExpression level)
      (fun _ => ⟨.settled, S, false⟩) (Expression.relabel K.relabelling) := by
  apply Tracks.bind (Tracks.expectReserved .whenWord)
  intro opening
  apply Tracks.bind (subexpression_tracks hlevel (fun _ _ => Or.inl rfl))
  intro input
  apply Tracks.bind (Tracks.opening .openCurly rfl)
  intro _
  apply Tracks.bind (Tracks.lines (by simp) (by simp) (arm_reads hlevel.keeps)
    (arm_reads hlevel.keeps) (arm_tracks hlevel).inner)
  intro arms
  apply Tracks.bind (Tracks.closing .closeCurly rfl)
  intro _
  apply Tracks.spanFrom (Or.inl rfl)
  intro span
  exact Tracks.give (by simp [Expression.relabel])

theorem intrinsicExpression_tracks (hlevel : level.Tracks K) (start : Span) :
    K.Tracks lax S ⟨p, S, false⟩ (fun c => pre c ∧ c.kind = .reserved .intrinsicWord)
      (intrinsicExpression level start)
      (intrinsicExpression level (start.relabel K.relabelling))
      (fun _ => ⟨.settled, S, false⟩) (Expression.relabel K.relabelling) := by
  apply Tracks.bind (Tracks.advanceReserved .intrinsicWord (fun c hc => hc.2))
  intro _
  apply Tracks.bind Tracks.text
  intro name
  apply Tracks.bind (inputs_tracks hlevel)
  intro found
  apply Tracks.spanFrom (Or.inl rfl)
  intro span
  exact Tracks.give (by simp [Expression.relabel])

theorem applied_relabel (ρ : Relabelling) (textHead : Bool) (head : Expression)
    (inputs : List Expression) (span : Span) :
    applied textHead (head.relabel ρ) (inputs.map (Expression.relabel ρ)) (span.relabel ρ) =
      (applied textHead head inputs span).relabel ρ := by
  cases textHead with
  | false => simp [applied, Expression.relabel]
  | true => cases head <;> simp [applied, Expression.relabel]

theorem callExpression_tracks (hlevel : level.Tracks K) (start : Span) :
    K.Tracks lax S ⟨.expecting, S, false⟩ pre (callExpression level start)
      (callExpression level (start.relabel K.relabelling)) (fun _ => ⟨.settled, S, false⟩)
      (Expression.relabel K.relabelling) := by
  apply Tracks.isAt (by simp) (by simp)
  intro textHead
  apply Tracks.bind (subexpression_tracks hlevel (fun _ _ => Or.inl rfl))
  intro head
  apply Tracks.test steady_startsExpression
  intro more
  split
  · apply Tracks.bind (inputs_tracks hlevel)
    intro found
    apply Tracks.spanFrom (Or.inl rfl)
    intro span
    exact Tracks.give (applied_relabel K.relabelling textHead head found span)
  · exact Tracks.give rfl

theorem callExpression_refuses (level : Level) (start : Span) :
    Refuses (callExpression level start) := by
  apply Refuses.look
  intro c hc
  exact (subexpression_refuses level).bind c hc

theorem operand_refuses (level : Level) : Refuses (operand level) := by
  apply Refuses.look
  intro c hc
  exact Refuses.kind (callExpression_refuses level _) (callExpression_refuses level _) c hc

theorem operand_tracks (hlevel : level.Tracks K) :
    K.Tracks lax S ⟨.expecting, S, false⟩ pre (operand level) (operand level)
      (fun _ => ⟨.settled, S, false⟩) (Expression.relabel K.relabelling) := by
  apply Tracks.start
  · exact fun _ => Refuses.kind (callExpression_refuses level _) (callExpression_refuses level _)
  · exact fun _ => Refuses.kind (callExpression_refuses level _) (callExpression_refuses level _)
  intro start
  apply Tracks.kind
  · exact Refuses.kind (callExpression_refuses level _) (callExpression_refuses level _)
  · exact Refuses.kind (callExpression_refuses level _) (callExpression_refuses level _)
  intro kind
  rcases kind with _ | _ | _ | _ | _ | _ | _ | _ | mark | word
  case reserved =>
    cases word with
    | doWord => exact performExpression_tracks hlevel start
    | whenWord => exact whenExpression_tracks hlevel
    | intrinsicWord => exact intrinsicExpression_tracks hlevel start
    | _ => exact callExpression_tracks hlevel start
  all_goals exact callExpression_tracks hlevel start

/-!
## Function literals
-/

theorem functionInputs_tracks (hlevel : level.Tracks K) :
    K.Tracks lax S ⟨.expecting, S, false⟩ pre (functionInputs level) (functionInputs level)
      (fun _ => ⟨.joined, S, false⟩) (List.map (Pattern.relabel K.relabelling)) := by
  apply Tracks.bind (subpattern_tracks hlevel (fun _ _ => Or.inl rfl))
  intro first
  apply Tracks.bind (subpatterns_tracks hlevel)
  intro rest
  apply Tracks.bind (Tracks.expectMark .arrow rfl)
  intro _
  exact Tracks.give rfl

theorem functionLiteral_atMargin {c : Cursor} (hc : c.AtMargin) :
    functionLiteral level c = .ok none c := by
  have hnone : mayBeFunction c = false := by
    rcases hc with hc | hc <;> simp [mayBeFunction, Token.patternStarts, hc]
  simp [functionLiteral, bind_apply, currentSpan, look, hnone, pure_apply]

theorem functionLiteral_tracks (hlevel : level.Tracks K) :
    K.Tracks true S ⟨.expecting, S, false⟩ pre (functionLiteral level) (functionLiteral level)
      (fun found => if found.isSome then ⟨.settled, S, false⟩ else ⟨.expecting, S, false⟩)
      (Option.map (Expression.relabel K.relabelling)) := by
  have haway : K.Tracks true S ⟨.expecting, S, false⟩ (fun c => ¬ c.AtMargin)
      (functionLiteral level) (functionLiteral level)
      (fun found => if found.isSome then ⟨.settled, S, false⟩ else ⟨.expecting, S, false⟩)
      (Option.map (Expression.relabel K.relabelling)) := by
    apply Tracks.startAt (fun _ hc => hc)
    intro start
    apply Tracks.look (fun htwin _ => K.arrow htwin)
    intro worthTrying
    split
    · apply Tracks.bind (Tracks.speculate (functionInputs_reads hlevel.keeps)
        (functionInputs_reads hlevel.keeps) (fun _ _ => ⟨trivial, trivial⟩)
        (functionInputs_tracks hlevel))
      intro inputs
      cases inputs with
      | none => exact Tracks.value rfl (Frame.refines_refl _)
      | some inputs =>
          apply Tracks.bind Tracks.skipJoined
          intro _
          apply Tracks.bind (hlevel.expression 0).expecting
          intro output
          apply Tracks.spanFrom (Or.inl rfl)
          intro span
          exact Tracks.value (by simp [Expression.relabel]) (Frame.refines_refl _)
    · exact Tracks.value rfl (Frame.refines_refl _)
  intro c d htwin hpre
  by_cases hc : c.AtMargin
  · have hd : d.AtMargin := by
      rcases alike htwin with hsame | ⟨_, hd⟩
      · rwa [Cursor.AtMargin, kind_eq hsame]
      · exact hd
    rw [functionLiteral_atMargin hc, functionLiteral_atMargin hd]
    exact Replies.gave rfl htwin
  · exact haway c d htwin hc

/-!
## Operators
-/

theorem rightOperand_refuses (hlevel : level.Tracks K) (operator : Operator) :
    Refuses (rightOperand level operator) := by
  unfold rightOperand
  split
  · exact (hlevel.expression_refuses _).bind
  · exact hlevel.type_refuses.bind
  · exact (patternOperand_refuses level).bind

theorem rightOperand_tracks (hlevel : level.Tracks K) (operator : Operator) :
    K.Tracks true S ⟨.expecting, S, false⟩ pre (rightOperand level operator)
      (rightOperand level operator) (fun _ => ⟨.settled, S, false⟩)
      (Operand.relabel K.relabelling) := by
  unfold rightOperand
  split
  · exact Tracks.bind (hlevel.expression _) (fun _ => Tracks.give rfl)
  · exact Tracks.bind hlevel.type.loosen (fun _ => Tracks.give rfl)
  · exact Tracks.bind (patternOperand_tracks hlevel) (fun _ => Tracks.give rfl)

def Continuation.relabel (ρ : Relabelling) (next : Continuation) : Continuation :=
  { operator := next.operator, right := next.right.relabel ρ, span := next.span.relabel ρ }

theorem applyContinuations_relabel (ρ : Relabelling) (first : Expression)
    (rest : List Continuation) :
    applyContinuations (first.relabel ρ) (rest.map (Continuation.relabel ρ)) =
      (applyContinuations first rest).relabel ρ := by
  unfold applyContinuations
  induction rest generalizing first with
  | nil => rfl
  | cons next rest ih =>
      rw [List.map_cons, List.foldl_cons, List.foldl_cons, ← ih, Expression.relabel]
      rfl

theorem steady_atOperator (least : Nat) : K.Steady (atOperator least) where
  same := by
    intro c d hsame
    simp [atOperator, hsame]
  margin := by
    intro c hc
    have hnone : c.current.operator? = none := by
      rcases hc with hc | hc
      · have hkind : c.current.kind = .endOfInput := hc
        simp [Token.operator?, hkind, Kind.spelling?]
      · have hkind : c.current.kind = .lineBreak := hc
        simp [Token.operator?, hkind, Kind.spelling?]
    simp [atOperator, hnone]

theorem joined_of_operator? {token : Token} {operator : Operator}
    (h : token.operator? = some operator) (hword : token.isOperatorWord = false) :
    exists mark, token.kind = .mark mark ∧ Bracket.plain (.mark mark) = true ∧
      Phase.ofKind (.mark mark) = .joined := by
  unfold Token.operator? at h
  split at h
  · rw [hword] at h
    cases h
  · rename_i hname
    split at h
    · rename_i spelling hspelled
      have hkind := operator_spelled hspelled h
      rw [← hkind] at hname ⊢
      cases operator <;> first | exact ⟨_, rfl, rfl, rfl⟩ | exact absurd rfl hname
    · cases h

theorem operator?_of_atOperator {least : Nat} {c : Cursor} (h : atOperator least c = true) :
    exists operator, c.current.operator? = some operator := by
  unfold atOperator at h
  split at h
  · rename_i operator hoperator
    exact ⟨operator, hoperator⟩
  · cases h

theorem advance_mark {least : Nat} {c : Cursor} (h : atOperator least c = true)
    (hword : c.current.isOperatorWord = false) :
    c.kind ≠ .endOfInput ∧ c.kind ≠ .lineBreak ∧ Bracket.step S c.kind = some S ∧
      (p.behind c.current).Refines .joined := by
  rcases operator?_of_atOperator h with ⟨operator, hoperator⟩
  rcases joined_of_operator? hoperator hword with ⟨mark, hmark, hplain, hphase⟩
  have hkind : c.kind = .mark mark := hmark
  rw [hkind, Phase.behind_of_kind hmark (by simp), hphase]
  exact ⟨by simp, by simp, Bracket.step_plain hplain S, Phase.Refines.refl _⟩

theorem advance_word {c : Cursor} (hword : c.current.isOperatorWord = true) :
    c.kind ≠ .endOfInput ∧ c.kind ≠ .lineBreak ∧ Bracket.step S c.kind = some S ∧
      (Phase.settled.behind c.current).Refines .worded := by
  have hkind : c.kind = .lowercaseName := by
    simp only [Token.isOperatorWord, Bool.and_eq_true, beq_iff_eq] at hword
    exact hword.1
  rw [hkind]
  refine ⟨by simp, by simp, Bracket.step_plain rfl S, Or.inl ?_⟩
  rw [Phase.behind, if_pos hword]
  rfl

theorem continuationRest_tracks (hlevel : level.Tracks K) (start : Span)
    (operator : Option Operator) :
    K.Tracks true S ⟨.expecting, S, false⟩ pre
      (match operator with
        | some operator => do
            let right <- rightOperand level operator
            let span <- spanFrom start
            pure { operator := operator, right := right, span := span }
        | none => unexpected "operator")
      (match operator with
        | some operator => do
            let right <- rightOperand level operator
            let span <- spanFrom (start.relabel K.relabelling)
            pure { operator := operator, right := right, span := span }
        | none => unexpected "operator")
      (fun _ => ⟨.settled, S, false⟩) (Continuation.relabel K.relabelling) := by
  cases operator with
  | none => exact Tracks.unexpected _
  | some operator =>
      apply Tracks.bind (rightOperand_tracks hlevel operator)
      intro right
      apply Tracks.spanFrom (Or.inl rfl)
      intro span
      exact Tracks.give rfl

theorem continuation_tracks (hlevel : level.Tracks K) (start : Span) (least : Nat) :
    K.Tracks true S ⟨.settled, S, false⟩ (fun c => atOperator least c = true)
      (continuation level start) (continuation level (start.relabel K.relabelling))
      (fun _ => ⟨.settled, S, false⟩) (Continuation.relabel K.relabelling) := by
  apply Tracks.cases (fun c => c.current.isOperatorWord)
  · apply Tracks.bind (Tracks.advance (fun c hc => advance_word hc.2))
    intro token
    rw [Token.relabel_operator?]
    refine Tracks.skipWord (by simp) ?_ (continuationRest_tracks hlevel start token.operator?)
    cases token.operator? with
    | none => exact refuses_unexpected _
    | some operator => exact (rightOperand_refuses hlevel operator).bind
  · apply Tracks.bind (Tracks.advance (fun c hc => advance_mark hc.1 hc.2))
    intro token
    rw [Token.relabel_operator?]
    apply Tracks.bind Tracks.skipJoined
    intro _
    exact (continuationRest_tracks hlevel start token.operator?).expecting

theorem binaryExpression_refuses (level : Level) (least : Nat) :
    Refuses (binaryExpression level least) := by
  apply Refuses.look
  intro c hc
  rw [bind_apply, functionLiteral_atMargin hc]
  exact (operand_refuses level).bind c hc

theorem binaryExpression_tracks (hlevel : level.Tracks K) (least : Nat) :
    K.Tracks true S ⟨.expecting, S, false⟩ pre (binaryExpression level least)
      (binaryExpression level least) (fun _ => ⟨.settled, S, false⟩)
      (Expression.relabel K.relabelling) := by
  apply Tracks.start
  · intro start c hc
    rw [bind_apply, functionLiteral_atMargin hc]
    exact (operand_refuses level).bind c hc
  · intro start c hc
    rw [bind_apply, functionLiteral_atMargin hc]
    exact (operand_refuses level).bind c hc
  intro start
  apply Tracks.bind (functionLiteral_tracks hlevel)
  intro function
  cases function with
  | some function => exact Tracks.give rfl
  | none =>
      apply Tracks.bind (operand_tracks hlevel)
      intro first
      apply Tracks.bind (Tracks.repeatWhile (continuation_reads hlevel.keeps start least)
        (continuation_reads hlevel.keeps _ least) (fun _ => not_atOperator_of_end)
        (fun htwin => (steady_atOperator least).eq (alike htwin))
        (continuation_tracks hlevel start least))
      intro rest
      exact Tracks.give (applyContinuations_relabel K.relabelling first rest)

end Grammar
end Linewise
