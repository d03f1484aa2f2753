import Linewise.Grammar.Pattern
import Linewise.Proofs.Reading.Type

/-!
# The account of patterns

What the rules of the pattern grammar read is the script of the pattern they
build.
-/

namespace Linewise
namespace Grammar

open Linewise.Parser
open Linewise.Account

variable {A : Account} {level : Level}

/-!
## Tuples
-/

theorem elementBehind_reads {α : Type} {element : Parser α} {script : α -> List Symbol}
    {pre : Cursor -> Prop} (hpre : forall c, pre c -> c.kind.isSilent = true)
    (h : A.Reads 1 element script) : A.ReadsIf 1 pre (elementBehind element) script :=
  Tells.bindIf (ReadsIf.advanceSilent hpre) (fun _ => Tells.finish h (fun _ => rfl))

theorem pattern_reads (hlevel : level.Keeps A) : A.Reads 1 (pattern level) Pattern.script := by
  apply Tells.look
  intro start
  apply Tells.bind hlevel.pattern
  intro first
  refine Tells.step (Reads.repeatWhile (elementBehind_reads ?_ hlevel.pattern) ?_)
    (fun rest => ?_)
  · intro c hc
    have hkind : c.kind = .mark .semicolon := by simpa [Cursor.isAt] using hc
    rw [hkind]
    rfl
  · intro c hend
    exact not_isAt_of_end (by simp) hend
  split
  · rename_i hrest
    rw [List.isEmpty_iff.mp hrest]
    exact Tells.pure (by simp)
  · apply Tells.look
    intro span
    exact Tells.pure (by simp [Pattern.script, Pattern.scripts, Pattern.scripts_eq_flatMap])

/-!
## Subpatterns
-/

theorem wildcardPattern_reads : A.Reads 1 wildcardPattern Pattern.script :=
  Tells.bind (Reads.expectMark .underscore) (fun _ => Tells.pure rfl)

theorem variablePattern_reads : A.Reads 1 variablePattern Pattern.script :=
  Tells.bind Reads.variableName (fun _ => Tells.pure rfl)

theorem numberPattern_reads : A.Reads 1 numberPattern Pattern.script :=
  Tells.bind Reads.number (fun _ => Tells.pure rfl)

theorem textPattern_reads : A.Reads 1 textPattern Pattern.script :=
  Tells.bind Reads.text (fun _ => Tells.pure rfl)

theorem destructureField_reads (hlevel : level.Keeps A) :
    A.Reads 1 (destructureField level) Pattern.fieldScript := by
  apply Tells.look
  intro start
  apply Tells.bind Reads.variableName
  intro name
  apply Tells.step (Reads.expectMark .colon)
  intro _
  apply Tells.step Reads.skipLineBreaks
  intro _
  apply Tells.step (pattern_reads hlevel)
  intro value
  apply Tells.look
  intro span
  exact Tells.pure (by simp [Pattern.fieldScript])

theorem destructurePattern_reads (hlevel : level.Keeps A) :
    A.Reads 1 (destructurePattern level) Pattern.script := by
  apply Tells.bind (Reads.expectMark .openCurly)
  intro opening
  apply Tells.step (Reads.lines (destructureField_reads hlevel))
  intro fields
  split
  · exact Tells.unexpected _
  · apply Tells.step (Reads.expectMark .closeCurly)
    intro _
    apply Tells.look
    intro span
    exact Tells.pure (by simp [Pattern.script, Pattern.fieldScripts_eq_flatMap])

theorem enclosedPattern_reads (start : Span) (form : Enclosed Pattern) :
    A.Tells 0 (fun _ => True) (enclosedScript Pattern.script form)
      (enclosedPattern start form) Pattern.script := by
  apply Tells.look
  intro span
  cases form with
  | unit => exact Tells.pure rfl
  | group pattern => exact Tells.pure rfl
  | sequence separator elements =>
      exact Tells.pure (by simp [enclosedScript, Pattern.script, Pattern.scripts_eq_flatMap])

theorem parenthesizedPattern_reads (hlevel : level.Keeps A) :
    A.Reads 1 (parenthesizedPattern level) Pattern.script := by
  apply Tells.look
  intro start
  apply Tells.look
  intro bare
  split
  · apply Tells.bind (Reads.enclosed hlevel.pattern
      (Pattern.script_composed Symbol.balanced_composed) semicolon_isSilent)
    intro form
    exact enclosedPattern_reads start form
  · apply Tells.bind (Reads.expectMark .openParen)
    intro _
    apply Tells.step hlevel.pattern
    intro first
    apply Tells.look
    intro annotated
    split
    · rename_i hannotated
      refine Tells.stepIf (ReadsIf.advanceMark .doubleColon ?_) (fun _ => ?_)
      · rintro c ⟨_, hc⟩
        simpa [Cursor.isAt, hannotated] using hc
      apply Tells.step Reads.skipLineBreaks
      intro _
      apply Tells.step hlevel.type
      intro type
      apply Tells.step (Reads.expectMark .closeParen)
      intro _
      apply Tells.look
      intro span
      refine Tells.ungroup [] ((Pattern.annotate first type span).script_composed
        Symbol.balanced_composed) ?_ ?_
      · simp [Pattern.script]
      · exact Tells.pure rfl
    · apply Tells.follow (Tells.enclosedRest hlevel.pattern
        (Pattern.script_composed Symbol.balanced_composed) semicolon_isSilent [] first false)
      intro form
      exact enclosedPattern_reads start form

theorem subpattern_reads (hlevel : level.Keeps A) :
    A.Reads 1 (subpattern level) Pattern.script := by
  apply Tells.look
  intro kind
  split
  · exact wildcardPattern_reads.readsIf
  · exact variablePattern_reads.readsIf
  · exact numberPattern_reads.readsIf
  · exact textPattern_reads.readsIf
  · exact (destructurePattern_reads hlevel).readsIf
  · exact (parenthesizedPattern_reads hlevel).readsIf
  · exact Tells.unexpected _

theorem not_startsPattern_of_end {c : Cursor} (h : c.kind = .endOfInput) :
    c.current.startsPattern = false := by
  have hkind : c.current.kind = .endOfInput := h
  simp [Token.startsPattern, Token.patternStarts, hkind]

theorem subpatterns_reads (hlevel : level.Keeps A) :
    A.Reads 0 (subpatterns level) Pattern.scripts := by
  refine Tells.last (Reads.repeatWhile (subpattern_reads hlevel).readsIf ?_) ?_
  · intro c hend
    exact not_startsPattern_of_end hend
  · intro patterns
    exact (Pattern.scripts_eq_flatMap patterns).symm

/-!
## Pattern elements
-/

theorem patternOperand_reads (hlevel : level.Keeps A) :
    A.Reads 1 (patternOperand level) Pattern.script := by
  apply Tells.look
  intro start
  apply Tells.look
  intro kind
  split
  · apply Tells.bindIf (ReadsIf.advanceReserved .setWord (fun c hc => hc.2))
    intro _
    apply Tells.step Reads.variableName
    intro name
    apply Tells.look
    intro span
    exact Tells.pure rfl
  · apply Tells.bind Reads.variantName
    intro name
    apply Tells.step (subpatterns_reads hlevel)
    intro elements
    apply Tells.look
    intro span
    exact Tells.pure rfl
  · exact (subpattern_reads hlevel).readsIf

def alternativeScript (alternative : Pattern × Span) : List Symbol :=
  .word .lowercaseName "or" :: alternative.1.script

theorem alternative_reads (hlevel : level.Keeps A) (start : Span) :
    A.ReadsIf 1 (fun c => atOr c = true) (alternative level start) alternativeScript := by
  have hor : A.ReadsIf 1 (fun c => atOr c = true) advance
      (fun _ => [.word .lowercaseName "or"]) := by
    apply ReadsIf.advanceWord
    intro c hc
    simp only [atOr, Cursor.isAt, Bool.and_eq_true, beq_iff_eq] at hc
    have hkind : c.current.kind = .lowercaseName := hc.1
    exact ⟨by simp [hc.1, Kind.isWord],
      by simp [Token.symbol, Kind.symbol, Kind.spelling?, hkind, hc.2]⟩
  apply Tells.bindIf hor
  intro _
  apply Tells.step Reads.skipLineBreaks
  intro _
  apply Tells.step (patternOperand_reads hlevel)
  intro right
  apply Tells.look
  intro span
  exact Tells.pure rfl

theorem script_joinAlternatives (first : Pattern) (rest : List (Pattern × Span)) :
    (joinAlternatives first rest).script = first.script ++ rest.flatMap alternativeScript := by
  induction rest generalizing first with
  | nil => simp [joinAlternatives]
  | cons alternative rest ih =>
      have hrest := ih (.or first alternative.1 alternative.2)
      simpa [joinAlternatives, Pattern.script, alternativeScript] using hrest

theorem not_atOr_of_end {c : Cursor} (h : c.kind = .endOfInput) : atOr c = false := by
  simp [atOr, Cursor.isAt, h]

theorem orPattern_reads (hlevel : level.Keeps A) :
    A.Reads 1 (orPattern level) Pattern.script := by
  apply Tells.look
  intro start
  apply Tells.bind (patternOperand_reads hlevel)
  intro first
  apply Tells.step (Reads.repeatWhile (alternative_reads hlevel start)
    (fun c hend => not_atOr_of_end hend))
  intro rest
  exact Tells.pure (script_joinAlternatives first rest).symm

end Grammar
end Linewise
