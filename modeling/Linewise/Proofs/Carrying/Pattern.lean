import Linewise.Proofs.Carrying.Type
import Linewise.Proofs.Parallel.Pattern

/-!
# Patterns carried over

The rules of the pattern grammar carry a reading over sharply, as those of the type
grammar do.
-/

namespace Linewise
namespace Grammar

open Linewise.Parser
open Linewise.Pairing

variable {P : Pairing} {level : Level} {sharp : Bool} {S : List Bracket} {k : Nat}
  {pre : Cursor -> Prop}

/-!
## Tuples
-/

theorem behindSemicolon_reads (hlevel : level.Carries P k) :
    plainRecovery.ReadsIf 1 (fun c => c.isAt (.mark .semicolon) = true)
      (elementBehind level.pattern) Pattern.script := by
  apply elementBehind_reads _ hlevel.keeps.pattern
  intro c hc
  have hkind : c.kind = .mark .semicolon := by simpa [Cursor.isAt] using hc
  rw [hkind]
  rfl

theorem pattern_carries (hlevel : level.Carries P k) :
    P.Carries sharp ⟨false, S, k⟩ pre (pattern level) (fun _ => ⟨false, S, k⟩) := by
  have hbehind : P.Carries sharp ⟨false, S, k⟩ (fun c => c.isAt (.mark .semicolon) = true)
      (elementBehind level.pattern) (fun _ => ⟨false, S, k⟩) := by
    apply Carries.bind (Carries.advanceAt (.mark .semicolon) (by simp)
      (Bracket.step_plain rfl S) (fun _ hc => hc))
    intro _
    exact hlevel.pattern
  apply Carries.start (fun _ => hlevel.pattern_balks.bind)
  intro start
  apply Carries.bind hlevel.pattern
  intro first
  apply Carries.bind (Carries.repeatWhile (behindSemicolon_reads hlevel)
    (fun _ hend => not_isAt_of_end (by simp) hend)
    (fun htwin => (steady_isAt (by simp) (by simp)).eq htwin) hbehind)
  intro rest
  split
  · exact Carries.give
  · apply Carries.spanFrom
    intro span
    exact Carries.give

/-!
## Subpatterns
-/

theorem destructureField_carries (hlevel : level.Carries P k) :
    P.Carries sharp ⟨false, .curly :: S, k⟩ pre (destructureField level)
      (fun _ => ⟨false, .curly :: S, k⟩) := by
  apply Carries.startInside (Or.inr (by simp))
  intro start
  apply Carries.bind (Carries.lowercaseName _)
  intro name
  apply Carries.bind (Carries.expectPlain (by simp) rfl _)
  intro _
  apply Carries.skip
  apply Carries.bind (pattern_carries hlevel)
  intro value
  apply Carries.spanFrom
  intro span
  exact Carries.give

theorem destructurePattern_carries (hlevel : level.Carries P k) :
    P.Carries sharp ⟨false, S, k⟩ pre (destructurePattern level) (fun _ => ⟨false, S, k⟩) := by
  apply Carries.bind (Carries.expectAs (by simp) rfl _)
  intro opening
  apply Carries.bind (Carries.lines (destructureField_reads hlevel.keeps)
    (destructureField_carries hlevel))
  intro fields
  split
  · exact Carries.unexpected _
  · apply Carries.bind (Carries.expectAs (by simp) rfl _)
    intro _
    apply Carries.spanFrom
    intro span
    exact Carries.give

theorem enclosedPattern_carries (start : Span) (form : Enclosed Pattern) :
    P.Carries sharp ⟨false, S, k⟩ pre (enclosedPattern start form) (fun _ => ⟨false, S, k⟩) := by
  apply Carries.spanFrom
  intro span
  cases form with
  | unit => exact Carries.give
  | group pattern => exact Carries.give
  | sequence separator elements => exact Carries.give

theorem peek_of_twin {S' : List Bracket} {c d : Cursor} (htwin : P.Twin ⟨false, S, k⟩ c d)
    (hend : c.kind ≠ .endOfInput) (hstep : Bracket.step S c.kind = some S')
    (hjoins : c.kind.joins = false) :
    d.peek = d.advance.current ∧ c.peek = c.advance.current ∧
      P.Twin ⟨false, S', k⟩ c.advance d.advance := by
  rcases P.fits htwin with ⟨hc, hd⟩
  have hsame := same_of_step htwin hend hstep
  have hend' : d.kind ≠ .endOfInput := by rwa [Cursor.kind, hsame]
  have htwin' := P.read htwin hsame hend hstep
  rw [hjoins] at htwin'
  exact ⟨(Cursor.current_advance hd.final hend').symm, (Cursor.current_advance hc.final hend).symm,
    htwin'⟩

theorem opensWithoutElement_of_twin {c d : Cursor} (htwin : P.Twin ⟨false, S, k⟩ c d)
    (hkind : c.kind = .mark .openParen) : opensWithoutElement d = opensWithoutElement c := by
  have hstep : Bracket.step S c.kind = some (.round :: S) := by
    rw [hkind]
    rfl
  rcases peek_of_twin htwin (by simp [hkind]) hstep (by rw [hkind]; rfl) with
    ⟨hpeek', hpeek, htwin'⟩
  rw [opensWithoutElement, opensWithoutElement, hpeek, hpeek',
    same_of_sheltered htwin' (Or.inr (by simp))]

theorem parenthesizedPattern_carries (hlevel : level.Carries P k)
    (hpre : forall c, pre c -> c.kind = .mark .openParen) :
    P.Carries sharp ⟨false, S, k⟩ pre (parenthesizedPattern level) (fun _ => ⟨false, S, k⟩) := by
  apply Carries.startAt (fun c hc => not_atClose (hpre c hc) (by simp) (by simp))
  intro start
  apply Carries.look (fun htwin hc => opensWithoutElement_of_twin htwin (hpre _ hc))
  intro plain
  split
  · apply Carries.bind (Carries.enclosed semicolon_separates hlevel.keeps.pattern hlevel.pattern)
    intro form
    exact enclosedPattern_carries start form
  · apply Carries.bind (Carries.expectAs (by simp) rfl _)
    intro _
    apply Carries.bind hlevel.pattern
    intro first
    apply Carries.isAt (by simp) (by simp)
    intro annotated
    split
    · rename_i hannotated
      apply Carries.bind (Carries.advanceAt (.mark .doubleColon) (by simp)
        (Bracket.step_plain rfl _) (fun c hc => hc.2.trans hannotated))
      intro _
      apply Carries.skip
      apply Carries.bind hlevel.type
      intro type
      apply Carries.bind (Carries.expectAs (by simp) rfl _)
      intro _
      apply Carries.spanFrom
      intro span
      exact Carries.give
    · apply Carries.bind (Carries.enclosedRest semicolon_separates hlevel.keeps.pattern
        hlevel.pattern first false)
      intro form
      exact enclosedPattern_carries start form

theorem subpattern_balks (level : Level) : Balks (subpattern level) :=
  Balks.kind (balks_unexpected _) (balks_unexpected _)

theorem subpattern_carries (hlevel : level.Carries P k) :
    P.Carries sharp ⟨false, S, k⟩ pre (subpattern level) (fun _ => ⟨false, S, k⟩) := by
  apply Carries.kind (subpattern_balks level)
  intro kind
  split
  · exact Carries.bind (Carries.expectPlain (by simp) rfl _) (fun _ => Carries.give)
  · exact Carries.bind (Carries.lowercaseName _) (fun _ => Carries.give)
  · exact Carries.bind Carries.number (fun _ => Carries.give)
  · exact Carries.bind Carries.text (fun _ => Carries.give)
  · exact destructurePattern_carries hlevel
  · exact parenthesizedPattern_carries hlevel (fun _ hc => hc.2)
  · exact Carries.unexpected _

theorem subpatterns_carries (hlevel : level.Carries P k) :
    P.Carries sharp ⟨false, S, k⟩ pre (subpatterns level) (fun _ => ⟨false, S, k⟩) :=
  Carries.repeatWhile (subpattern_reads hlevel.keeps).readsIf
    (fun _ hend => not_startsPattern_of_end hend) (fun htwin => steady_startsPattern.eq htwin)
    (subpattern_carries hlevel)

/-!
## Pattern elements
-/

theorem patternOperand_balks (level : Level) : Balks (patternOperand level) :=
  Balks.look (fun _ => Balks.kind (subpattern_balks level) (subpattern_balks level))

theorem patternOperand_carries (hlevel : level.Carries P k) :
    P.Carries sharp ⟨false, S, k⟩ pre (patternOperand level) (fun _ => ⟨false, S, k⟩) := by
  apply Carries.start (fun _ => Balks.kind (subpattern_balks level) (subpattern_balks level))
  intro start
  apply Carries.kind (Balks.kind (subpattern_balks level) (subpattern_balks level))
  intro kind
  split
  · apply Carries.bind (Carries.advanceKind (by simp) (Bracket.step_plain rfl S)
      (fun c hc => hc.2))
    intro _
    apply Carries.bind (Carries.lowercaseName _)
    intro name
    apply Carries.spanFrom
    intro span
    exact Carries.give
  · apply Carries.bind (Carries.capitalName _)
    intro name
    apply Carries.bind (subpatterns_carries hlevel)
    intro elements
    apply Carries.spanFrom
    intro span
    exact Carries.give
  · exact subpattern_carries hlevel

theorem atOr_steady : Steady atOr where
  same := by
    intro c d hsame
    simp [atOr, Cursor.isAt, Cursor.kind, hsame]
  close := by
    rintro c (hc | hc) <;> simp [atOr, Cursor.isAt, hc]

theorem alternative_carries (hlevel : level.Carries P k) (start : Span) :
    P.Carries sharp ⟨false, S, k⟩ (fun c => atOr c = true) (alternative level start)
      (fun _ => ⟨false, S, k⟩) := by
  have hword : forall c, atOr c = true -> c.kind = .lowercaseName := by
    intro c hc
    simp only [atOr, Cursor.isAt, Bool.and_eq_true, beq_iff_eq] at hc
    exact hc.1
  apply Carries.bind (Carries.advanceKind (by simp) (Bracket.step_plain rfl S) hword)
  intro _
  apply Carries.skip
  apply Carries.bind (patternOperand_carries hlevel)
  intro right
  apply Carries.spanFrom
  intro span
  exact Carries.give

theorem orPattern_balks (level : Level) : Balks (orPattern level) :=
  Balks.look (fun _ => (patternOperand_balks level).bind)

theorem orPattern_carries (hlevel : level.Carries P k) :
    P.Carries sharp ⟨false, S, k⟩ pre (orPattern level) (fun _ => ⟨false, S, k⟩) := by
  apply Carries.start (fun _ => (patternOperand_balks level).bind)
  intro start
  apply Carries.bind (patternOperand_carries hlevel)
  intro first
  apply Carries.bind (Carries.repeatWhile (alternative_reads hlevel.keeps start)
    (fun _ => not_atOr_of_end) (fun htwin => atOr_steady.eq htwin)
    (alternative_carries hlevel start))
  intro rest
  exact Carries.give

end Grammar
end Linewise
