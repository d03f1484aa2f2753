import Linewise.Proofs.Parallel.Type

/-!
# Patterns read side by side

The rules of the pattern grammar lead pairs of cursors to pairs of cursors.  Only
behind the word `or` may the first reading be lost, and not where nothing was noted
since the statement began.
-/

namespace Linewise
namespace Grammar

open Linewise.Parser
open Linewise.Correspondence

variable {K : Correspondence} {level : Level} {lax k : Bool} {S : List Bracket} {p : Phase}
  {pre : Cursor -> Prop}

/-!
## Tuples
-/

theorem elementBehind_tracks {α : Type} {element : Parser α} {move : α -> α} {τ : α -> Frame}
    (h : K.Tracks lax S ⟨.expecting, S, k⟩ (fun _ => True) element element τ move) :
    K.Tracks lax S ⟨p, S, k⟩ (fun c => c.isAt (.mark .semicolon) = true) (elementBehind element)
      (elementBehind element) τ move := by
  apply Tracks.bind (Tracks.advanceMark .semicolon rfl (fun _ hc => hc))
  intro _
  exact h

theorem element_reads (hlevel : level.Tracks K) :
    plainRecovery.ReadsIf 1 (fun c => c.isAt (.mark .semicolon) = true)
      (elementBehind level.pattern) Pattern.script := by
  apply elementBehind_reads _ hlevel.keeps.pattern
  intro c hc
  have hkind : c.kind = .mark .semicolon := by simpa [Cursor.isAt] using hc
  rw [hkind]
  rfl

theorem pattern_refuses (hlevel : level.Tracks K) : Refuses (pattern level) :=
  fun c hc => hlevel.pattern_refuses.bind c hc

theorem pattern_tracks (hlevel : level.Tracks K) :
    K.Tracks (!k) S ⟨.expecting, S, k⟩ pre (pattern level) (pattern level)
      (fun _ => ⟨.settled, S, k⟩) (Pattern.relabel K.relabelling) := by
  apply Tracks.start (fun _ => hlevel.pattern_refuses.bind)
    (fun _ => hlevel.pattern_refuses.bind)
  intro start
  apply Tracks.bind hlevel.pattern
  intro first
  apply Tracks.bind (Tracks.repeatWhile (element_reads hlevel) (element_reads hlevel)
    (fun _ hend => not_isAt_of_end (by simp) hend)
    (fun htwin => (steady_isAt (by simp) (by simp)).eq (alike htwin))
    (elementBehind_tracks hlevel.pattern))
  intro rest
  rw [List.isEmpty_map]
  split
  · exact Tracks.give rfl
  · apply Tracks.spanFrom (Or.inl rfl)
    intro span
    exact Tracks.give (by simp [Pattern.relabel])

/-!
## Subpatterns
-/

theorem destructureField_tracks (hlevel : level.Tracks K) :
    K.Tracks (!k) (.curly :: S) ⟨.joined, .curly :: S, k⟩ pre (destructureField level)
      (destructureField level) (fun _ => ⟨.settled, .curly :: S, k⟩)
      (Pattern.relabelField K.relabelling) := by
  have hrefuses : Refuses variableName := (refuses_expectAs (by simp) (by simp) _).bind
  apply Tracks.start (fun _ => hrefuses.bind) (fun _ => hrefuses.bind)
  intro start
  apply Tracks.bind (Tracks.lowercaseName _ (fun _ _ => Or.inr (Or.inl rfl)))
  intro name
  apply Tracks.bind (Tracks.expectMark .colon rfl)
  intro _
  apply Tracks.bind Tracks.skipJoined
  intro _
  apply Tracks.bind (pattern_tracks hlevel).expecting
  intro value
  apply Tracks.spanFrom (Or.inl rfl)
  intro span
  exact Tracks.give rfl

theorem destructurePattern_tracks (hlevel : level.Tracks K) :
    K.Tracks lax S ⟨p, S, k⟩ pre (destructurePattern level) (destructurePattern level)
      (fun _ => ⟨.settled, S, k⟩) (Pattern.relabel K.relabelling) := by
  apply Tracks.bind (Tracks.opening .openCurly rfl)
  intro opening
  apply Tracks.bind (Tracks.lines (by simp) (by simp) (destructureField_reads hlevel.keeps)
    (destructureField_reads hlevel.keeps) (destructureField_tracks hlevel).inner)
  intro fields
  rw [List.isEmpty_map]
  split
  · exact Tracks.unexpected _
  · apply Tracks.bind (Tracks.closing .closeCurly rfl)
    intro _
    apply Tracks.spanFrom (Or.inl rfl)
    intro span
    exact Tracks.give (by simp [Pattern.relabel])

theorem enclosedPattern_tracks (start : Span) (form : Enclosed Pattern) :
    K.Tracks lax S ⟨.settled, S, k⟩ pre (enclosedPattern start form)
      (enclosedPattern (start.relabel K.relabelling)
        (form.relabel (Pattern.relabel K.relabelling)))
      (fun _ => ⟨.settled, S, k⟩) (Pattern.relabel K.relabelling) := by
  apply Tracks.spanFrom (Or.inl rfl)
  intro span
  cases form with
  | unit => exact Tracks.give rfl
  | group pattern => exact Tracks.give rfl
  | sequence separator elements => exact Tracks.give (by simp [Pattern.relabel])

theorem opensWithoutElement_eq {σ : Frame} {c d : Cursor} (htwin : K.Twin σ c d)
    (hkind : c.kind = .mark .openParen) : opensWithoutElement d = opensWithoutElement c := by
  have hsame := same_of_kind htwin (not_atMargin hkind (by simp) (by simp))
  have hstep : Bracket.step σ.stack c.kind = some (.round :: σ.stack) := by
    rw [hkind]
    rfl
  have hend : c.kind ≠ .endOfInput := by simp [hkind]
  have htwin' := K.read htwin hsame hend (by simp [hkind]) hstep
  have hnext := kind_eq (same_of_sheltered htwin' (Or.inr (by simp)))
  rcases K.fits htwin with ⟨hc, hd, _⟩
  have hend' : d.kind ≠ .endOfInput := by rwa [kind_eq hsame]
  have hpeek : d.peek.kind = c.peek.kind := by
    rw [← Cursor.current_advance hc.final hend, ← Cursor.current_advance hd.final hend']
    exact hnext
  simp [opensWithoutElement, hpeek]

theorem parenthesizedPattern_tracks (hlevel : level.Tracks K)
    (hpre : forall c, pre c -> c.kind = .mark .openParen) :
    K.Tracks lax S ⟨p, S, k⟩ pre (parenthesizedPattern level) (parenthesizedPattern level)
      (fun _ => ⟨.settled, S, k⟩) (Pattern.relabel K.relabelling) := by
  apply Tracks.startAt (fun c hc => not_atMargin (hpre c hc) (by simp) (by simp))
  intro start
  apply Tracks.look (fun htwin hc => opensWithoutElement_eq htwin (hpre _ hc))
  intro plain
  split
  · apply Tracks.bind (Tracks.enclosed semicolon_separates hlevel.keeps.pattern
      (fun _ => hlevel.pattern.inner.expecting))
    intro form
    exact enclosedPattern_tracks start form
  · apply Tracks.bind (Tracks.opening .openParen rfl)
    intro _
    apply Tracks.bind hlevel.pattern.inner.expecting
    intro first
    apply Tracks.isAt (by simp) (by simp)
    intro annotated
    split
    · rename_i hannotated
      apply Tracks.bind (Tracks.advanceMark .doubleColon rfl
        (fun c hc => hc.2.trans hannotated))
      intro _
      apply Tracks.bind Tracks.skipJoined
      intro _
      apply Tracks.bind hlevel.type.inner.expecting
      intro type
      apply Tracks.bind (Tracks.closing .closeParen rfl)
      intro _
      apply Tracks.spanFrom (Or.inl rfl)
      intro span
      exact Tracks.give rfl
    · apply Tracks.bind (Tracks.enclosedRest semicolon_separates hlevel.keeps.pattern
        (fun _ => hlevel.pattern.inner.expecting) first false)
      intro form
      exact enclosedPattern_tracks start form

theorem subpattern_refuses (level : Level) : Refuses (subpattern level) :=
  Refuses.kind (refuses_unexpected _) (refuses_unexpected _)

theorem subpattern_tracks (hlevel : level.Tracks K) (hbegins : forall c, pre c -> p.Begins c) :
    K.Tracks lax S ⟨p, S, k⟩ pre (subpattern level) (subpattern level)
      (fun _ => ⟨.settled, S, k⟩) (Pattern.relabel K.relabelling) := by
  apply Tracks.kind (subpattern_refuses level) (subpattern_refuses level)
  intro kind
  split
  · exact Tracks.bind (Tracks.expectMark .underscore rfl) (fun _ => Tracks.give rfl)
  · exact Tracks.bind (Tracks.lowercaseName _ (fun c hc => hbegins c hc.1))
      (fun _ => Tracks.give rfl)
  · exact Tracks.bind Tracks.number (fun _ => Tracks.give rfl)
  · exact Tracks.bind Tracks.text (fun _ => Tracks.give rfl)
  · exact destructurePattern_tracks hlevel
  · exact parenthesizedPattern_tracks hlevel (fun _ hc => hc.2)
  · exact Tracks.unexpected _

theorem begins_of_startsPattern {c : Cursor} (h : c.current.startsPattern = true) :
    Phase.settled.Begins c := by
  simp only [Token.startsPattern, Bool.and_eq_true, Bool.not_eq_true'] at h
  exact Or.inr (Or.inr h.2)

theorem subpatterns_tracks (hlevel : level.Tracks K) :
    K.Tracks lax S ⟨.settled, S, k⟩ pre (subpatterns level) (subpatterns level)
      (fun _ => ⟨.settled, S, k⟩) (List.map (Pattern.relabel K.relabelling)) :=
  Tracks.repeatWhile (subpattern_reads hlevel.keeps).readsIf
    (subpattern_reads hlevel.keeps).readsIf (fun _ hend => not_startsPattern_of_end hend)
    (fun htwin => steady_startsPattern.eq (alike htwin))
    (subpattern_tracks hlevel (fun _ => begins_of_startsPattern))

/-!
## Pattern elements
-/

theorem patternOperand_refuses (level : Level) : Refuses (patternOperand level) := by
  apply Refuses.look
  intro c hc
  exact Refuses.kind (subpattern_refuses level) (subpattern_refuses level) c hc

theorem patternOperand_tracks (hlevel : level.Tracks K) :
    K.Tracks lax S ⟨.expecting, S, k⟩ pre (patternOperand level) (patternOperand level)
      (fun _ => ⟨.settled, S, k⟩) (Pattern.relabel K.relabelling) := by
  apply Tracks.start
  · exact fun _ => Refuses.kind (subpattern_refuses level) (subpattern_refuses level)
  · exact fun _ => Refuses.kind (subpattern_refuses level) (subpattern_refuses level)
  intro start
  apply Tracks.kind
  · exact Refuses.kind (subpattern_refuses level) (subpattern_refuses level)
  · exact Refuses.kind (subpattern_refuses level) (subpattern_refuses level)
  intro kind
  split
  · apply Tracks.bind (Tracks.advanceReserved .setWord (fun c hc => hc.2))
    intro _
    apply Tracks.bind (Tracks.lowercaseName _ (fun _ _ => Or.inl rfl))
    intro name
    apply Tracks.spanFrom (Or.inl rfl)
    intro span
    exact Tracks.give rfl
  · apply Tracks.bind (Tracks.capitalName _)
    intro name
    apply Tracks.bind (subpatterns_tracks hlevel)
    intro elements
    apply Tracks.spanFrom (Or.inl rfl)
    intro span
    exact Tracks.give (by simp [Pattern.relabel])
  · exact subpattern_tracks hlevel (fun _ _ => Or.inl rfl)

theorem steady_atOr : K.Steady atOr where
  same := by
    intro c d hsame
    simp [atOr, Cursor.isAt, kind_eq hsame, hsame]
  margin := by
    intro c hc
    rcases hc with hc | hc <;> simp [atOr, Cursor.isAt, hc]

theorem advance_atOr {c : Cursor} (h : atOr c = true) :
    c.kind ≠ .endOfInput ∧ c.kind ≠ .lineBreak ∧ Bracket.step S c.kind = some S ∧
      (Phase.settled.behind c.current).Refines .worded := by
  simp only [atOr, Cursor.isAt, Bool.and_eq_true, beq_iff_eq] at h
  rcases h with ⟨hkind, hvalue⟩
  have hcurrent : c.current.kind = .lowercaseName := hkind
  have hword : c.current.isOperatorWord = true := by
    simp [Token.isOperatorWord, Token.operatorWords, hcurrent, hvalue]
  rw [hkind]
  refine ⟨by simp, by simp, Bracket.step_plain rfl S, Or.inl ?_⟩
  rw [Phase.behind, if_pos hword]
  rfl

def relabelAlternative (ρ : Relabelling) (found : Pattern × Span) : Pattern × Span :=
  (found.1.relabel ρ, found.2.relabel ρ)

theorem alternative_tracks (hlevel : level.Tracks K) (start : Span) :
    K.Tracks (!k) S ⟨.settled, S, k⟩ (fun c => atOr c = true) (alternative level start)
      (alternative level (start.relabel K.relabelling)) (fun _ => ⟨.settled, S, k⟩)
      (relabelAlternative K.relabelling) := by
  apply Tracks.bind (Tracks.advance (fun _ hc => advance_atOr hc))
  intro _
  refine Tracks.skipWord (by simp) (patternOperand_refuses level).bind ?_
  apply Tracks.bind (patternOperand_tracks hlevel)
  intro right
  apply Tracks.spanFrom (Or.inl rfl)
  intro span
  exact Tracks.give rfl

theorem joinAlternatives_relabel (ρ : Relabelling) (first : Pattern)
    (rest : List (Pattern × Span)) :
    joinAlternatives (first.relabel ρ) (rest.map (relabelAlternative ρ)) =
      (joinAlternatives first rest).relabel ρ := by
  unfold joinAlternatives
  induction rest generalizing first with
  | nil => rfl
  | cons next rest ih =>
      rw [List.map_cons, List.foldl_cons, List.foldl_cons, ← ih]
      rfl

theorem orPattern_refuses (level : Level) : Refuses (orPattern level) :=
  fun c hc => (patternOperand_refuses level).bind c hc

theorem orPattern_tracks (hlevel : level.Tracks K) :
    K.Tracks (!k) S ⟨.expecting, S, k⟩ pre (orPattern level) (orPattern level)
      (fun _ => ⟨.settled, S, k⟩) (Pattern.relabel K.relabelling) := by
  apply Tracks.start (fun _ => (patternOperand_refuses level).bind)
    (fun _ => (patternOperand_refuses level).bind)
  intro start
  apply Tracks.bind (patternOperand_tracks hlevel)
  intro first
  apply Tracks.bind (Tracks.repeatWhile (alternative_reads hlevel.keeps start)
    (alternative_reads hlevel.keeps _) (fun _ => not_atOr_of_end)
    (fun htwin => steady_atOr.eq (alike htwin)) (alternative_tracks hlevel start))
  intro rest
  exact Tracks.give (joinAlternatives_relabel K.relabelling first rest)

end Grammar
end Linewise
