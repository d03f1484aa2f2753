import Linewise.Proofs.Extent
import Linewise.Proofs.Nesting.Visits
import Linewise.Proofs.Parallel.Statement

/-!
# Line breaks behind statements

Where reading stands in front of a line break, it has not yet passed another one behind the
token that it read last: line breaks are skipped all at once, and a statement that is given up
ends in front of the first line break outside of brackets.  This holds of one reading; it is the
reading in parallel with itself.
-/

namespace Linewise

namespace Cursor

/-!
## Behind line breaks
-/

theorem afterLineBreaks?_getD (tokens : List Token) :
    afterLineBreaks? ((afterLineBreaks? tokens).getD tokens) = none := by
  induction tokens with
  | nil => rfl
  | cons token rest ih =>
      by_cases hcomment : token.isComment = true
      · have hnext : afterLineBreaks? (token :: rest) = afterLineBreaks? rest := by
          simp [afterLineBreaks?, hcomment]
        rw [hnext]
        cases hrest : afterLineBreaks? rest with
        | none => rw [Option.getD_none, hnext, hrest]
        | some behind =>
            rw [hrest] at ih
            exact ih
      · by_cases hbreak : token.isLineBreak = true
        · simpa [afterLineBreaks?, hcomment, hbreak] using ih
        · simp [afterLineBreaks?, hcomment, hbreak]

theorem kind_skipLineBreaks {c : Cursor} (hfinal : c.final.kind = .endOfInput) :
    c.skipLineBreaks.kind ≠ .lineBreak := by
  intro hbreak
  have hnone := afterLineBreaks?_dropComments c.skipLineBreaks.ahead
  have hskipped : afterLineBreaks? c.skipLineBreaks.ahead = none := afterLineBreaks?_getD c.ahead
  rw [hskipped] at hnone
  cases hs : c.skipLineBreaks.significant with
  | nil =>
      rw [kind, current_eq_final hs] at hbreak
      exact absurd (hbreak.symm.trans hfinal) (by simp)
  | cons token rest =>
      rw [kind, current_eq hs] at hbreak
      rw [← significant, hs, afterLineBreaks?, isComment_of_significant hs] at hnone
      simp [Token.isLineBreak, hbreak] at hnone

theorem kind_skipTrivia {c : Cursor} (hfinal : c.final.kind = .endOfInput) :
    c.skipTrivia.kind ≠ .lineBreak := by
  have hhead := List.head?_dropWhile_not isTrivia c.ahead
  cases hrest : c.ahead.dropWhile isTrivia with
  | nil =>
      have hend : c.skipTrivia.kind = .endOfInput := kind_of_ahead_nil hfinal hrest
      simp [hend]
  | cons token rest =>
      rw [hrest] at hhead
      have htrivia : token.isComment = false ∧ token.isLineBreak = false := by
        simpa [isTrivia] using hhead
      have hs : c.skipTrivia.significant = token :: rest := by
        simp [significant, skipTrivia, hrest, htrivia.1]
      intro hbreak
      rw [kind, current_eq hs] at hbreak
      simp [Token.isLineBreak, hbreak] at htrivia

/-!
## The first line break
-/

/-- The tokens ahead are the end of the text, and if a line break is current, it is the first one
behind the token that was read last. -/
structure Prompt (text : List Token) (c : Cursor) : Prop where
  fits : plainRecovery.Fits c
  inside : c.ahead <:+ text
  first : c.kind = .lineBreak -> forall before, text = before ++ c.ahead ->
    forall t, t ∈ before -> t.isLineBreak = true -> t.span.stop <= c.previous.stop

namespace Prompt

variable {text : List Token} {c d : Cursor}

theorem aside (hfits : plainRecovery.Fits c) (hinside : c.ahead <:+ text)
    (hkind : c.kind ≠ .lineBreak) : Prompt text c :=
  ⟨hfits, hinside, fun hbreak => absurd hbreak hkind⟩

theorem passed {read : List Token} {noted : List Diagnostic} (h : Prompt text c)
    (passage : c.Passage read noted d) (hkind : d.kind ≠ .lineBreak) : Prompt text d :=
  aside (h.fits.after passage)
    (List.IsSuffix.trans ⟨read, passage.ahead.symm⟩ h.inside) hkind

theorem advance (hordered : Token.Ordered text) (hfits : plainRecovery.Fits c)
    (hinside : c.ahead <:+ text) (hend : c.kind ≠ .endOfInput) (hbreak : c.kind ≠ .lineBreak) :
    Prompt text c.advance := by
  have hpassage := advance_passage hfits.final hend
  rcases significant_of_kind_ne hfits.final hend with ⟨rest, hs⟩
  have hkind : c.current.kind ≠ .lineBreak := hbreak
  have hline : c.current.isLineBreak = false := by simpa [Token.isLineBreak] using hkind
  have hprevious : c.advance.previous = c.current.span := by
    rw [advance_eq hs hend]
    simp [spanAfter, hline]
  refine ⟨hfits.after hpassage, List.IsSuffix.trans ⟨_, hpassage.ahead.symm⟩ hinside, ?_⟩
  intro _ before hbefore t ht htbreak
  rcases hinside with ⟨front, hfront⟩
  rw [← hfront, hpassage.ahead, ← List.append_assoc, List.append_left_inj] at hbefore
  rw [← hbefore, ← List.append_assoc] at ht
  rcases List.mem_append.mp ht with hearlier | hcurrent
  · rw [← hfront, hpassage.ahead, List.append_assoc, ← List.append_assoc] at hordered
    have hstop := hordered.across hearlier (List.mem_append_left _ List.mem_cons_self)
    have hnonempty := hordered.right.nonempty c.current (List.mem_append_left _ List.mem_cons_self)
    rw [hprevious]
    omega
  · rw [List.mem_singleton.mp hcurrent, hline] at htbreak
    cases htbreak

theorem record (h : Prompt text c) (g : Diagnostic) : Prompt text (c.record g) :=
  ⟨⟨h.fits.tokens, h.fits.ends⟩, h.inside, h.first⟩

theorem nextLine (h : Prompt text c) (hline : c.kind = .lineBreak) :
    Prompt text c.advance.skipTrivia := by
  have hpassage := advance_passage h.fits.final (by simp [hline])
  have hfinal := (h.fits.after hpassage).final
  exact h.passed (hpassage.trans c.advance.skipTrivia_passage) (kind_skipTrivia hfinal)

theorem skipInside (hordered : Token.Ordered text) (terminator : Kind) (depth : Nat)
    (hfits : plainRecovery.Fits c) (hinside : c.ahead <:+ text)
    (h : depth = 0 -> Prompt text c) : Prompt text (c.skipInside terminator depth) := by
  generalize hlength : c.ahead.length = length
  induction length using Nat.strongRecOn generalizing c depth with
  | ind length ih =>
      rcases skipInside_step terminator depth c with ⟨hstop, hends⟩ |
        ⟨token, rest, hs, hends, hnext⟩
      · rw [hstop]
        by_cases hdepth : depth = 0
        · exact h hdepth
        · apply aside hfits hinside
          intro hbreak
          rcases significant_of_kind_ne hfits.final (by simp [hbreak]) with ⟨rest, hs⟩
          have hcurrent : c.current.kind = .lineBreak := hbreak
          have hended := hends c.current rest hs
          simp [endsStatement, hcurrent, hdepth] at hended
      · have hend : c.kind ≠ .endOfInput := by
          rw [kind, current_eq hs]
          exact kind_of_not_endsStatement hends
        have hpassage := advance_passage hfits.final hend
        rw [hnext]
        refine ih _ ?_ (bracketDepth depth token) (hfits.after hpassage)
          (List.IsSuffix.trans ⟨_, hpassage.ahead.symm⟩ hinside) ?_ rfl
        · rw [← hlength, advance_of_significant hs (kind_of_not_endsStatement hends)]
          exact length_of_significant hs
        · intro hclosed
          apply advance hordered hfits hinside hend
          intro hbreak
          rw [kind, current_eq hs] at hbreak
          simp [bracketDepth, hbreak, Kind.opensBracket, Kind.closesBracket] at hclosed
          simp [endsStatement, hclosed, Token.isLineBreak, hbreak] at hends

theorem giveUp (hordered : Token.Ordered text) (h : Prompt text c) (g : Diagnostic)
    (terminator : Kind) : Prompt text ((c.record g).skipStatement terminator) :=
  skipInside hordered terminator 0 (h.record g).fits h.inside (fun _ => h.record g)

end Prompt
end Cursor

def Correspondence.prompt {text : List Token} (hordered : Token.Ordered text) :
    Correspondence where
  relabelling := .identity
  Twin _ c d := d = c ∧ c.Prompt text
  Said g h := g = h
  Whole := True
  Lossy := False
  lossy := never_lossy
  fits := by
    rintro σ c d ⟨rfl, h⟩
    exact ⟨h.fits, h.fits, rfl⟩
  deepen := by
    rintro σ c d depth ⟨rfl, h⟩
    exact ⟨rfl, ⟨h.fits.tokens, h.fits.ends⟩, h.inside, h.first⟩
  refine _ h := h
  current := by
    rintro σ c d ⟨rfl, _⟩
    exact Or.inl rfl
  said _ _ := rfl
  saidAll h := absurd trivial h
  previous := by
    rintro σ c d ⟨rfl, _⟩ _
    rfl
  arrow := by
    rintro σ c d ⟨rfl, _⟩
    rfl
  read := by
    rintro p S S' k c d ⟨rfl, h⟩ _ hend hbreak _
    exact ⟨rfl, Cursor.Prompt.advance hordered h.fits h.inside hend hbreak⟩
  skip := by
    rintro S k c d ⟨rfl, h⟩
    rcases d.skipLineBreaks_passage with ⟨read, passage, _⟩
    exact ⟨rfl, h.passed passage (Cursor.kind_skipLineBreaks h.fits.final)⟩
  stray := by
    rintro S k c d ⟨rfl, h⟩
    rcases d.skipLineBreaks_passage with ⟨read, passage, _⟩
    exact Or.inl ⟨rfl, h.passed passage (Cursor.kind_skipLineBreaks h.fits.final)⟩
  trivia := by
    rintro p S k c d _ ⟨rfl, h⟩
    exact ⟨(Relabelling.comments_identity _).symm, rfl,
      h.passed d.skipTrivia_passage (Cursor.kind_skipTrivia h.fits.final)⟩
  newline := by
    rintro p S k c d _ ⟨rfl, h⟩ hline
    exact ⟨(Relabelling.comments_identity _).symm, rfl, h.nextLine hline⟩
  recover := by
    rintro terminator p S k σ c d c' d' read noted read' noted' g h _ _ _ _ ⟨rfl, htwin⟩ _ _ _ rfl
    exact ⟨⟨rfl, htwin.giveUp hordered g terminator⟩, rfl⟩

namespace Grammar

open Linewise.Parser

theorem recovering_prompt {text : List Token} (hordered : Token.Ordered text) {room : Nat}
    {terminator : Kind} {S : List Bracket} (hsurrounds : Bracket.Surrounds terminator S)
    {comments : List Lexeme} {c d : Cursor} {found : Statement} (hc : c.Prompt text)
    (hbegins : c.Begins terminator)
    (h : recovering terminator (statementLine (Level.ofRoom room) terminator comments) c =
      .ok found d) : d.Prompt text := by
  have hlevel := tracks_ofRoom (Correspondence.prompt hordered) room
  have hline := statementLine_tracks (S := S) (k := false) hlevel (Or.inl trivial)
    (fun c (hbegins : c.Begins terminator) => not_atMargin_of_begins hbegins) terminator comments
  have htracks := recovering_tracks (Or.inl trivial) hsurrounds
    (statementLine_reads hlevel.keeps terminator comments)
    (statementLine_reads hlevel.keeps terminator _) (fun _ hbegins => hbegins) hline
  have hreplies := htracks c c ⟨rfl, hc⟩ hbegins
  rw [h] at hreplies
  rcases hreplies.exists_ok with ⟨_, _, htwin⟩
  exact htwin.2

end Grammar

end Linewise
