import Linewise.Proofs.Parallel.Statement

/-!
# Tokens in other places

Two cursors stand in front of the same tokens, but the tokens stand in other places,
and one of the readings may have begun earlier.  No rule of the grammar hangs on a
place, so the two readings give the same statements, up to their spans.
-/

namespace Linewise

/-!
## Lists of tokens
-/

namespace Cursor

variable (ρ : Relabelling)

@[simp] theorem isTrivia_relabel (token : Token) :
    isTrivia (token.relabel ρ) = isTrivia token := rfl

@[simp] theorem isTrivia_comp_relabel : isTrivia ∘ Token.relabel ρ = isTrivia := rfl

@[simp] theorem isComment_comp_relabel : Token.isComment ∘ Token.relabel ρ = Token.isComment := rfl

theorem afterLineBreaks?_relabel (tokens : List Token) :
    afterLineBreaks? (tokens.map (Token.relabel ρ)) =
      (afterLineBreaks? tokens).map (List.map (Token.relabel ρ)) := by
  induction tokens with
  | nil => rfl
  | cons token rest ih =>
      simp only [List.map_cons, afterLineBreaks?, Token.relabel_isComment,
        Token.relabel_isLineBreak, ih]
      split
      · rfl
      · split
        · cases afterLineBreaks? rest <;> rfl
        · rfl

theorem endsStatement_relabel (terminator : Kind) (depth : Nat) (token : Token) :
    endsStatement terminator depth (token.relabel ρ) = endsStatement terminator depth token := rfl

theorem bracketDepth_relabel (depth : Nat) (token : Token) :
    bracketDepth depth (token.relabel ρ) = bracketDepth depth token := rfl

theorem afterStatement?_relabel (terminator : Kind) (depth : Nat) (previous previous' : Span)
    (tokens : List Token) :
    (afterStatement? terminator depth previous' (tokens.map (Token.relabel ρ))).map Prod.fst =
      ((afterStatement? terminator depth previous tokens).map Prod.fst).map
        (List.map (Token.relabel ρ)) := by
  induction tokens generalizing depth previous previous' with
  | nil => rfl
  | cons token rest ih =>
      have hends := endsStatement_relabel ρ terminator depth token
      rw [List.map_cons, afterStatement?, afterStatement?, hends, Token.relabel_isComment]
      by_cases hcomment : token.isComment = true
      · rw [if_pos hcomment, if_pos hcomment]
        exact ih depth previous previous'
      rw [if_neg hcomment, if_neg hcomment]
      by_cases hstop : endsStatement terminator depth token = true
      · rw [if_pos hstop, if_pos hstop]
        rfl
      rw [if_neg hstop, if_neg hstop, bracketDepth_relabel]
      dsimp only
      have hrest := ih (bracketDepth depth token) (spanAfter previous token)
        (spanAfter previous' (token.relabel ρ))
      generalize afterStatement? terminator (bracketDepth depth token)
        (spanAfter previous token) rest = found at hrest ⊢
      generalize afterStatement? terminator (bracketDepth depth token)
        (spanAfter previous' (token.relabel ρ)) (rest.map (Token.relabel ρ)) = found'
        at hrest ⊢
      cases found <;> cases found' <;> simp_all

theorem spanBehind_relabel (previous : Span) (tokens : List Token) :
    spanBehind (previous.relabel ρ) (tokens.map (Token.relabel ρ)) =
      (spanBehind previous tokens).relabel ρ := by
  induction tokens generalizing previous with
  | nil => rfl
  | cons token rest ih =>
      rw [List.map_cons, spanBehind, spanBehind, isTrivia_relabel]
      by_cases htrivia : isTrivia token = true
      · rw [if_pos htrivia, if_pos htrivia]
        exact ih previous
      · rw [if_neg htrivia, if_neg htrivia]
        exact ih token.span

theorem ahead_skipStatement {c d : Cursor} (h : d.ahead = c.ahead.map (Token.relabel ρ))
    (terminator : Kind) :
    (d.skipStatement terminator).ahead =
      (c.skipStatement terminator).ahead.map (Token.relabel ρ) := by
  have hafter := afterStatement?_relabel ρ terminator 0 c.previous d.previous c.ahead
  rw [← h] at hafter
  unfold skipStatement
  cases hc : afterStatement? terminator 0 c.previous c.ahead with
  | none =>
      rw [hc] at hafter
      rw [Option.map_eq_none_iff.mp hafter]
      exact h
  | some found =>
      rw [hc] at hafter
      rcases Option.map_eq_some_iff.mp hafter with ⟨found', hd, hsame⟩
      rw [hd]
      exact hsame

theorem arrowFollows_relabel (depth : Nat) (first : Bool) (tokens : List Token) :
    Grammar.arrowFollows depth first (tokens.map (Token.relabel ρ)) =
      Grammar.arrowFollows depth first tokens := by
  induction tokens generalizing depth first with
  | nil => rfl
  | cons token rest ih =>
      simp only [List.map_cons, Grammar.arrowFollows, Token.relabel_kind, ih]
      rfl

end Cursor

/-!
## Aligned cursors
-/

namespace Cursor

def Recalls (ρ : Relabelling) (σ : Frame) (c d : Cursor) : Prop :=
  (σ.stack = [] ∧ (σ.phase = .expecting ∨ σ.phase = .any)) ∨ d.previous = c.previous.relabel ρ

/-- The tokens ahead are the same in other places, and `earlier` was noted before the
second reading came here. -/
structure Aligned (ρ : Relabelling) (earlier : List Diagnostic) (σ : Frame)
    (c d : Cursor) : Prop where
  fits : plainRecovery.Fits c
  ahead : d.ahead = c.ahead.map (Token.relabel ρ)
  final : d.final = c.final.relabel ρ
  depth : d.depth = c.depth
  errors : d.errors = earlier ++ c.errors.map (Diagnostic.relabel ρ)
  previous : Recalls ρ σ c d

theorem Recalls.refine {ρ : Relabelling} {σ τ : Frame} {c d : Cursor} (h : Recalls ρ σ c d)
    (hσ : σ.Refines τ) : Recalls ρ τ c d := by
  rcases h with ⟨hstack, hphase⟩ | hsame
  · left
    have hnone : τ.stack = [] := hσ.stack.symm.trans hstack
    refine ⟨hnone, ?_⟩
    rcases hσ.phase with hne | hsame | hany | ⟨hexpecting, _⟩
    · exact absurd hnone hne
    · rwa [← hsame]
    · exact Or.inr hany
    · exact Or.inl hexpecting
  · exact Or.inr hsame

theorem Recalls.same {ρ : Relabelling} {σ : Frame} {c d : Cursor} (h : Recalls ρ σ c d)
    (hphase : σ.phase ≠ .expecting ∧ σ.phase ≠ .any) : d.previous = c.previous.relabel ρ := by
  rcases h with ⟨_, hexpecting | hany⟩ | hsame
  · exact absurd hexpecting hphase.1
  · exact absurd hany hphase.2
  · exact hsame

theorem Recalls.expecting {ρ : Relabelling} {p : Phase} {S : List Bracket} {k : Bool}
    {c d : Cursor} (h : Recalls ρ ⟨p, S, k⟩ c d) : Recalls ρ ⟨.expecting, S, k⟩ c d := by
  rcases h with ⟨hstack, _⟩ | hsame
  · exact Or.inl ⟨hstack, Or.inl rfl⟩
  · exact Or.inr hsame

namespace Aligned

variable {ρ : Relabelling} {earlier : List Diagnostic} {σ τ : Frame} {c d : Cursor}

theorem significant (h : Aligned ρ earlier σ c d) :
    d.significant = c.significant.map (Token.relabel ρ) := by
  simp [Cursor.significant, h.ahead, List.dropWhile_map]

theorem current (h : Aligned ρ earlier σ c d) : d.current = c.current.relabel ρ := by
  unfold Cursor.current
  rw [h.significant, h.final]
  cases c.significant <;> rfl

theorem kind (h : Aligned ρ earlier σ c d) : d.kind = c.kind := by
  rw [Cursor.kind, h.current]
  rfl

theorem fits' (h : Aligned ρ earlier σ c d) : plainRecovery.Fits d where
  tokens := by
    intro t ht
    rw [h.ahead] at ht
    rcases List.mem_map.mp ht with ⟨token, htoken, rfl⟩
    exact h.fits.tokens token htoken
  ends := by
    rw [h.final]
    exact h.fits.ends

theorem passed {c' d' : Cursor} {read read' : List Token} {noted : List Diagnostic}
    (h : Aligned ρ earlier σ c d) (passage : c.Passage read noted c')
    (passage' : d.Passage read' (noted.map (Diagnostic.relabel ρ)) d')
    (hahead : d'.ahead = c'.ahead.map (Token.relabel ρ)) (hprevious : Recalls ρ τ c' d') :
    Aligned ρ earlier τ c' d' where
  fits := h.fits.after passage
  ahead := hahead
  final := by rw [passage'.final, passage.final, h.final]
  depth := by rw [passage'.depth, passage.depth, h.depth]
  errors := by
    rw [passage'.errors, passage.errors, h.errors, List.map_append, List.append_assoc]
  previous := hprevious

theorem deepen (h : Aligned ρ earlier σ c d) (depth : Nat) :
    Aligned ρ earlier σ { c with depth := depth } { d with depth := depth } where
  fits := ⟨h.fits.tokens, h.fits.ends⟩
  ahead := h.ahead
  final := h.final
  depth := rfl
  errors := h.errors
  previous := h.previous

theorem refine (h : Aligned ρ earlier σ c d) (hσ : σ.Refines τ) : Aligned ρ earlier τ c d where
  fits := h.fits
  ahead := h.ahead
  final := h.final
  depth := h.depth
  errors := h.errors
  previous := h.previous.refine hσ

theorem advance (h : Aligned ρ earlier σ c d) (hend : c.kind ≠ .endOfInput)
    (hprevious : c.kind = .lineBreak -> Recalls ρ τ c d) :
    Aligned ρ earlier τ c.advance d.advance := by
  have hend' : d.kind ≠ .endOfInput := by rwa [h.kind]
  rcases Cursor.significant_of_kind_ne h.fits.final hend with ⟨rest, hrest⟩
  have hrest' : d.significant = d.current :: rest.map (Token.relabel ρ) := by
    rw [h.significant, hrest, h.current]
    rfl
  refine h.passed (Cursor.advance_passage h.fits.final hend)
    (Cursor.advance_passage h.fits'.final hend') ?_ ?_
  · rw [Cursor.advance_eq hrest hend, Cursor.advance_eq hrest' hend']
  · rw [Cursor.advance_eq hrest hend, Cursor.advance_eq hrest' hend', Recalls, Cursor.spanAfter,
      Cursor.spanAfter, h.current, Token.relabel_isLineBreak]
    cases hbreak : c.current.isLineBreak with
    | true => exact hprevious (show c.current.kind = _ by simpa [Token.isLineBreak] using hbreak)
    | false => exact Or.inr rfl

theorem skipLineBreaks (h : Aligned ρ earlier σ c d) (hprevious : Recalls ρ τ c d) :
    Aligned ρ earlier τ c.skipLineBreaks d.skipLineBreaks := by
  rcases c.skipLineBreaks_passage with ⟨read, passage, _⟩
  rcases d.skipLineBreaks_passage with ⟨read', passage', _⟩
  refine h.passed passage passage' ?_ hprevious
  simp only [Cursor.skipLineBreaks, h.ahead, Cursor.afterLineBreaks?_relabel]
  cases Cursor.afterLineBreaks? c.ahead <;> rfl

theorem skipTrivia (h : Aligned ρ earlier σ c d) (hprevious : Recalls ρ τ c d) :
    Aligned ρ earlier τ c.skipTrivia d.skipTrivia := by
  refine h.passed c.skipTrivia_passage d.skipTrivia_passage ?_ hprevious
  simp [Cursor.skipTrivia, h.ahead, List.dropWhile_map]

theorem leadingComments (h : Aligned ρ earlier σ c d) :
    d.leadingComments = c.leadingComments.map (Lexeme.relabel ρ) := by
  simp only [Cursor.leadingComments, h.ahead, List.takeWhile_map, List.filter_map,
    Cursor.isTrivia_comp_relabel, Cursor.isComment_comp_relabel, List.map_map]
  rfl

theorem clears {p : Phase} {S : List Bracket} {k : Bool} (hkept : ρ.commented = true)
    (h : Aligned ρ earlier ⟨p, S, k⟩ c d) :
    c.Clears ρ (Aligned ρ earlier ⟨.expecting, S, k⟩) d :=
  ⟨by rw [h.leadingComments, Relabelling.comments_eq_map hkept],
    h.skipTrivia h.previous.expecting⟩

theorem mayBeFunction (h : Aligned ρ earlier σ c d) :
    Grammar.mayBeFunction d = Grammar.mayBeFunction c := by
  have htokens : d.tokensAhead = c.tokensAhead.map (Token.relabel ρ) := by
    simp only [Cursor.tokensAhead, h.ahead, h.final, List.filter_map, List.map_append,
      List.map_cons, List.map_nil]
    rfl
  unfold Grammar.mayBeFunction
  rw [h.kind, htokens, Cursor.arrowFollows_relabel]

/-- A statement is given up in both readings at the same place.  At least its first
token was read, so the last tokens are the same. -/
theorem giveUp {terminator : Kind} {c' d' : Cursor} {read read' : List Token}
    {noted noted' : List Diagnostic} {g : Diagnostic} (h : Aligned ρ earlier σ c d)
    (hbegins : c.Begins terminator) (h' : Aligned ρ earlier τ c' d')
    (passage : c.Passage read noted c') (passage' : d.Passage read' noted' d') :
    Aligned ρ earlier ⟨.joined, [], false⟩ ((c'.record g).skipStatement terminator)
      ((d'.record (g.relabel ρ)).skipStatement terminator) := by
  rcases (c'.record g).skipStatement_passage terminator h'.fits.final with ⟨skipped, hskip, _⟩
  rcases (d'.record (g.relabel ρ)).skipStatement_passage terminator h'.fits'.final with
    ⟨skipped', hskip', _⟩
  rcases hbegins.passage_givenUp h'.fits.final passage hskip with ⟨hpassed, hne⟩
  have hbegins' : d.Begins terminator := by
    rcases hbegins.ahead with ⟨first, rest, hahead, htrivia⟩
    refine ⟨⟨first.relabel ρ, rest.map (Token.relabel ρ), ?_, htrivia⟩, ?_⟩
    · rw [h.ahead, hahead, List.map_cons]
    · simpa [Grammar.atListEnd, Cursor.hasTokens, Cursor.isAt, h.kind] using hbegins.inside
  rcases hbegins'.passage_givenUp h'.fits'.final passage' hskip' with ⟨hpassed', _⟩
  have hahead : ((d'.record (g.relabel ρ)).skipStatement terminator).ahead =
      ((c'.record g).skipStatement terminator).ahead.map (Token.relabel ρ) :=
    ahead_skipStatement ρ (c := c'.record g) (d := d'.record (g.relabel ρ)) h'.ahead terminator
  have hread : read' ++ skipped' = (read ++ skipped).map (Token.relabel ρ) := by
    have hwhole := hpassed'.ahead
    rw [h.ahead, hpassed.ahead, List.map_append, ← hahead] at hwhole
    exact (List.append_cancel_right hwhole).symm
  have hrecorded : Aligned ρ earlier τ (c'.record g) (d'.record (g.relabel ρ)) :=
    ⟨⟨h'.fits.tokens, h'.fits.ends⟩, h'.ahead, h'.final, h'.depth, by
      simp [Cursor.record, h'.errors], h'.previous⟩
  refine hrecorded.passed hskip hskip' hahead (Or.inr ?_)
  -- the first token is no line break, so its span takes the place of what was there
  rcases hbegins.ahead with ⟨first, rest, hfirst, htrivia⟩
  cases hall : read ++ skipped with
  | nil => exact absurd hall hne
  | cons token more =>
      have htoken : token = first := by
        have hwhole := hpassed.ahead
        rw [hfirst, hall, List.cons_append, List.cons.injEq] at hwhole
        exact hwhole.1.symm
      have hplain : isTrivia token = false := by rwa [htoken]
      rw [hpassed'.previous, hpassed.previous, hread, hall, List.map_cons, spanBehind, spanBehind,
        isTrivia_relabel, if_neg (by simp [hplain]), if_neg (by simp [hplain])]
      exact spanBehind_relabel ρ token.span more

end Aligned
end Cursor

/-!
## The correspondence
-/

def Correspondence.aligned (ρ : Relabelling) (hkept : ρ.commented = true)
    (earlier : List Diagnostic) : Correspondence where
  relabelling := ρ
  Twin := Cursor.Aligned ρ earlier
  Said g h := h = g.relabel ρ
  Whole := True
  Lossy := False
  lossy := never_lossy
  fits h := ⟨h.fits, h.fits', h.depth⟩
  deepen depth h := h.deepen depth
  refine hσ h := h.refine hσ
  current h := Or.inl h.current
  said _ _ := rfl
  saidAll h := absurd trivial h
  previous := by
    rintro σ c d h (hphase | hphase)
    · exact h.previous.same (by simp [hphase])
    · exact h.previous.same (by simp [hphase])
  arrow h := h.mayBeFunction
  read h _ hend hbreak _ := h.advance hend (fun hline => absurd hline hbreak)
  skip h := h.skipLineBreaks h.previous
  stray h := Or.inl (h.skipLineBreaks (Or.inr (h.previous.same (by simp))))
  trivia _ h := h.clears hkept
  newline _ h hline :=
    (h.advance (by simp [hline]) (fun _ => h.previous.expecting)).clears hkept
  recover := by
    intro terminator p S k σ c d c' d' read noted read' noted' g h _ _ htwin hbegins htwin' _
      passage passage' hsaid
    subst hsaid
    have hgivenUp := htwin.giveUp (g := g) hbegins htwin' passage passage'
    have hsame := hgivenUp.previous.same (by simp)
    exact ⟨⟨hgivenUp.fits, hgivenUp.ahead, hgivenUp.final, hgivenUp.depth, hgivenUp.errors,
      Or.inr hsame⟩, hsame⟩

namespace Grammar

theorem statements_aligned {ρ : Relabelling} (hkept : ρ.commented = true)
    {earlier : List Diagnostic} {c d : Cursor}
    (h : c.Aligned ρ earlier ⟨.expecting, [], false⟩ d) {found : List Statement} {c' : Cursor}
    (hfound : statements Level.outermost .endOfInput c = .ok found c') :
    exists d', statements Level.outermost .endOfInput d =
        .ok (found.map (Statement.relabel ρ)) d' ∧
      d'.errors = earlier ++ c'.errors.map (Diagnostic.relabel ρ) ∧
      d'.current = c'.current.relabel ρ := by
  have htracks : (Correspondence.aligned ρ hkept earlier).Tracks false [] ⟨.expecting, [], false⟩
      (fun _ => True) (statements Level.outermost .endOfInput)
      (statements Level.outermost .endOfInput) (fun _ => ⟨.any, [], false⟩)
      (List.map (Statement.relabel ρ)) :=
    statements_tracks (tracks_ofRoom _ _) (Or.inl trivial) (Or.inr ⟨rfl, rfl⟩)
  have hreplies := htracks c d h trivial
  rw [hfound] at hreplies
  rcases hreplies.exists_ok with ⟨d', hfound', htwin⟩
  have haligned : Cursor.Aligned ρ earlier ⟨.any, [], false⟩ c' d' := htwin
  exact ⟨d', hfound', haligned.errors, haligned.current⟩

end Grammar

end Linewise
