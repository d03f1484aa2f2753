import Linewise.Proofs.Joining.Extension

/-!
# Brackets that are open around an expression

What is read for an expression never closes a bracket that was open in front of it.
This is plain as long as every bracket is read by the rule that asks for it.  A statement
that is given up is skipped by counting, and the count may start too low; but it is
skipped inside of braces, and while the brackets of the tokens fit, the count is at most
the number of brackets that are open in the braces.  So it is zero at the brace that
closes them, and skipping ends there.
-/

namespace Linewise

/-!
## Tokens behind a bracket
-/

namespace Bracket

variable {bracket : Bracket} {stack stack' : List Bracket} {tokens more : List Token}

/-- Wherever the tokens fit behind `bracket`, it stays open, and behind all of them the
brackets `stack` are open in it, and maybe others between them. -/
structure Shelters (bracket : Bracket) (stack : List Bracket) (tokens : List Token) : Prop where
  parts : forall {part whole}, part <+: tokens ->
    unwind [bracket] (part.map Token.kind) = some whole -> whole ≠ []
  whole : forall {whole}, unwind [bracket] (tokens.map Token.kind) = some whole ->
    (stack ++ [bracket]).Sublist whole

theorem shelters_nil (bracket : Bracket) : Shelters bracket [] [] where
  parts := by
    intro part whole hpart hwhole
    rw [List.prefix_nil.mp hpart] at hwhole
    cases hwhole
    simp
  whole := by
    intro whole hwhole
    cases hwhole
    exact List.Sublist.refl _

theorem ne_nil_of_sublist {whole : List Bracket} (h : (stack ++ [bracket]).Sublist whole) :
    whole ≠ [] := by
  rintro rfl
  simpa using List.sublist_nil.mp h

theorem prefix_append_cases {part first second : List Token} (h : part <+: first ++ second) :
    part <+: first ∨ exists rest, part = first ++ rest ∧ rest <+: second := by
  rcases List.prefix_or_prefix_of_prefix h (List.prefix_append first second) with hpart | hpart
  · exact Or.inl hpart
  · rcases hpart with ⟨rest, rfl⟩
    exact Or.inr ⟨rest, rfl, (List.prefix_append_right_inj first).mp h⟩

theorem Shelters.token {token : Token} (h : Shelters bracket stack tokens)
    (hstep : step stack token.kind = some stack') :
    Shelters bracket stack' (tokens ++ [token]) := by
  have hwhole : forall {whole},
      unwind [bracket] ((tokens ++ [token]).map Token.kind) = some whole ->
        (stack' ++ [bracket]).Sublist whole := by
    intro whole hunwind
    rw [List.map_append, unwind_append] at hunwind
    rcases Option.bind_eq_some_iff.mp hunwind with ⟨before, hbefore, hunwind⟩
    rcases Option.bind_eq_some_iff.mp hunwind with ⟨behind, hbehind, hunwind⟩
    cases hunwind
    exact sublist_step (h.whole hbefore) (step_append [bracket] hstep) hbehind
  constructor
  · intro part whole hpart hunwind
    rcases List.prefix_concat_iff.mp hpart with rfl | hpart
    · exact ne_nil_of_sublist (hwhole hunwind)
    · exact h.parts hpart hunwind
  · exact hwhole

theorem Shelters.extend (h : Shelters bracket stack tokens)
    (hmore : forall {part whole whole'}, (stack ++ [bracket]).Sublist whole -> part <+: more ->
      unwind whole (part.map Token.kind) = some whole' -> (stack' ++ [bracket]).Sublist whole') :
    Shelters bracket stack' (tokens ++ more) := by
  have hreach : forall {part whole}, part <+: more ->
      unwind [bracket] ((tokens ++ part).map Token.kind) = some whole ->
      (stack' ++ [bracket]).Sublist whole := by
    intro part whole hpart hunwind
    rw [List.map_append, unwind_append] at hunwind
    rcases Option.bind_eq_some_iff.mp hunwind with ⟨before, hbefore, hunwind⟩
    exact hmore (h.whole hbefore) hpart hunwind
  constructor
  · intro part whole hpart hunwind
    rcases prefix_append_cases hpart with hpart | ⟨rest, rfl, hrest⟩
    · exact h.parts hpart hunwind
    · exact ne_nil_of_sublist (hreach hrest hunwind)
  · intro whole hunwind
    exact hreach (List.prefix_refl more) hunwind

theorem Shelters.trivia (h : Shelters bracket stack tokens)
    (hmore : forall t, t ∈ more -> Cursor.isTrivia t = true) :
    Shelters bracket stack (tokens ++ more) := by
  apply h.extend
  intro part whole whole' hsub hpart hunwind
  rw [unwind_trivia (fun t ht => hmore t (hpart.subset ht))] at hunwind
  cases hunwind
  exact hsub

theorem unwind_skips {above below whole : List Bracket} {count : Nat}
    {skipped rest part : List Token}
    (hskips : Cursor.Skips (.mark .closeCurly) count skipped rest) (hcount : count <= above.length)
    (hpart : part <+: skipped)
    (hunwind : unwind (above ++ .curly :: below) (part.map Token.kind) = some whole) :
    exists above', whole = above' ++ .curly :: below := by
  induction skipped generalizing above count part with
  | nil =>
      rw [List.prefix_nil.mp hpart] at hunwind
      cases hunwind
      exact ⟨above, rfl⟩
  | cons token skipped ih =>
      rcases List.prefix_cons_iff.mp hpart with rfl | ⟨part', rfl, hpart'⟩
      · cases hunwind
        exact ⟨above, rfl⟩
      rcases Option.bind_eq_some_iff.mp hunwind with ⟨behind, hbehind, hunwind⟩
      cases hcomment : token.isComment with
      | true =>
          rw [step_plain (plain_of_isComment hcomment)] at hbehind
          cases hbehind
          exact ih ((Cursor.skips_comment hcomment).mp hskips) hcount hpart' hunwind
      | false =>
          rcases (Cursor.skips_token hcomment).mp hskips with ⟨hends, hskips⟩
          rcases step_inside hbehind with ⟨above', habove', rfl⟩ | ⟨rfl, hkind⟩
          · have hdepth := bracketDepth_le hcount token
            rw [bracketDepth_length habove'] at hdepth
            exact ih hskips hdepth hpart' hunwind
          · -- the brace that closes the list ends it
            have hzero : count = 0 := Nat.le_zero.mp hcount
            simp [hzero, Cursor.endsStatement, hkind] at hends

theorem Shelters.skip {below : List Bracket} {rest : List Token}
    (h : Shelters bracket stack tokens) (hsuffix : .curly :: below <:+ stack)
    (hskips : Cursor.Skips (.mark .closeCurly) 0 more rest) :
    Shelters bracket (.curly :: below) (tokens ++ more) := by
  apply h.extend
  intro part whole whole' hsub hpart hunwind
  have hinner : (.curly :: (below ++ [bracket])).Sublist whole :=
    ((hsuffix.sublist).append_right [bracket]).trans hsub
  rcases List.cons_sublist_iff.mp hinner with ⟨front, back, rfl, hmem, hback⟩
  rcases List.append_of_mem hmem with ⟨above, middle, rfl⟩
  rw [List.append_assoc, List.cons_append] at hunwind
  rcases unwind_skips hskips (Nat.zero_le _) hpart hunwind with ⟨above', rfl⟩
  have hcurly : (.curly :: (below ++ [bracket])).Sublist (.curly :: (middle ++ back)) :=
    (hback.trans (List.sublist_append_right middle back)).cons_cons .curly
  exact hcurly.trans (List.sublist_append_right above' _)

end Bracket

/-!
## Reading behind a bracket
-/

namespace Cursor

/-- The cursor stands in a text behind `bracket`, in front of which the brackets of the
frame are open. -/
structure Sheltered (text : List Token) (bracket : Bracket) (stack : List Bracket) (c : Cursor) :
    Prop where
  fits : plainRecovery.Fits c
  read : exists read, text = read ++ c.ahead ∧ Bracket.Shelters bracket stack read

variable {text : List Token} {bracket : Bracket} {stack stack' : List Bracket} {c d : Cursor}

theorem Sheltered.passed {read : List Token} {noted : List Diagnostic}
    (h : c.Sheltered text bracket stack) (passage : c.Passage read noted d)
    (hread : forall {before}, Bracket.Shelters bracket stack before ->
      Bracket.Shelters bracket stack' (before ++ read)) : d.Sheltered text bracket stack' := by
  rcases h.read with ⟨before, htext, hbefore⟩
  refine ⟨h.fits.after passage, before ++ read, ?_, hread hbefore⟩
  rw [htext, passage.ahead, List.append_assoc]

theorem Sheltered.advance (h : c.Sheltered text bracket stack) (hend : c.kind ≠ .endOfInput)
    (hstep : Bracket.step stack c.kind = some stack') :
    c.advance.Sheltered text bracket stack' := by
  apply h.passed (advance_passage h.fits.final hend)
  intro before hbefore
  rw [← List.append_assoc]
  exact (hbefore.trivia (fun t ht => isTrivia_of_comments ht)).token hstep

theorem Sheltered.skipLineBreaks (h : c.Sheltered text bracket stack) :
    c.skipLineBreaks.Sheltered text bracket stack := by
  rcases c.skipLineBreaks_passage with ⟨read, passage, htrivia⟩
  exact h.passed passage (fun hbefore => hbefore.trivia htrivia)

theorem Sheltered.skipTrivia (h : c.Sheltered text bracket stack) :
    c.skipTrivia.Sheltered text bracket stack :=
  h.passed c.skipTrivia_passage
    (fun hbefore => hbefore.trivia (fun t ht => List.all_eq_true.mp List.all_takeWhile t ht))

theorem Sheltered.giveUp {below : List Bracket} (h : c.Sheltered text bracket stack)
    (hsuffix : .curly :: below <:+ stack) (diagnostic : Diagnostic) :
    ((c.record diagnostic).skipStatement (.mark .closeCurly)).Sheltered text bracket
      (.curly :: below) := by
  have hrecord : (c.record diagnostic).Sheltered text bracket stack :=
    ⟨⟨h.fits.tokens, h.fits.ends⟩, h.read⟩
  rcases (c.record diagnostic).skipStatement_passage (.mark .closeCurly) h.fits.final with
    ⟨skipped, passage, _⟩
  exact hrecord.passed passage
    (fun hbefore =>
      hbefore.skip hsuffix (skips_skipStatement (d := c.record diagnostic) h.fits.final passage))

end Cursor

def Correspondence.sheltered (text : List Token) (bracket : Bracket) : Correspondence where
  relabelling := .identity
  Twin σ c d := c.Sheltered text bracket σ.stack ∧ exists errors, d = { c with errors := errors }
  Said _ _ := True
  Whole := False
  Lossy := False
  lossy _ := id
  fits := by
    rintro σ c d ⟨h, errors, rfl⟩
    exact ⟨h.fits, ⟨h.fits.tokens, h.fits.ends⟩, rfl⟩
  deepen := by
    rintro σ c d depth ⟨h, errors, rfl⟩
    exact ⟨⟨⟨h.fits.tokens, h.fits.ends⟩, h.read⟩, errors, rfl⟩
  refine := by
    rintro σ τ c d hσ ⟨h, errors, rfl⟩
    rw [← hσ.stack]
    exact ⟨h, errors, rfl⟩
  current := by
    rintro σ c d ⟨_, errors, rfl⟩
    exact Or.inl rfl
  said _ _ := trivial
  saidAll _ _ _ := trivial
  previous := by
    rintro σ c d ⟨_, errors, rfl⟩ _
    rfl
  arrow := by
    rintro σ c d ⟨_, errors, rfl⟩
    rfl
  read := by
    rintro p S S' k c d ⟨h, errors, rfl⟩ _ hend _ hstep
    exact ⟨h.advance hend hstep, errors, c.advance_errors errors⟩
  skip := by
    rintro S k c d ⟨h, errors, rfl⟩
    exact ⟨h.skipLineBreaks, errors, rfl⟩
  stray := by
    rintro S k c d ⟨h, errors, rfl⟩
    exact Or.inl ⟨h.skipLineBreaks, errors, rfl⟩
  trivia := by
    rintro p S k c d _ ⟨h, errors, rfl⟩
    exact ⟨(Relabelling.comments_identity _).symm, h.skipTrivia, errors, rfl⟩
  newline := by
    rintro p S k c d _ ⟨h, errors, rfl⟩ hline
    have hstep : Bracket.step S c.kind = some S := by
      rw [hline]
      rfl
    have hadvance := h.advance (by simp [hline]) hstep
    rw [c.advance_errors errors]
    exact ⟨(Relabelling.comments_identity _).symm, hadvance.skipTrivia, errors, rfl⟩
  recover := by
    rintro terminator p S k σ c d c' d' read noted read' noted' g g' (hwhole | hstack) hsurrounds
      _ _ ⟨h, errors, rfl⟩ hsuffix _ _ _
    · exact hwhole.elim
    · rcases hsurrounds with ⟨rfl, below, rfl⟩ | ⟨_, hnone⟩
      · have hskip := Cursor.skipStatement_errors (.mark .closeCurly) (c'.record g) (errors ++ [g'])
        refine ⟨⟨h.giveUp hsuffix g, _, hskip⟩, ?_⟩
        show (({ c'.record g with errors := errors ++ [g'] } : Cursor).skipStatement _).previous = _
        rw [hskip]
        rfl
      · exact absurd hnone hstack

namespace Grammar

theorem expression_sheltered {room least : Nat} {text : List Token} {bracket : Bracket}
    {c d : Cursor} {value : Expression} (h : c.Sheltered text bracket [])
    (hok : (Level.ofRoom room).expression least c = .ok value d) :
    d.Sheltered text bracket [] := by
  have htracks : (Correspondence.sheltered text bracket).Tracks true []
      ⟨.expecting, [], false⟩ (fun _ => True) ((Level.ofRoom room).expression least)
      ((Level.ofRoom room).expression least) (fun _ => ⟨.settled, [], false⟩)
      (Expression.relabel .identity) := (tracks_ofRoom _ room).expression least
  have hreplies := htracks c c ⟨h, c.errors, rfl⟩ trivial
  nth_rewrite 1 [hok] at hreplies
  generalize (Level.ofRoom room).expression least c = reply at hreplies
  cases hreplies with
  | ok twin => exact twin.1
  | lost hlax hlossy => exact hlossy.elim

end Grammar
end Linewise
