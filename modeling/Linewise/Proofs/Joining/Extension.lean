import Linewise.Proofs.Joining.Course

/-!
# A text that goes on

A text is read twice: once as it is, and once with a line break and more lines behind
it.  The two readings agree as long as they stay inside of the text.  Its brackets are
matched and its last token ends an operand, so nothing leads the second reading
further: neither a joint at the end, nor a bracket that stays open, nor a statement
inside of braces that is given up, nor the search for an arrow.
-/

namespace Linewise

/-!
## Inside of brackets
-/

namespace Bracket

def Inside (stack : List Bracket) (tokens : List Token) : Prop :=
  exists whole, unwind whole (tokens.map Token.kind) = some [] ∧ stack.Sublist whole

variable {stack stack' : List Bracket} {tokens : List Token}

theorem Inside.ne_nil (h : Inside stack tokens) (hstack : stack ≠ []) : tokens ≠ [] := by
  rintro rfl
  rcases h with ⟨whole, hwhole, hsub⟩
  cases hwhole
  exact hstack (List.sublist_nil.mp hsub)

theorem Inside.suffix (h : Inside stack tokens) (hsuffix : stack' <:+ stack) :
    Inside stack' tokens := by
  rcases h with ⟨whole, hwhole, hsub⟩
  exact ⟨whole, hwhole, hsuffix.sublist.trans hsub⟩

theorem sublist_step {whole whole' : List Bracket} {kind : Kind} (hsub : stack.Sublist whole)
    (hstep : step stack kind = some stack') (hwhole : step whole kind = some whole') :
    stack'.Sublist whole' := by
  cases turn kind with
  | plain hplain _ _ =>
      rw [step_plain hplain] at hstep hwhole
      cases hstep
      cases hwhole
      exact hsub
  | opens bracket hopened _ =>
      simp only [step, hopened, Option.some.injEq] at hstep hwhole
      rw [← hstep, ← hwhole]
      exact hsub.cons_cons bracket
  | closes bracket hopened hclosed _ _ =>
      cases stack with
      | nil => simp [step, hopened, hclosed] at hstep
      | cons top below =>
          cases whole with
          | nil => simp [step, hopened, hclosed] at hwhole
          | cons top' below' =>
              simp only [step, hopened, hclosed] at hstep hwhole
              split at hstep
              · rename_i htop
                split at hwhole
                · rename_i htop'
                  cases hstep
                  cases hwhole
                  rw [htop, htop'] at hsub
                  exact List.cons_sublist_cons.mp hsub
                · cases hwhole
              · cases hstep

theorem Inside.read {token : Token} (h : Inside stack (token :: tokens))
    (hstep : step stack token.kind = some stack') : Inside stack' tokens := by
  rcases h with ⟨whole, hwhole, hsub⟩
  rcases Option.bind_eq_some_iff.mp hwhole with ⟨whole', hwhole', hrest⟩
  exact ⟨whole', hrest, sublist_step hsub hstep hwhole'⟩

theorem step_inside {above below whole : List Bracket} {kind : Kind}
    (h : step (above ++ .curly :: below) kind = some whole) :
    (exists above', step above kind = some above' ∧ whole = above' ++ .curly :: below) ∨
      (above = [] ∧ kind = .mark .closeCurly) := by
  cases turn kind with
  | plain hplain _ _ =>
      rw [step_plain hplain, Option.some.injEq] at h
      exact Or.inl ⟨above, step_plain hplain above, h.symm⟩
  | opens bracket hopened _ =>
      simp only [step, hopened, Option.some.injEq] at h
      exact Or.inl ⟨bracket :: above, by simp [step, hopened], h.symm⟩
  | closes bracket hopened hclosed _ _ =>
      cases above with
      | nil =>
          simp only [List.nil_append, step, hopened, hclosed] at h
          split at h
          · rename_i hcurly
            rw [← hcurly] at hclosed
            exact Or.inr ⟨rfl, kind_of_closed hclosed⟩
          · cases h
      | cons top above =>
          simp only [List.cons_append, step, hopened, hclosed] at h
          split at h
          · rename_i htop
            rw [Option.some.injEq] at h
            exact Or.inl ⟨above, by simp [step, hopened, hclosed, htop], h.symm⟩
          · cases h

theorem Inside.breaks {breaks : List Token} (h : Inside stack (breaks ++ tokens))
    (hbreaks : forall t, t ∈ breaks -> t.isLineBreak = true) : Inside stack tokens := by
  rcases h with ⟨whole, hwhole, hsub⟩
  have htrivia : forall t, t ∈ breaks -> Cursor.isTrivia t = true :=
    fun t ht => Cursor.isTrivia_of_isLineBreak (hbreaks t ht)
  rw [List.map_append, unwind_append, unwind_trivia htrivia] at hwhole
  exact ⟨whole, hwhole, hsub⟩

end Bracket

namespace Cursor

theorem skipStatement_eq {terminator : Kind} {c : Cursor} {rest : List Token} {previous : Span}
    (h : (afterStatement? terminator 0 c.previous c.ahead).getD (c.ahead, c.previous) =
      (rest, previous)) :
    c.skipStatement terminator = { c with ahead := rest, previous := previous } := by
  unfold skipStatement
  cases hafter : afterStatement? terminator 0 c.previous c.ahead with
  | none =>
      rw [hafter, Option.getD_none, Prod.mk.injEq] at h
      rw [← h.1, ← h.2]
  | some found =>
      rw [hafter, Option.getD_some] at h
      rw [h]

theorem afterStatement?_token {terminator : Kind} {depth : Nat} {previous : Span} {token : Token}
    {rest : List Token} (hcomment : token.isComment = false)
    (hends : endsStatement terminator depth token = false) :
    (afterStatement? terminator depth previous (token :: rest)).getD (token :: rest, previous) =
      (afterStatement? terminator (bracketDepth depth token) (spanBehind previous [token])
        rest).getD (rest, spanBehind previous [token]) := by
  have hspan : spanBehind previous [token] = spanAfter previous token := by
    simp [spanBehind, spanAfter, isTrivia, hcomment]
  rw [hspan, afterStatement?, if_neg (by simp [hcomment]), if_neg (by simp [hends])]
  rfl

theorem afterStatement?_inside {below : List Bracket} {tokens : List Token}
    (hplain : forall t, t ∈ tokens -> t.isComment = false) {above : List Bracket} {depth : Nat}
    (hdepth : depth <= above.length)
    (h : Bracket.unwind (above ++ .curly :: below) (tokens.map Token.kind) = some []) :
    exists skipped rest above', tokens = skipped ++ rest ∧
      Bracket.unwind (above' ++ .curly :: below) (rest.map Token.kind) = some [] ∧
      forall previous more,
        (afterStatement? (.mark .closeCurly) depth previous (tokens ++ more)).getD
          (tokens ++ more, previous) = (rest ++ more, spanBehind previous skipped) := by
  induction tokens generalizing above depth with
  | nil => simp at h
  | cons token tokens ih =>
      have hcomment := hplain token (by simp)
      cases hends : endsStatement (.mark .closeCurly) depth token with
      | true =>
          refine ⟨[], token :: tokens, above, rfl, h, ?_⟩
          intro previous more
          simp [afterStatement?, hcomment, hends, spanBehind]
      | false =>
          rcases Option.bind_eq_some_iff.mp h with ⟨whole, hstep, hrest⟩
          rcases Bracket.step_inside hstep with ⟨above', hstep', rfl⟩ | ⟨hnone, hkind⟩
          case inr =>
            have hzero : depth = 0 := by simpa [hnone] using hdepth
            simp [endsStatement, hkind, hzero] at hends
          have hdepth' : bracketDepth depth token <= above'.length := by
            rw [← Bracket.bracketDepth_length hstep']
            exact Bracket.bracketDepth_le hdepth token
          rcases ih (fun t ht => hplain t (by simp [ht])) hdepth' hrest with
            ⟨skipped, rest, above'', htokens, hinside, hafter⟩
          refine ⟨token :: skipped, rest, above'', by rw [htokens]; rfl, hinside, ?_⟩
          intro previous more
          rw [List.cons_append, afterStatement?_token hcomment hends, hafter]
          rfl

end Cursor

/-!
## Looking for an arrow
-/

namespace Grammar

def counted (stack : List Bracket) : Nat := stack.countP (fun bracket => bracket ≠ .square)

theorem counted_step {stack stack' : List Bracket} {kind : Kind}
    (h : Bracket.step stack kind = some stack') :
    (kind = .mark .openParen ∨ kind = .mark .openCurly -> counted stack' = counted stack + 1) ∧
    (kind = .mark .closeParen ∨ kind = .mark .closeCurly -> counted stack = counted stack' + 1) ∧
    (kind ≠ .mark .openParen -> kind ≠ .mark .openCurly -> kind ≠ .mark .closeParen ->
      kind ≠ .mark .closeCurly -> counted stack' = counted stack) := by
  cases kind with
  | mark found =>
      cases found with
      | openParen | openCurly | openBracket =>
          cases h
          simp [counted]
      | closeParen | closeCurly | closeBracket =>
          cases stack with
          | nil => cases h
          | cons top below =>
              simp only [Bracket.step, Kind.opened?, Kind.closed?] at h
              split at h
              · cases h
                simp_all [counted]
              · cases h
      | _ => cases h; simp
  | _ => cases h; simp

theorem arrowFollows_margin {token : Token} {rest : List Token}
    (h : token.kind = .lineBreak ∨ token.kind = .endOfInput) :
    arrowFollows 0 false (token :: rest) = false := by
  rcases h with hkind | hkind
  · simp [arrowFollows, hkind, Token.startsPattern, Token.patternStarts]
  · simp [arrowFollows, hkind]

theorem arrowFollows_append {rest rest' tokens : List Token}
    (hends : arrowFollows 0 false rest = false) (hends' : arrowFollows 0 false rest' = false)
    {stack : List Bracket} {depth : Nat} {first : Bool}
    (hstack : Bracket.unwind stack (tokens.map Token.kind) = some [])
    (hdepth : depth <= counted stack) (hfirst : first = true -> tokens ≠ []) :
    arrowFollows depth first (tokens ++ rest') = arrowFollows depth first (tokens ++ rest) := by
  induction tokens generalizing stack depth first with
  | nil =>
      cases hstack
      have hzero : depth = 0 := Nat.le_zero.mp hdepth
      have hlater : first = false := by
        cases first with
        | false => rfl
        | true => exact absurd rfl (hfirst rfl)
      rw [hzero, hlater, List.nil_append, List.nil_append, hends, hends']
  | cons head tokens ih =>
      rcases Option.bind_eq_some_iff.mp hstack with ⟨stack', hstep, hrest⟩
      rcases counted_step hstep with ⟨hopens, hcloses, hother⟩
      have hnext : forall depth, depth <= counted stack' ->
          arrowFollows depth false (tokens ++ rest') =
            arrowFollows depth false (tokens ++ rest) :=
        fun _ hle => ih hrest hle (by simp)
      rw [List.cons_append, List.cons_append, arrowFollows, arrowFollows]
      split
      · rfl
      · rename_i hkind
        exact hnext _ (by rw [hopens (Or.inl hkind)]; omega)
      · rename_i hkind
        exact hnext _ (by rw [hopens (Or.inr hkind)]; omega)
      · rename_i kind _ hround hcurly
        by_cases hinside : depth > 0
        · rw [if_pos hinside, if_pos hinside]
          by_cases hclose : head.kind = .mark .closeParen ∨ head.kind = .mark .closeCurly
          · have htest : (decide (head.kind = .mark .closeParen) ||
                decide (head.kind = .mark .closeCurly)) = true := by simpa using hclose
            have hcount := hcloses hclose
            rw [if_pos htest, if_pos htest]
            exact hnext _ (by omega)
          · have htest : ¬ (decide (head.kind = .mark .closeParen) ||
                decide (head.kind = .mark .closeCurly)) = true := by simpa using hclose
            have hcount := hother hround hcurly (fun h => hclose (Or.inl h))
              (fun h => hclose (Or.inr h))
            rw [if_neg htest, if_neg htest]
            exact hnext _ (by omega)
        · have hzero : depth = 0 := by omega
          rw [if_neg hinside, if_neg hinside, hzero, hnext 0 (Nat.zero_le _)]

end Grammar

/-!
## Extensions
-/

structure Extension where
  /-- The tokens of the text, without the line breaks at its end. -/
  tokens : List Token
  /-- The line breaks at its end. -/
  breaks : List Token
  /-- The line break that stands behind the text in the longer one. -/
  newline : Token
  /-- What follows in the longer text. -/
  more : List Token
  /-- The last token may be an operator word. -/
  Soft : Prop
  plain : forall t, t ∈ tokens -> t.isComment = false ∧ t.kind ≠ .endOfInput
  blank : forall t, t ∈ breaks -> t.isLineBreak = true
  line : newline.isLineBreak = true
  closed : forall t, tokens.getLast? = some t ->
    Phase.ofKind t.kind = .settled ∧ (t.isOperatorWord = true -> Soft)
  unworded : Soft -> Course.start.run tokens ≠ some ⟨.worded, []⟩

namespace Extension

structure At (e : Extension) (ahead : List Token) (σ : Frame) (c d : Cursor) : Prop where
  fits : plainRecovery.Fits c
  fits' : plainRecovery.Fits d
  depth : d.depth = c.depth
  previous : d.previous = c.previous
  errors : d.errors.length = c.errors.length
  clean : σ.clean = true -> c.errors = []
  suffix : ahead <:+ e.tokens
  shorter : c.ahead = ahead ++ e.breaks
  longer : d.ahead = ahead ++ e.newline :: e.more
  inside : Bracket.Inside σ.stack ahead
  joined : σ.phase = .joined -> ahead ≠ []
  worded : σ.phase = .worded -> ahead ≠ [] ∨ e.Soft
  follows : e.Soft -> c.errors = [] -> Follows e.tokens ahead σ

variable {e : Extension} {ahead : List Token} {σ τ : Frame} {c d : Cursor} {p : Phase}
  {S S' : List Bracket} {k : Bool}

theorem getLast?_suffix (hsuffix : ahead <:+ e.tokens) (hne : ahead ≠ []) :
    ahead.getLast? = e.tokens.getLast? := by
  rcases hsuffix with ⟨before, hbefore⟩
  rw [← hbefore, List.getLast?_append_of_ne_nil before hne]

namespace At

theorem start (hc : plainRecovery.Fits c) (hd : plainRecovery.Fits d) (hdepth : d.depth = c.depth)
    (hprevious : d.previous = c.previous) (hclean : c.errors = []) (hclean' : d.errors = [])
    (hshorter : c.ahead = e.tokens ++ e.breaks)
    (hlonger : d.ahead = e.tokens ++ e.newline :: e.more)
    (hmatched : Bracket.Matched (e.tokens.map Token.kind)) :
    e.At e.tokens ⟨.expecting, [], true⟩ c d where
  fits := hc
  fits' := hd
  depth := hdepth
  previous := hprevious
  errors := by rw [hclean, hclean']
  clean := fun _ => hclean
  suffix := List.suffix_refl _
  shorter := hshorter
  longer := hlonger
  inside := ⟨[], hmatched, List.Sublist.refl _⟩
  joined := by simp
  worded := by simp
  follows := fun _ _ => Follows.begin e.tokens true

theorem plain (h : e.At ahead σ c d) {t : Token} (ht : t ∈ ahead) :
    t.isComment = false ∧ t.kind ≠ .endOfInput :=
  e.plain t (h.suffix.subset ht)

theorem current_cons {token : Token} {rest : List Token} (h : e.At (token :: rest) σ c d) :
    c.current = token ∧ d.current = token := by
  have hcomment := (h.plain (List.mem_cons_self ..)).1
  constructor
  · simp [Cursor.current, Cursor.significant, h.shorter, hcomment]
  · simp [Cursor.current, Cursor.significant, h.longer, hcomment]

theorem margin (h : e.At [] σ c d) : c.AtMargin ∧ d.AtMargin ∧ σ.stack = [] := by
  refine ⟨?_, ?_, ?_⟩
  · have hahead : c.ahead = e.breaks := h.shorter
    cases hbreaks : e.breaks with
    | nil => exact Or.inl (Cursor.kind_of_ahead_nil h.fits.final (hahead.trans hbreaks))
    | cons token rest =>
        have hkind : token.kind = .lineBreak := by
          simpa [Token.isLineBreak] using e.blank token (by simp [hbreaks])
        right
        simp [Cursor.kind, Cursor.current, Cursor.significant, hahead, hbreaks, Token.isComment,
          hkind]
  · have hkind : e.newline.kind = .lineBreak := by simpa [Token.isLineBreak] using e.line
    right
    simp [Cursor.kind, Cursor.current, Cursor.significant, h.longer, Token.isComment, hkind]
  · by_cases hnone : σ.stack = []
    · exact hnone
    · exact absurd rfl (h.inside.ne_nil hnone)

theorem exists_cons (h : e.At ahead σ c d) (hmargin : ¬ c.AtMargin) :
    exists rest, ahead = c.current :: rest := by
  cases ahead with
  | nil => exact absurd h.margin.1 hmargin
  | cons token rest => exact ⟨rest, by rw [h.current_cons.1]⟩

theorem refine (h : e.At ahead σ c d) (hσ : σ.Refines τ) : e.At ahead τ c d := by
  have hinside : Bracket.Inside τ.stack ahead := by
    rw [← hσ.stack]
    exact h.inside
  have hphase : forall q, q = .joined ∨ q = .worded -> τ.phase = q ->
      ahead ≠ [] ∨ σ.phase = q := by
    intro q hq hτ
    rcases hσ.phase with hne | hsame | hany | ⟨hexpecting, _⟩
    · exact Or.inl (hinside.ne_nil hne)
    · exact Or.inr (hsame.trans hτ)
    · rcases hq with rfl | rfl <;> rw [hany] at hτ <;> cases hτ
    · rcases hq with rfl | rfl <;> rw [hexpecting] at hτ <;> cases hτ
  exact {
    fits := h.fits
    fits' := h.fits'
    depth := h.depth
    previous := h.previous
    errors := h.errors
    clean := fun hclean => h.clean (hσ.clean hclean)
    suffix := h.suffix
    shorter := h.shorter
    longer := h.longer
    inside := hinside
    joined := by
      intro hτ
      rcases hphase .joined (Or.inl rfl) hτ with hne | hjoined
      · exact hne
      · exact h.joined hjoined
    worded := by
      intro hτ
      rcases hphase .worded (Or.inr rfl) hτ with hne | hworded
      · exact Or.inl hne
      · exact h.worded hworded
    follows := fun hsoft hnone => (h.follows hsoft hnone).refine hσ }

theorem deepen (h : e.At ahead σ c d) (depth : Nat) :
    e.At ahead σ { c with depth := depth } { d with depth := depth } where
  fits := ⟨h.fits.tokens, h.fits.ends⟩
  fits' := ⟨h.fits'.tokens, h.fits'.ends⟩
  depth := rfl
  previous := h.previous
  errors := h.errors
  clean := h.clean
  suffix := h.suffix
  shorter := h.shorter
  longer := h.longer
  inside := h.inside
  joined := h.joined
  worded := h.worded
  follows := h.follows

theorem read {token : Token} {rest : List Token} (h : e.At (token :: rest) ⟨p, S, k⟩ c d)
    (hbreak : token.isLineBreak = false) (hstep : Bracket.step S token.kind = some S') :
    e.At rest ⟨p.behind token, S', k⟩ c.advance d.advance := by
  rcases h.plain (List.mem_cons_self ..) with ⟨hcomment, hend⟩
  rcases h.current_cons with ⟨hcurrent, hcurrent'⟩
  have hc : c.advance =
      { c with ahead := rest ++ e.breaks, previous := Cursor.spanAfter c.previous token } := by
    have hsignificant : c.significant = c.current :: (rest ++ e.breaks) := by
      simp [Cursor.significant, h.shorter, hcomment, hcurrent]
    rw [Cursor.advance_eq hsignificant (by rwa [Cursor.kind, hcurrent]), hcurrent]
  have hd : d.advance =
      { d with
        ahead := rest ++ e.newline :: e.more
        previous := Cursor.spanAfter d.previous token } := by
    have hsignificant : d.significant = d.current :: (rest ++ e.newline :: e.more) := by
      simp [Cursor.significant, h.longer, hcomment, hcurrent']
    rw [Cursor.advance_eq hsignificant (by rwa [Cursor.kind, hcurrent']), hcurrent']
  -- the last token ends an operand, so no joint stands at the end
  have hlast : rest = [] -> Phase.ofKind token.kind = .settled ∧
      (token.isOperatorWord = true -> e.Soft) := by
    rintro rfl
    exact e.closed token ((getLast?_suffix h.suffix (by simp)).symm.trans rfl)
  have hsuffix : rest <:+ e.tokens := (List.suffix_cons token rest).trans h.suffix
  rw [hc, hd]
  exact {
    fits := ⟨fun t ht => h.fits.tokens t (by
      rw [h.shorter]
      exact List.mem_cons_of_mem token ht), h.fits.ends⟩
    fits' := ⟨fun t ht => h.fits'.tokens t (by
      rw [h.longer]
      exact List.mem_cons_of_mem token ht), h.fits'.ends⟩
    depth := h.depth
    previous := by rw [h.previous]
    errors := h.errors
    clean := h.clean
    suffix := hsuffix
    shorter := rfl
    longer := rfl
    inside := h.inside.read hstep
    joined := by
      intro hjoined hnone
      have hjoined : p.behind token = .joined := hjoined
      unfold Phase.behind at hjoined
      split at hjoined
      · cases p <;> cases hjoined
      · rw [(hlast hnone).1] at hjoined
        cases hjoined
    worded := by
      intro hworded
      have hworded : p.behind token = .worded := hworded
      by_cases hnone : rest = []
      · right
        unfold Phase.behind at hworded
        split at hworded
        · rename_i hword
          exact (hlast hnone).2 hword
        · rw [(hlast hnone).1] at hworded
          cases hworded
      · exact Or.inl hnone
    follows := fun hsoft hnone => (h.follows hsoft hnone).read hbreak hstep }

theorem moved {breaks rest : List Token} (h : e.At (breaks ++ rest) ⟨p, S, k⟩ c d)
    (hbreaks : forall t, t ∈ breaks -> t.isLineBreak = true) (hrest : rest ≠ [])
    (hp : S ≠ [] ∨ p = .joined ∨ p = .worded) :
    e.At rest ⟨p, S, k⟩ { c with ahead := rest ++ e.breaks }
      { d with ahead := rest ++ e.newline :: e.more } where
  fits := ⟨fun t ht => h.fits.tokens t (by
    rw [h.shorter, List.append_assoc]
    exact List.mem_append_right breaks ht), h.fits.ends⟩
  fits' := ⟨fun t ht => h.fits'.tokens t (by
    rw [h.longer, List.append_assoc]
    exact List.mem_append_right breaks ht), h.fits'.ends⟩
  depth := h.depth
  previous := h.previous
  errors := h.errors
  clean := h.clean
  suffix := (List.suffix_append breaks rest).trans h.suffix
  shorter := rfl
  longer := rfl
  inside := h.inside.breaks hbreaks
  joined := fun _ => hrest
  worded := fun _ => Or.inl hrest
  follows := fun hsoft hnone => (h.follows hsoft hnone).breaks hbreaks hp

theorem split (h : e.At ahead σ c d) (hne : ahead ≠ []) :
    exists breaks rest, ahead = breaks ++ rest ∧ rest ≠ [] ∧
      (forall t, t ∈ breaks -> t.isLineBreak = true) ∧
      (forall more t, (rest ++ more).head? = some t -> Cursor.isTrivia t = false) := by
  rcases Token.split_breaks (fun t ht => (h.plain ht).1) with
    ⟨breaks, rest, hahead, hbreaks, hrest⟩
  have hsome : rest ≠ [] := by
    intro hnone
    have hall : ahead = breaks := by rw [hahead, hnone, List.append_nil]
    have hlast := List.getLast?_eq_some_getLast hne
    have hkind : (ahead.getLast hne).kind = .lineBreak := by
      have hmem : ahead.getLast hne ∈ breaks := hall ▸ List.getLast_mem hne
      simpa [Token.isLineBreak] using hbreaks _ hmem
    have hclosed := (e.closed _ ((getLast?_suffix h.suffix hne).symm.trans hlast)).1
    rw [hkind] at hclosed
    cases hclosed
  refine ⟨breaks, rest, hahead, hsome, hbreaks, ?_⟩
  intro more t ht
  cases rest with
  | nil => exact absurd rfl hsome
  | cons token rest => exact hrest t ht

theorem skipLineBreaks (h : e.At ahead ⟨p, S, k⟩ c d) (hne : ahead ≠ [])
    (hp : S ≠ [] ∨ p = .joined ∨ p = .worded) :
    exists rest, e.At rest ⟨p, S, k⟩ c.skipLineBreaks d.skipLineBreaks := by
  rcases h.split hne with ⟨breaks, rest, rfl, hrest, hbreaks, hhead⟩
  have hshorter := h.shorter
  have hlonger := h.longer
  rw [List.append_assoc] at hshorter hlonger
  rw [Cursor.skipLineBreaks_breaks hshorter hbreaks (hhead _),
    Cursor.skipLineBreaks_breaks hlonger hbreaks (hhead _)]
  exact ⟨rest, h.moved hbreaks hrest hp⟩

theorem skipTrivia (h : e.At ahead ⟨p, S, k⟩ c d) (hstack : S ≠ []) :
    d.leadingComments = [] ∧ c.leadingComments = [] ∧
      exists rest, e.At rest ⟨p, S, k⟩ c.skipTrivia d.skipTrivia := by
  rcases h.split (h.inside.ne_nil hstack) with ⟨breaks, rest, rfl, hrest, hbreaks, hhead⟩
  have hshorter := h.shorter
  have hlonger := h.longer
  rw [List.append_assoc] at hshorter hlonger
  rw [Cursor.skipTrivia_breaks hshorter hbreaks (hhead _),
    Cursor.skipTrivia_breaks hlonger hbreaks (hhead _)]
  exact ⟨Cursor.leadingComments_breaks hlonger hbreaks (hhead _),
    Cursor.leadingComments_breaks hshorter hbreaks (hhead _), rest,
    h.moved hbreaks hrest (Or.inl hstack)⟩

theorem newline (h : e.At ahead ⟨p, S, k⟩ c d) (hstack : S ≠ []) (hline : c.kind = .lineBreak) :
    exists rest, e.At rest ⟨p, S, k⟩ c.advance d.advance := by
  cases ahead with
  | nil => exact absurd rfl (h.inside.ne_nil hstack)
  | cons token rest =>
      rcases h.current_cons with ⟨hcurrent, hcurrent'⟩
      have hkind : token.kind = .lineBreak := by rw [← hcurrent]; exact hline
      have hbreak : token.isLineBreak = true := by simp [Token.isLineBreak, hkind]
      have hcomment := (h.plain (List.mem_cons_self ..)).1
      have hc : c.advance = { c with ahead := rest ++ e.breaks } := by
        have hsignificant : c.significant = c.current :: (rest ++ e.breaks) := by
          simp [Cursor.significant, h.shorter, hcomment, hcurrent]
        rw [Cursor.advance_eq hsignificant (by simp [hline]), hcurrent, Cursor.spanAfter,
          if_pos hbreak]
      have hd : d.advance = { d with ahead := rest ++ e.newline :: e.more } := by
        have hsignificant : d.significant = d.current :: (rest ++ e.newline :: e.more) := by
          simp [Cursor.significant, h.longer, hcomment, hcurrent']
        rw [Cursor.advance_eq hsignificant (by simp [Cursor.kind, hcurrent', hkind]), hcurrent',
          Cursor.spanAfter, if_pos hbreak]
      have hinside : Bracket.Inside S rest := by
        have hsplit : Bracket.Inside S ([token] ++ rest) := h.inside
        exact hsplit.breaks (by simpa using hbreak)
      have hat : e.At ([token] ++ rest) ⟨p, S, k⟩ c d := h
      rw [hc, hd]
      exact ⟨rest, hat.moved (by simpa using hbreak) (hinside.ne_nil hstack) (Or.inl hstack)⟩

theorem giveUp {terminator : Kind} {g g' : Diagnostic} (h : e.At ahead σ c d)
    (hstack : S ≠ []) (hsurrounds : Bracket.Surrounds terminator S) (hsuffix : S <:+ σ.stack) :
    (exists rest, e.At rest ⟨.any, S, false⟩ ((c.record g).skipStatement terminator)
        ((d.record g').skipStatement terminator)) ∧
      ((d.record g').skipStatement terminator).previous =
        ((c.record g).skipStatement terminator).previous := by
  rcases hsurrounds with ⟨rfl, below, rfl⟩ | ⟨_, hnone⟩
  case inr => exact absurd hnone hstack
  rcases h.inside.suffix hsuffix with ⟨whole, hwhole, hsub⟩
  rcases List.cons_sublist_iff.mp hsub with ⟨front, back, rfl, hmem, hbelow⟩
  rcases List.append_of_mem hmem with ⟨above, between, rfl⟩
  rw [List.append_assoc, List.cons_append] at hwhole
  rcases Cursor.afterStatement?_inside (fun t ht => (h.plain ht).1) (Nat.zero_le _) hwhole with
    ⟨skipped, rest, above', rfl, hrest, hafter⟩
  have hc : (c.record g).skipStatement (.mark .closeCurly) =
      { c.record g with
        ahead := rest ++ e.breaks
        previous := Cursor.spanBehind c.previous skipped } := by
    apply Cursor.skipStatement_eq
    have hahead : (c.record g).ahead = (skipped ++ rest) ++ e.breaks := h.shorter
    rw [hahead]
    exact hafter c.previous e.breaks
  have hd : (d.record g').skipStatement (.mark .closeCurly) =
      { d.record g' with
        ahead := rest ++ e.newline :: e.more
        previous := Cursor.spanBehind d.previous skipped } := by
    apply Cursor.skipStatement_eq
    have hahead : (d.record g').ahead = (skipped ++ rest) ++ e.newline :: e.more := h.longer
    rw [hahead]
    exact hafter d.previous (e.newline :: e.more)
  rw [hc, hd]
  refine ⟨⟨rest, ?_⟩, by rw [h.previous]⟩
  exact {
    fits := ⟨fun t ht => h.fits.tokens t (by
      rw [h.shorter, List.append_assoc]
      exact List.mem_append_right skipped ht), h.fits.ends⟩
    fits' := ⟨fun t ht => h.fits'.tokens t (by
      rw [h.longer, List.append_assoc]
      exact List.mem_append_right skipped ht), h.fits'.ends⟩
    depth := h.depth
    previous := by rw [h.previous]
    errors := by simp [Cursor.record, h.errors]
    clean := by simp
    suffix := (List.suffix_append skipped rest).trans h.suffix
    shorter := rfl
    longer := rfl
    inside := ⟨_, hrest, ((hbelow.trans (List.sublist_append_right between back)).cons_cons
      _).trans (List.sublist_append_right above' _)⟩
    joined := by simp
    worded := by simp
    follows := by simp [Cursor.record] }

theorem mayBeFunction (h : e.At ahead σ c d) :
    Grammar.mayBeFunction d = Grammar.mayBeFunction c := by
  cases ahead with
  | nil =>
      have hnone : forall f : Cursor, f.AtMargin -> Grammar.mayBeFunction f = false := by
        rintro f (hf | hf) <;> simp [Grammar.mayBeFunction, Token.patternStarts, hf]
      rw [hnone c h.margin.1, hnone d h.margin.2.1]
  | cons token rest =>
      rcases h.current_cons with ⟨hcurrent, hcurrent'⟩
      rcases h.inside with ⟨whole, hwhole, _⟩
      have htokens : (token :: rest).filter (fun t => !t.isComment) = token :: rest := by
        rw [List.filter_eq_self]
        intro t ht
        simp [(h.plain ht).1]
      have hblank : e.breaks.filter (fun t => !t.isComment) = e.breaks := by
        rw [List.filter_eq_self]
        intro t ht
        have hkind : t.kind = .lineBreak := by simpa [Token.isLineBreak] using e.blank t ht
        simp [Token.isComment, hkind]
      have hline : e.newline.kind = .lineBreak := by simpa [Token.isLineBreak] using e.line
      have hd : d.tokensAhead = (token :: rest) ++
          e.newline :: (e.more.filter (fun t => !t.isComment) ++ [d.final]) := by
        have hnewline : (e.newline :: e.more).filter (fun t => !t.isComment) =
            e.newline :: e.more.filter (fun t => !t.isComment) :=
          List.filter_cons_of_pos (by simp [Token.isComment, hline])
        rw [Cursor.tokensAhead, h.longer, List.filter_append, htokens, hnewline,
          List.append_assoc]
        rfl
      have hc : exists next more, c.tokensAhead = (token :: rest) ++ next :: more ∧
          (next.kind = .lineBreak ∨ next.kind = .endOfInput) := by
        rw [Cursor.tokensAhead, h.shorter, List.filter_append, htokens, hblank, List.append_assoc]
        cases hbreaks : e.breaks with
        | nil => exact ⟨c.final, [], rfl, Or.inr h.fits.final⟩
        | cons next more =>
            have hkind : next.kind = .lineBreak := by
              simpa [Token.isLineBreak] using e.blank next (by simp [hbreaks])
            exact ⟨next, more ++ [c.final], rfl, Or.inl hkind⟩
      rcases hc with ⟨next, more, hc, hmargin⟩
      unfold Grammar.mayBeFunction
      rw [hc, hd, Cursor.kind, Cursor.kind, hcurrent, hcurrent',
        Grammar.arrowFollows_append (Grammar.arrowFollows_margin hmargin)
          (Grammar.arrowFollows_margin (Or.inl hline)) hwhole (Nat.zero_le _) (by simp)]

end At
end Extension

def Correspondence.extended (e : Extension) : Correspondence where
  relabelling := .identity
  Twin σ c d := exists ahead, e.At ahead σ c d
  Said _ _ := True
  Whole := False
  Lossy := e.Soft
  lossy _ := id
  fits := by
    rintro σ c d ⟨ahead, h⟩
    exact ⟨h.fits, h.fits', h.depth⟩
  deepen := by
    rintro σ c d depth ⟨ahead, h⟩
    exact ⟨ahead, h.deepen depth⟩
  refine := by
    rintro σ τ c d hσ ⟨ahead, h⟩
    exact ⟨ahead, h.refine hσ⟩
  current := by
    rintro σ c d ⟨ahead, h⟩
    cases ahead with
    | nil =>
        rcases h.margin with ⟨hc, hd, hstack⟩
        exact Or.inr ⟨hstack, fun hjoined => h.joined hjoined rfl, hc, hd, id⟩
    | cons token rest =>
        rcases h.current_cons with ⟨hcurrent, hcurrent'⟩
        exact Or.inl (by rw [hcurrent, hcurrent', Token.relabel_identity])
  said _ _ := trivial
  saidAll _ _ _ := trivial
  previous := by
    rintro σ c d ⟨ahead, h⟩ _
    exact h.previous
  arrow := by
    rintro σ c d ⟨ahead, h⟩
    exact h.mayBeFunction
  read := by
    rintro p S S' k c d ⟨ahead, h⟩ _ hend hbreak hstep
    rcases h.exists_cons (Correspondence.not_atMargin rfl hend hbreak) with ⟨rest, rfl⟩
    have hline : c.current.isLineBreak = false := by
      have hkind : c.current.kind ≠ .lineBreak := hbreak
      simpa [Token.isLineBreak] using hkind
    exact ⟨rest, h.read hline hstep⟩
  skip := by
    rintro S k c d ⟨ahead, h⟩
    exact h.skipLineBreaks (h.joined rfl) (Or.inr (Or.inl rfl))
  stray := by
    rintro S k c d ⟨ahead, h⟩
    by_cases hne : ahead = []
    · subst hne
      have hsoft : e.Soft := by
        rcases h.worded rfl with hsome | hsoft
        · exact absurd rfl hsome
        · exact hsoft
      have hstack : S = [] := h.margin.2.2
      have hnoted : c.errors ≠ [] := by
        intro hnone
        rcases h.follows hsoft hnone with ⟨before, phase, hbefore, hrun, hphase⟩
        have hworded : phase = .worded := by
          rcases hphase hstack with hsame | hany | ⟨hexpecting, _⟩
          · exact hsame
          · cases hany
          · cases hexpecting
        have hstack : (Frame.mk .worded S k).stack = [] := hstack
        rw [hworded, hstack] at hrun
        rw [List.append_nil] at hbefore
        rw [← hbefore] at hrun
        exact e.unworded hsoft hrun
      have hclean : k = false := by
        cases k with
        | false => rfl
        | true => exact absurd (h.clean rfl) hnoted
      refine Or.inr ⟨hsoft, hclean, hstack, ?_⟩
      have hahead : c.ahead = e.breaks ++ [] := by rw [h.shorter, List.nil_append, List.append_nil]
      rw [Cursor.skipLineBreaks_breaks hahead e.blank (by simp)]
      exact Cursor.kind_of_ahead_nil h.fits.final rfl
    · rcases h.skipLineBreaks hne (Or.inr (Or.inr rfl)) with ⟨rest, hrest⟩
      exact Or.inl ⟨rest, hrest.refine ⟨rfl, Or.inr (Or.inr (Or.inr ⟨rfl, Or.inr rfl⟩)), id⟩⟩
  trivia := by
    rintro p S k c d (hwhole | hstack) ⟨ahead, h⟩
    · exact hwhole.elim
    · rcases h.skipTrivia hstack with ⟨hcomments', hcomments, rest, hrest⟩
      exact ⟨by rw [hcomments, hcomments', Relabelling.comments_identity], rest,
        hrest.refine ⟨rfl, Or.inl hstack, id⟩⟩
  newline := by
    rintro p S k c d (hwhole | hstack) ⟨ahead, h⟩ hline
    · exact hwhole.elim
    · rcases h.newline hstack hline with ⟨below, hbelow⟩
      rcases hbelow.skipTrivia hstack with ⟨hcomments', hcomments, rest, hrest⟩
      exact ⟨by rw [hcomments, hcomments', Relabelling.comments_identity], rest,
        hrest.refine ⟨rfl, Or.inl hstack, id⟩⟩
  recover := by
    rintro terminator p S k σ c d c' d' read noted read' noted' g g' (hwhole | hstack) hsurrounds
      _ _ ⟨ahead, h⟩ hsuffix _ _ _
    · exact hwhole.elim
    · exact h.giveUp hstack hsurrounds hsuffix

end Linewise
