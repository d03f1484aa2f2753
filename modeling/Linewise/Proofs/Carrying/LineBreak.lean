import Linewise.Proofs.Carrying.Statement
import Linewise.Proofs.Joining.File

/-!
# Broken lines

A line may be broken behind an operator, behind an arrow and behind a colon.  Main
statement: line breaks that are put directly behind such tokens make no difference to a
text that is read without a diagnostic.
-/

namespace Linewise

/-- The second list is the first one with line breaks directly behind tokens after which a
line may be broken.  The flag says whether this is such a place. -/
inductive Token.Breaks : Bool -> List Token -> List Token -> Prop where
  | nil (joined : Bool) : Breaks joined [] []
  | cons {joined : Bool} {token : Token} {tokens broken : List Token}
      (rest : Breaks token.kind.joins tokens broken) :
      Breaks joined (token :: tokens) (token :: broken)
  | newline {token : Token} {tokens broken : List Token} (hline : token.kind = .lineBreak)
      (rest : Breaks false tokens broken) : Breaks true tokens (token :: broken)

namespace Token.Breaks

variable {j : Bool} {tokens broken : List Token}

theorem refl (j : Bool) (tokens : List Token) : Breaks j tokens tokens := by
  induction tokens generalizing j with
  | nil => exact .nil j
  | cons token rest ih => exact .cons (ih _)

theorem insert {joint newline : Token} (hjoint : joint.kind.joins = true)
    (hnewline : newline.kind = .lineBreak) (before after : List Token) :
    Breaks j (before ++ joint :: after) (before ++ joint :: newline :: after) := by
  induction before generalizing j with
  | nil =>
      refine .cons ?_
      rw [hjoint]
      exact .newline hnewline (refl false after)
  | cons token rest ih => exact .cons ih

theorem mem (h : Breaks j tokens broken) :
    forall t, t ∈ broken -> t ∈ tokens ∨ t.kind = .lineBreak := by
  induction h with
  | nil => simp
  | cons _ ih =>
      intro t ht
      rcases List.mem_cons.mp ht with rfl | ht
      · exact Or.inl (by simp)
      · rcases ih t ht with hmem | hline
        · exact Or.inl (List.mem_cons_of_mem _ hmem)
        · exact Or.inr hline
  | newline hline _ ih =>
      intro t ht
      rcases List.mem_cons.mp ht with rfl | ht
      · exact Or.inr hline
      · exact ih t ht

theorem joins_of_isTrivia {token : Token} (h : Cursor.isTrivia token = true) :
    token.kind.joins = false := by
  simp only [Cursor.isTrivia, Token.isComment, Token.isLineBreak, Bool.or_eq_true,
    beq_iff_eq] at h
  rcases h with hkind | hkind
  · rw [hkind]
    rfl
  · rw [hkind]
    rfl

theorem joins_of_isComment {token : Token} (h : token.isComment = true) :
    token.kind.joins = false := joins_of_isTrivia (by simp [Cursor.isTrivia, h])

theorem significant (h : Breaks false tokens broken) :
    (tokens.dropWhile Token.isComment = [] ∧ broken.dropWhile Token.isComment = []) ∨
      exists token rest rest', tokens.dropWhile Token.isComment = token :: rest ∧
        broken.dropWhile Token.isComment = token :: rest' ∧
        Breaks token.kind.joins rest rest' := by
  induction tokens generalizing broken with
  | nil =>
      cases h
      exact Or.inl ⟨rfl, rfl⟩
  | cons token tokens ih =>
      cases h with
      | @cons _ _ _ broken rest =>
          cases hcomment : token.isComment with
          | true =>
              rw [joins_of_isComment hcomment] at rest
              rw [List.dropWhile_cons_of_pos hcomment, List.dropWhile_cons_of_pos hcomment]
              exact ih rest
          | false =>
              have hnone : ¬ token.isComment = true := by simp [hcomment]
              rw [List.dropWhile_cons_of_neg hnone, List.dropWhile_cons_of_neg hnone]
              exact Or.inr ⟨token, tokens, broken, rfl, rfl, rest⟩

theorem afterLineBreaks? (h : Breaks false tokens broken) :
    (Cursor.afterLineBreaks? tokens = none ∧ Cursor.afterLineBreaks? broken = none) ∨
      exists rest rest', Cursor.afterLineBreaks? tokens = some rest ∧
        Cursor.afterLineBreaks? broken = some rest' ∧ Breaks false rest rest' := by
  induction tokens generalizing broken with
  | nil =>
      cases h
      exact Or.inl ⟨rfl, rfl⟩
  | cons token tokens ih =>
      cases h with
      | @cons _ _ _ broken rest =>
          unfold Cursor.afterLineBreaks?
          cases hcomment : token.isComment with
          | true =>
              rw [joins_of_isComment hcomment] at rest
              exact ih rest
          | false =>
              cases hline : token.isLineBreak with
              | false => exact Or.inl ⟨rfl, rfl⟩
              | true =>
                  rw [joins_of_isTrivia (by simp [Cursor.isTrivia, hline])] at rest
                  right
                  refine ⟨_, _, rfl, rfl, ?_⟩
                  rcases ih rest with ⟨hnone, hnone'⟩ | ⟨_, _, hsome, hsome', hrest⟩
                  · rw [hnone, hnone']
                    exact rest
                  · rw [hsome, hsome']
                    exact hrest

theorem skipped (h : Breaks j tokens broken) :
    Breaks false ((Cursor.afterLineBreaks? tokens).getD tokens)
      ((Cursor.afterLineBreaks? broken).getD broken) := by
  have hfalse : forall {tokens broken}, Breaks false tokens broken ->
      Breaks false ((Cursor.afterLineBreaks? tokens).getD tokens)
        ((Cursor.afterLineBreaks? broken).getD broken) := by
    intro tokens broken h
    rcases h.afterLineBreaks? with ⟨hnone, hnone'⟩ | ⟨_, _, hsome, hsome', hrest⟩
    · rw [hnone, hnone']
      exact h
    · rw [hsome, hsome']
      exact hrest
  cases h with
  | nil => exact hfalse (.nil false)
  | cons rest => exact hfalse (.cons rest)
  | @newline token _ broken hline rest =>
      have hskips : Cursor.afterLineBreaks? (token :: broken) =
          some ((Cursor.afterLineBreaks? broken).getD broken) := by
        simp [Cursor.afterLineBreaks?, Token.isComment, Token.isLineBreak, hline]
      rw [hskips]
      exact hfalse rest

theorem trivia (h : Breaks false tokens broken) :
    broken.takeWhile Cursor.isTrivia = tokens.takeWhile Cursor.isTrivia ∧
      Breaks false (tokens.dropWhile Cursor.isTrivia) (broken.dropWhile Cursor.isTrivia) := by
  induction tokens generalizing broken with
  | nil =>
      cases h
      exact ⟨rfl, .nil false⟩
  | cons token tokens ih =>
      cases h with
      | cons rest =>
          cases htrivia : Cursor.isTrivia token with
          | true =>
              rw [joins_of_isTrivia htrivia] at rest
              rcases ih rest with ⟨htake, hdrop⟩
              rw [List.takeWhile_cons_of_pos htrivia, List.takeWhile_cons_of_pos htrivia,
                List.dropWhile_cons_of_pos htrivia, List.dropWhile_cons_of_pos htrivia, htake]
              exact ⟨rfl, hdrop⟩
          | false =>
              have hnone : ¬ Cursor.isTrivia token = true := by simp [htrivia]
              rw [List.takeWhile_cons_of_neg hnone, List.takeWhile_cons_of_neg hnone,
                List.dropWhile_cons_of_neg hnone, List.dropWhile_cons_of_neg hnone]
              exact ⟨rfl, .cons rest⟩

theorem joins_of_patternStarts {kind : Kind} (h : kind ∈ Token.patternStarts) :
    kind.joins = false := by
  have hnone : forall kind, kind ∈ Token.patternStarts -> kind.joins = false := by decide
  exact hnone kind h

theorem arrowFollows (final : Token) (h : Breaks j tokens broken) {depth : Nat}
    (hdepth : j = true -> 0 < depth) :
    Grammar.arrowFollows depth false
        (broken.filter (fun token => !token.isComment) ++ [final]) =
      Grammar.arrowFollows depth false
        (tokens.filter (fun token => !token.isComment) ++ [final]) := by
  induction h generalizing depth with
  | nil => rfl
  | @newline token tokens broken hline rest ih =>
      have hcomment : token.isComment = false := by simp [Token.isComment, hline]
      have hinside : depth > 0 := hdepth rfl
      rw [List.filter_cons_of_pos (by simp [hcomment]), List.cons_append]
      -- The line break put in stands behind a joining token, inside the brackets that are open
      -- here, so the search passes over it.
      have hpassed : Grammar.arrowFollows depth false
          (token :: (broken.filter (fun token => !token.isComment) ++ [final])) =
          Grammar.arrowFollows depth false
            (broken.filter (fun token => !token.isComment) ++ [final]) := by
        simp [Grammar.arrowFollows, hline, hinside]
      rw [hpassed]
      exact ih (by simp)
  | @cons j token tokens broken rest ih =>
      cases hcomment : token.isComment with
      | true =>
          rw [List.filter_cons_of_neg (by simp [hcomment]),
            List.filter_cons_of_neg (by simp [hcomment])]
          exact ih (by simp [joins_of_isComment hcomment])
      | false =>
          rw [List.filter_cons_of_pos (by simp [hcomment]),
            List.filter_cons_of_pos (by simp [hcomment]), List.cons_append, List.cons_append,
            Grammar.arrowFollows, Grammar.arrowFollows]
          split
          · rfl
          · exact ih (fun _ => Nat.succ_pos _)
          · exact ih (fun _ => Nat.succ_pos _)
          · rename_i kind _ _ _
            by_cases hinside : depth > 0
            · rw [if_pos hinside, if_pos hinside]
              by_cases hclose : (decide (token.kind = .mark .closeParen) ||
                  decide (token.kind = .mark .closeCurly)) = true
              · have hjoins : token.kind.joins = false := by
                  simp only [Bool.or_eq_true, decide_eq_true_eq] at hclose
                  rcases hclose with hkind | hkind
                  · rw [hkind]
                    rfl
                  · rw [hkind]
                    rfl
                rw [if_pos hclose, if_pos hclose]
                exact ih (by simp [hjoins])
              · rw [if_neg hclose, if_neg hclose]
                exact ih (fun _ => hinside)
            · rw [if_neg hinside, if_neg hinside]
              by_cases harrow : token.kind = .mark .arrow
              · rw [if_pos harrow, if_pos harrow]
              · rw [if_neg harrow, if_neg harrow]
                cases hstarts : token.startsPattern with
                | false => rfl
                | true =>
                    have hmem : token.kind ∈ Token.patternStarts := by
                      simp only [Token.startsPattern, Bool.and_eq_true] at hstarts
                      simpa using hstarts.1
                    exact ih (by simp [joins_of_patternStarts hmem])

end Token.Breaks

/-!
## The pairing
-/

namespace Cursor

structure Broken (σ : Standing) (c d : Cursor) : Prop where
  fits : plainRecovery.Fits c
  depth : c.depth = σ.depth
  breaks : Token.Breaks σ.joined c.ahead d.ahead
  same : d = { c with ahead := d.ahead }

namespace Broken

variable {σ : Standing} {S S' : List Bracket} {j : Bool} {k : Nat} {c d : Cursor}

theorem fits' (h : Broken σ c d) : plainRecovery.Fits d where
  tokens := by
    intro t ht
    rcases h.breaks.mem t ht with hmem | hline
    · exact h.fits.tokens t hmem
    · intro htext
      rw [hline] at htext
      cases htext
  ends := by
    rw [h.same]
    exact h.fits.ends

theorem moved {c' d' : Cursor} {rest rest' : List Token} (previous : Span)
    (h : Broken σ c d) (hrest : rest <:+ c.ahead) (hbreaks : Token.Breaks j rest rest')
    (hc : c' = { c with ahead := rest, previous := previous })
    (hd : d' = { d with ahead := rest', previous := previous }) :
    Broken ⟨j, S, σ.depth⟩ c' d' := by
  subst hc hd
  refine ⟨⟨?_, h.fits.ends⟩, h.depth, hbreaks, ?_⟩
  · intro t ht
    exact h.fits.tokens t (hrest.mem ht)
  · have hsame := h.same
    rw [hsame]

theorem current (h : Broken ⟨false, S, k⟩ c d) : d.current = c.current := by
  have hfinal : d.final = c.final := by rw [h.same]
  rw [Cursor.current, Cursor.current, Cursor.significant, Cursor.significant, hfinal]
  rcases h.breaks.significant with ⟨hnone, hnone'⟩ | ⟨token, rest, rest', hcons, hcons', _⟩
  · rw [hnone, hnone']
  · rw [hcons, hcons']
    rfl

theorem advance (h : Broken ⟨false, S, k⟩ c d) (hend : c.kind ≠ .endOfInput) :
    Broken ⟨c.kind.joins, S', k⟩ c.advance d.advance := by
  have hprevious : d.previous = c.previous := by rw [h.same]
  rcases h.breaks.significant with ⟨hnone, _⟩ | ⟨token, rest, rest', hcons, hcons', hbreaks⟩
  · have hfinal : c.kind = c.final.kind := congrArg Token.kind (current_eq_final hnone)
    exact absurd (hfinal.trans h.fits.final) hend
  · have hkind : c.kind = token.kind := congrArg Token.kind (current_eq hcons)
    have hend' : token.kind ≠ .endOfInput := by rwa [← hkind]
    rw [hkind]
    apply h.moved _ _ hbreaks
    · unfold Cursor.advance
      rw [Cursor.significant, hcons]
      exact if_neg hend'
    · unfold Cursor.advance
      rw [Cursor.significant, hcons', hprevious]
      exact if_neg hend'
    · exact ((List.suffix_cons token rest).trans (hcons ▸ List.dropWhile_suffix _))

theorem skipLineBreaks (h : Broken ⟨j, S, k⟩ c d) :
    Broken ⟨false, S, k⟩ c.skipLineBreaks d.skipLineBreaks := by
  have hprevious : d.previous = c.previous := by rw [h.same]
  rcases c.skipLineBreaks_passage with ⟨read, passage, _⟩
  refine h.moved c.previous ⟨read, passage.ahead.symm⟩ h.breaks.skipped rfl ?_
  rw [← hprevious]
  rfl

theorem skipTrivia (h : Broken ⟨false, S, k⟩ c d) :
    d.leadingComments = c.leadingComments ∧
      Broken ⟨false, S, k⟩ c.skipTrivia d.skipTrivia := by
  have hprevious : d.previous = c.previous := by rw [h.same]
  rcases h.breaks.trivia with ⟨htake, hdrop⟩
  constructor
  · rw [Cursor.leadingComments, Cursor.leadingComments, htake]
  · refine h.moved c.previous (List.dropWhile_suffix _) hdrop rfl ?_
    rw [← hprevious]
    rfl

theorem mayBeFunction (h : Broken ⟨false, S, k⟩ c d) :
    Grammar.mayBeFunction d = Grammar.mayBeFunction c := by
  have hcurrent := h.current
  unfold Grammar.mayBeFunction
  rw [Cursor.kind, Cursor.kind, hcurrent]
  cases hstarts : Token.patternStarts.contains c.current.kind with
  | false => rfl
  | true =>
      have hmem : c.kind ∈ Token.patternStarts := List.contains_iff_mem.mp hstarts
      have hnever : Kind.endOfInput ∉ Token.patternStarts := by decide
      have hend : c.kind ≠ .endOfInput := by
        intro hkind
        rw [hkind] at hmem
        exact hnever hmem
      have hend' : d.kind ≠ .endOfInput := by rwa [Cursor.kind, hcurrent]
      have hadvance : Broken ⟨c.kind.joins, S, k⟩ c.advance d.advance := h.advance hend
      have hfinal : d.advance.final = c.advance.final := by rw [hadvance.same]
      have hjoins := Token.Breaks.joins_of_patternStarts hmem
      have hbreaks : Token.Breaks false c.advance.ahead d.advance.ahead := by
        rw [← hjoins]
        exact hadvance.breaks
      have hnext : forall depth, Grammar.arrowFollows depth false d.advance.tokensAhead =
          Grammar.arrowFollows depth false c.advance.tokensAhead := by
        intro depth
        rw [tokensAhead, tokensAhead, hfinal]
        exact hbreaks.arrowFollows c.advance.final (by simp)
      rw [Bool.true_and, Bool.true_and, tokensAhead_cons h.fits.final hend,
        tokensAhead_cons h.fits'.final hend', hcurrent, Grammar.arrowFollows,
        Grammar.arrowFollows]
      split
      · rfl
      · exact hnext _
      · exact hnext _
      · simp only [hnext]

end Broken
end Cursor

def Pairing.broken : Pairing where
  Twin := Cursor.Broken
  Whole := True
  lift := 0
  fits h := ⟨h.fits, h.fits'⟩
  depth := by
    intro σ c d h
    refine ⟨h.depth, ?_⟩
    rw [h.same]
    exact h.depth
  deepen := by
    intro j S k c d depth h
    refine ⟨⟨h.fits.tokens, h.fits.ends⟩, rfl, h.breaks, ?_⟩
    rw [h.same]
    rfl
  previous := by
    intro σ c d h
    rw [h.same]
  current h := Or.inl h.current
  arrow h := h.mayBeFunction
  read h _ hend _ := h.advance hend
  skip h := h.skipLineBreaks
  trivia h := h.skipTrivia

/-!
## Source files
-/

theorem parseTokens_breaks {body broken : List Token} {last : Token} {parsed : Parsed}
    (hbreaks : Token.Breaks false body broken) (hlast : last.kind = .endOfInput)
    (hquoted : forall t, t ∈ body -> t.Quoted)
    (hparsed : parseTokens (body ++ [last]) = .ok parsed) (hclean : parsed.errors = []) :
    parseTokens (broken ++ [last]) = .ok parsed := by
  have hcarries : Pairing.broken.Carries false ⟨false, [], 0⟩ (fun _ => True)
      (Grammar.statements Level.outermost .endOfInput) (fun _ => ⟨false, [], 0⟩) :=
    Grammar.statements_carries (Grammar.carries_ofRoom Pairing.broken Parser.maxDepth (by decide))
      (Or.inl trivial) .endOfInput
  have htwin : Cursor.Broken ⟨false, [], 0⟩ (Cursor.opening body last)
      (Cursor.opening broken last) :=
    ⟨Cursor.fits_opening hlast hquoted, rfl, hbreaks, rfl⟩
  have hreply := hcarries.replies htwin trivial
  unfold parseTokens at hparsed ⊢
  rw [Cursor.ofTokens_append hlast] at hparsed ⊢
  generalize Grammar.statements Level.outermost .endOfInput (Cursor.opening body last) =
    reply at hreply hparsed
  cases reply with
  | fault found => cases hparsed
  | error g c =>
      cases hparsed
      simp at hclean
  | ok statements c =>
      cases hparsed
      have hclean : c.errors = [] := hclean
      rcases hreply (Or.inr hclean) with ⟨d, hd, htwin'⟩
      have hbroken : Cursor.Broken ⟨false, [], 0⟩ c d := htwin'
      have hnoted : d.errors = c.errors := by rw [hbroken.same]
      rw [hd]
      dsimp only
      rw [hbroken.current, hnoted]

/-- Lines may be broken behind operators.  Where a text is read without a diagnostic, a
line break directly behind one of its operators, arrows or colons changes nothing: there
are still no diagnostics, and the tree is the same, spans included. -/
theorem parseTokens_broken_line (before after : List Token) (joint newline last : Token)
    (parsed : Parsed) (hjoint : joint.kind.joins = true) (hnewline : newline.kind = .lineBreak)
    (hlast : last.kind = .endOfInput)
    (hquoted : forall t, t ∈ before ++ joint :: after -> t.Quoted)
    (hparsed : parseTokens (before ++ joint :: after ++ [last]) = .ok parsed)
    (hclean : parsed.errors = []) :
    parseTokens (before ++ joint :: newline :: after ++ [last]) = .ok parsed :=
  parseTokens_breaks (Token.Breaks.insert hjoint hnewline before after) hlast hquoted hparsed
    hclean

namespace Sample

def target : List Token :=
  [⟨⟨"x", ⟨0, 1⟩⟩, .lowercaseName⟩, ⟨⟨":", ⟨2, 3⟩⟩, .mark .colon⟩,
    ⟨⟨"y", ⟨4, 5⟩⟩, .lowercaseName⟩]

def arrow : Token := ⟨⟨"->", ⟨6, 8⟩⟩, .mark .arrow⟩

def lineEnd : Token := ⟨⟨"\n", ⟨8, 9⟩⟩, .lineBreak⟩

def output : List Token :=
  [⟨⟨"y", ⟨9, 10⟩⟩, .lowercaseName⟩, ⟨⟨"+", ⟨11, 12⟩⟩, .mark .plus⟩,
    ⟨⟨"1", ⟨13, 14⟩⟩, .number⟩]

end Sample

/-- The output of the function `y -> y + 1` may stand on the next line. -/
theorem parseTokens_broken_line_arrow :
    exists parsed, parsed.errors = [] ∧
      parseTokens (Sample.target ++ Sample.arrow :: Sample.output ++ [Token.endAt 14]) =
        .ok parsed ∧
      parseTokens (Sample.target ++ Sample.arrow :: Sample.lineEnd :: Sample.output ++
        [Token.endAt 14]) = .ok parsed := by
  have hnone : (parseTokens (Sample.target ++ Sample.arrow :: Sample.output ++
      [Token.endAt 14])).toOption.map Parsed.errors = some [] := by decide +kernel
  rcases Option.map_eq_some_iff.mp hnone with ⟨parsed, hfound, hclean⟩
  have hparsed := eq_ok_of_toOption hfound
  have hquoted : forall t, t ∈ Sample.target ++ Sample.arrow :: Sample.output -> t.Quoted := by
    simp [Sample.target, Sample.arrow, Sample.output, Token.Quoted]
  exact ⟨parsed, hclean, hparsed,
    parseTokens_broken_line Sample.target Sample.output Sample.arrow Sample.lineEnd
      (Token.endAt 14) parsed rfl rfl rfl hquoted hparsed hclean⟩

end Linewise
