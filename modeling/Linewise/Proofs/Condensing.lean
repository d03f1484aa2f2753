import Linewise.Proofs.Joining.File

/-!
# Comments and blank lines

Comments and the line breaks that directly follow a line break do not change how
tokens are read: every look ahead, every skip and every statement that is given up
passes over them.  Reading the condensed tokens is a second reading side by side with
the first, and all that gets lost are the comments above definitions.
-/

namespace Linewise

/-!
## Condensing tokens
-/

namespace Token

/-- Leaves out each line break that directly follows another.  A line break may stand
right in front of the tokens. -/
def joinBreaks : Bool -> List Token -> List Token
  | _, [] => []
  | behind, token :: rest =>
      if behind && token.isLineBreak then
        joinBreaks true rest
      else
        token :: joinBreaks token.isLineBreak rest

/-- The tokens without comments, and then without line breaks that directly follow
another. -/
def condense (behind : Bool) (tokens : List Token) : List Token :=
  joinBreaks behind (tokens.filter (fun token => !token.isComment))

variable {behind : Bool} {token : Token}

@[simp] theorem condense_nil : condense behind [] = [] := rfl

theorem condense_comment (h : token.isComment = true) (rest : List Token) :
    condense behind (token :: rest) = condense behind rest := by
  simp [condense, h]

theorem isComment_of_isLineBreak (h : token.isLineBreak = true) : token.isComment = false := by
  have hkind : token.kind = .lineBreak := by simpa [isLineBreak] using h
  simp [isComment, hkind]

theorem condense_break (h : token.isLineBreak = true) (rest : List Token) :
    condense false (token :: rest) = token :: condense true rest := by
  simp [condense, isComment_of_isLineBreak h, joinBreaks, h]

theorem condense_repeated (h : token.isLineBreak = true) (rest : List Token) :
    condense true (token :: rest) = condense true rest := by
  simp [condense, isComment_of_isLineBreak h, joinBreaks, h]

theorem condense_other (h : Cursor.isTrivia token = false) (rest : List Token) :
    condense behind (token :: rest) = token :: condense false rest := by
  rw [Cursor.isTrivia, Bool.or_eq_false_iff] at h
  simp [condense, h.1, joinBreaks, h.2]

/-- A first token that is no comment stays, unless it repeats a line break. -/
theorem condense_head (h : token.isComment = false) (rest : List Token) :
    condense false (token :: rest) = token :: condense token.isLineBreak rest := by
  simp [condense, h, joinBreaks]

theorem joinBreaks_sublist (behind : Bool) (tokens : List Token) :
    (joinBreaks behind tokens).Sublist tokens := by
  induction tokens generalizing behind with
  | nil => exact List.Sublist.slnil
  | cons token rest ih =>
      unfold joinBreaks
      split
      · exact (ih true).cons token
      · exact (ih _).cons_cons token

theorem mem_of_mem_condense {t : Token} {tokens : List Token} (h : t ∈ condense behind tokens) :
    t ∈ tokens ∧ t.isComment = false := by
  simpa using List.mem_filter.mp ((joinBreaks_sublist _ _).subset h)

theorem filter_condense (behind : Bool) (tokens : List Token) :
    (condense behind tokens).filter (fun token => !token.isComment) = condense behind tokens := by
  apply List.filter_eq_self.mpr
  intro t ht
  simp [(mem_of_mem_condense ht).2]

@[elab_as_elim]
theorem condense_induction {motive : Bool -> List Token -> Prop}
    (nil : forall behind, motive behind [])
    (comment : forall behind token rest, token.isComment = true -> motive behind rest ->
      motive behind (token :: rest))
    (newline : forall token rest, token.isLineBreak = true -> motive true rest ->
      motive false (token :: rest))
    (repeated : forall token rest, token.isLineBreak = true -> motive true rest ->
      motive true (token :: rest))
    (other : forall behind token rest, Cursor.isTrivia token = false -> motive false rest ->
      motive behind (token :: rest))
    (behind : Bool) (tokens : List Token) : motive behind tokens := by
  induction tokens generalizing behind with
  | nil => exact nil behind
  | cons token rest ih =>
      cases hcomment : token.isComment with
      | true => exact comment behind token rest hcomment (ih behind)
      | false =>
          cases hbreak : token.isLineBreak with
          | false =>
              apply other behind token rest _ (ih false)
              simp [Cursor.isTrivia, hcomment, hbreak]
          | true =>
              cases behind with
              | false => exact newline token rest hbreak (ih true)
              | true => exact repeated token rest hbreak (ih true)

theorem condense_append_last {last : Token} (h : last.kind = .endOfInput) (behind : Bool)
    (tokens : List Token) :
    condense behind (tokens ++ [last]) = condense behind tokens ++ [last] := by
  have hlast : Cursor.isTrivia last = false := by
    simp [Cursor.isTrivia, isComment, isLineBreak, h]
  induction behind, tokens using condense_induction with
  | nil => exact condense_other hlast []
  | comment behind token rest hcomment ih =>
      rw [List.cons_append, condense_comment hcomment, condense_comment hcomment, ih]
  | newline token rest hbreak ih =>
      rw [List.cons_append, condense_break hbreak, condense_break hbreak, ih, List.cons_append]
  | repeated token rest hbreak ih =>
      rw [List.cons_append, condense_repeated hbreak, condense_repeated hbreak, ih]
  | other behind token rest htrivia ih =>
      rw [List.cons_append, condense_other htrivia, condense_other htrivia, ih, List.cons_append]

end Token

/-!
## Passing over tokens
-/

namespace Cursor

open Token

theorem dropWhile_isComment_condense (tokens : List Token) :
    (condense false tokens).dropWhile Token.isComment =
      condense false (tokens.dropWhile Token.isComment) := by
  induction tokens with
  | nil => rfl
  | cons token rest ih =>
      cases hcomment : token.isComment with
      | true => rw [condense_comment hcomment, List.dropWhile_cons_of_pos hcomment, ih]
      | false =>
          have hkept : ¬ token.isComment = true := by simp [hcomment]
          rw [List.dropWhile_cons_of_neg hkept, condense_head hcomment,
            List.dropWhile_cons_of_neg hkept]

theorem dropWhile_isTrivia_condense (behind : Bool) (tokens : List Token) :
    (condense behind tokens).dropWhile isTrivia =
      condense false (tokens.dropWhile isTrivia) := by
  induction behind, tokens using condense_induction with
  | nil => rfl
  | comment behind token rest hcomment ih =>
      have htrivia : isTrivia token = true := by simp [isTrivia, hcomment]
      rw [condense_comment hcomment, List.dropWhile_cons_of_pos htrivia, ih]
  | newline token rest hbreak ih =>
      have htrivia : isTrivia token = true := by simp [isTrivia, hbreak]
      rw [condense_break hbreak, List.dropWhile_cons_of_pos htrivia,
        List.dropWhile_cons_of_pos htrivia, ih]
  | repeated token rest hbreak ih =>
      have htrivia : isTrivia token = true := by simp [isTrivia, hbreak]
      rw [condense_repeated hbreak, List.dropWhile_cons_of_pos htrivia, ih]
  | other behind token rest htrivia ih =>
      have hkept : ¬ isTrivia token = true := by simp [htrivia]
      rw [List.dropWhile_cons_of_neg hkept, condense_other htrivia, condense_other htrivia,
        List.dropWhile_cons_of_neg hkept]

theorem condense_afterLineBreaks? (tokens : List Token) :
    condense true tokens = condense false ((afterLineBreaks? tokens).getD tokens) := by
  induction tokens with
  | nil => rfl
  | cons token rest ih =>
      unfold afterLineBreaks?
      split
      · rename_i hcomment
        rw [condense_comment hcomment, ih]
        cases afterLineBreaks? rest with
        | none => exact (condense_comment hcomment rest).symm
        | some found => rfl
      · rename_i hcomment
        split
        · rename_i hbreak
          rw [condense_repeated hbreak, ih]
          rfl
        · rename_i hbreak
          have htrivia : isTrivia token = false := by simp [isTrivia, hcomment, hbreak]
          rw [condense_other htrivia, Option.getD_none, condense_other htrivia]

theorem afterLineBreaks?_repeated (tokens : List Token) :
    afterLineBreaks? (condense true tokens) = none := by
  induction tokens with
  | nil => rfl
  | cons token rest ih =>
      cases hcomment : token.isComment with
      | true => rw [condense_comment hcomment, ih]
      | false =>
          cases hbreak : token.isLineBreak with
          | true => rw [condense_repeated hbreak, ih]
          | false =>
              have htrivia : isTrivia token = false := by simp [isTrivia, hcomment, hbreak]
              rw [condense_other htrivia]
              simp [afterLineBreaks?, hcomment, hbreak]

theorem afterLineBreaks?_condense (tokens : List Token) :
    afterLineBreaks? (condense false tokens) =
      (afterLineBreaks? tokens).map (condense false) := by
  induction tokens with
  | nil => rfl
  | cons token rest ih =>
      cases hcomment : token.isComment with
      | true =>
          rw [condense_comment hcomment, ih]
          simp [afterLineBreaks?, hcomment]
      | false =>
          cases hbreak : token.isLineBreak with
          | true =>
              rw [condense_break hbreak, afterLineBreaks?, afterLineBreaks?,
                afterLineBreaks?_repeated, Option.getD_none, condense_afterLineBreaks?]
              simp [hcomment, hbreak]
          | false =>
              have htrivia : isTrivia token = false := by simp [isTrivia, hcomment, hbreak]
              rw [condense_other htrivia]
              simp [afterLineBreaks?, hcomment, hbreak]

theorem afterStatement?_cons {terminator : Kind} {depth : Nat} {previous : Span} {token : Token}
    {rest : List Token} (h : token.isComment = false) :
    (afterStatement? terminator depth previous (token :: rest)).getD (token :: rest, previous) =
      if endsStatement terminator depth token then
        (token :: rest, previous)
      else
        (afterStatement? terminator (bracketDepth depth token) (spanAfter previous token)
          rest).getD (rest, spanAfter previous token) := by
  rw [afterStatement?, if_neg (by simp [h])]
  split <;> rfl

theorem afterStatement?_break {terminator : Kind} {depth : Nat} {previous : Span} {token : Token}
    {rest : List Token} (h : token.isLineBreak = true) (hdepth : depth ≠ 0) :
    (afterStatement? terminator depth previous (token :: rest)).getD (token :: rest, previous) =
      (afterStatement? terminator depth previous rest).getD (rest, previous) := by
  have hkind : token.kind = .lineBreak := by simpa [Token.isLineBreak] using h
  have hends : endsStatement terminator depth token = false := by
    simp [endsStatement, hkind, hdepth]
  have hsame : bracketDepth depth token = depth := by
    simp [bracketDepth, hkind, Kind.opensBracket, Kind.closesBracket]
  rw [afterStatement?_cons (isComment_of_isLineBreak h), if_neg (by simp [hends]), hsame,
    spanAfter, if_pos h]

theorem afterStatement?_condense (terminator : Kind) (depth : Nat) (previous : Span)
    (behind : Bool) (tokens : List Token) (h : behind = true -> depth ≠ 0) :
    (afterStatement? terminator depth previous (condense behind tokens)).getD
        (condense behind tokens, previous) =
      ((afterStatement? terminator depth previous tokens).getD (tokens, previous)).map
        (condense false) id := by
  induction behind, tokens using condense_induction generalizing depth previous with
  | nil => rfl
  | comment behind token rest hcomment ih =>
      rw [condense_comment hcomment, ih depth previous h, afterStatement?, if_pos hcomment]
      cases afterStatement? terminator depth previous rest with
      | none => simp [condense_comment hcomment]
      | some found => rfl
  | newline token rest hbreak ih =>
      by_cases hdepth : depth = 0
      · have hcomment := isComment_of_isLineBreak hbreak
        have hends : endsStatement terminator depth token = true := by
          simp [endsStatement, hdepth, hbreak]
        rw [condense_break hbreak, afterStatement?_cons hcomment, afterStatement?_cons hcomment,
          if_pos hends, if_pos hends, Prod.map_apply, condense_break hbreak]
        rfl
      · rw [condense_break hbreak, afterStatement?_break hbreak hdepth,
          afterStatement?_break hbreak hdepth, ih depth previous (fun _ => hdepth)]
  | repeated token rest hbreak ih =>
      rw [condense_repeated hbreak, afterStatement?_break hbreak (h rfl), ih depth previous h]
  | other behind token rest htrivia ih =>
      have hcomment := isComment_of_not_isTrivia htrivia
      rw [condense_other htrivia, afterStatement?_cons hcomment, afterStatement?_cons hcomment]
      split
      · rw [Prod.map_apply, condense_other htrivia]
        rfl
      · exact ih _ _ (by simp)

/-!
## The arrow of a function
-/

theorem arrowFollows_cons {depth : Nat} {first : Bool} {token : Token} {rest rest' : List Token}
    (h : forall depth', Grammar.arrowFollows depth' false rest =
      Grammar.arrowFollows depth' false rest') :
    Grammar.arrowFollows depth first (token :: rest) =
      Grammar.arrowFollows depth first (token :: rest') := by
  simp only [Grammar.arrowFollows, h]

theorem arrowFollows_break {depth : Nat} {token : Token} (h : token.isLineBreak = true)
    (rest : List Token) :
    Grammar.arrowFollows depth false (token :: rest) =
      if depth > 0 then Grammar.arrowFollows depth false rest else false := by
  have hkind : token.kind = .lineBreak := by simpa [Token.isLineBreak] using h
  have hpattern : token.startsPattern = false := by simp [startsPattern, patternStarts, hkind]
  simp [Grammar.arrowFollows, hkind, hpattern]

theorem arrowFollows_condense (depth : Nat) (last : Token) (behind : Bool) (tokens : List Token)
    (h : behind = true -> depth > 0) :
    Grammar.arrowFollows depth false (condense behind tokens ++ [last]) =
      Grammar.arrowFollows depth false
        (tokens.filter (fun token => !token.isComment) ++ [last]) := by
  induction behind, tokens using condense_induction generalizing depth with
  | nil => rfl
  | comment behind token rest hcomment ih =>
      rw [condense_comment hcomment, ih depth h, List.filter_cons_of_neg (by simp [hcomment])]
  | newline token rest hbreak ih =>
      have hkept := isComment_of_isLineBreak hbreak
      rw [condense_break hbreak, List.filter_cons_of_pos (by simp [hkept]), List.cons_append,
        List.cons_append, arrowFollows_break hbreak, arrowFollows_break hbreak]
      split
      · rename_i hdepth
        exact ih depth (fun _ => hdepth)
      · rfl
  | repeated token rest hbreak ih =>
      have hkept := isComment_of_isLineBreak hbreak
      rw [condense_repeated hbreak, List.filter_cons_of_pos (by simp [hkept]), List.cons_append,
        arrowFollows_break hbreak, if_pos (h rfl)]
      exact ih depth h
  | other behind token rest htrivia ih =>
      have hkept := isComment_of_not_isTrivia htrivia
      rw [condense_other htrivia, List.filter_cons_of_pos (by simp [hkept]), List.cons_append,
        List.cons_append]
      exact arrowFollows_cons (fun depth' => ih depth' (by simp))

/-!
## Condensed cursors
-/

def condensed (c : Cursor) : Cursor := { c with ahead := condense false c.ahead }

theorem significant_condensed (c : Cursor) :
    c.condensed.significant = condense false c.significant := dropWhile_isComment_condense c.ahead

theorem significant_condensed_cons {c : Cursor} {token : Token} {rest : List Token}
    (h : c.significant = token :: rest) :
    c.condensed.significant = token :: condense token.isLineBreak rest := by
  rw [significant_condensed, h, condense_head (isComment_of_significant h)]

theorem current_condensed (c : Cursor) : c.condensed.current = c.current := by
  cases hs : c.significant with
  | nil =>
      have hnone : c.condensed.significant = [] := by rw [significant_condensed, hs, condense_nil]
      rw [current_eq_final hs, current_eq_final hnone]
      rfl
  | cons token rest => rw [current_eq hs, current_eq (significant_condensed_cons hs)]

theorem fits_condensed {c : Cursor} (h : plainRecovery.Fits c) :
    plainRecovery.Fits c.condensed :=
  ⟨fun t ht => h.tokens t (mem_of_mem_condense ht).1, h.ends⟩

theorem advance_condensed {c : Cursor} (hfinal : c.final.kind = .endOfInput)
    (h : c.kind ≠ .endOfInput) :
    c.condensed.advance =
      { c.advance with ahead := condense c.current.isLineBreak c.advance.ahead } := by
  rcases significant_of_kind_ne hfinal h with ⟨rest, hs⟩
  have hs' := significant_condensed_cons hs
  rw [← current_condensed c] at hs'
  have hkind : c.condensed.kind ≠ .endOfInput := by rwa [kind, current_condensed]
  rw [advance_eq hs' hkind, advance_eq hs h, current_condensed]
  rfl

theorem skipLineBreaks_condensed (c : Cursor) :
    c.condensed.skipLineBreaks = c.skipLineBreaks.condensed := by
  unfold skipLineBreaks condensed
  rw [afterLineBreaks?_condense]
  cases afterLineBreaks? c.ahead <;> rfl

theorem skipStatement_condensed (terminator : Kind) (c : Cursor) :
    c.condensed.skipStatement terminator = (c.skipStatement terminator).condensed := by
  have hgetD : forall e : Cursor, e.skipStatement terminator =
      { e with
        ahead := ((afterStatement? terminator 0 e.previous e.ahead).getD (e.ahead, e.previous)).1
        previous :=
          ((afterStatement? terminator 0 e.previous e.ahead).getD (e.ahead, e.previous)).2 } := by
    intro e
    unfold skipStatement
    cases afterStatement? terminator 0 e.previous e.ahead <;> rfl
  have hrest := afterStatement?_condense terminator 0 c.previous false c.ahead (by simp)
  rw [hgetD, hgetD]
  simp only [condensed, hrest, Prod.map_fst, Prod.map_snd, id]

theorem tokensAhead_eq (c : Cursor) :
    c.tokensAhead = c.significant.filter (fun token => !token.isComment) ++ [c.final] := by
  have hcomments : (c.ahead.takeWhile Token.isComment).filter (fun token => !token.isComment) =
      [] := by
    apply List.filter_eq_nil_iff.mpr
    intro t ht
    simp [List.all_eq_true.mp List.all_takeWhile t ht]
  rw [tokensAhead, c.ahead_eq_significant, List.filter_append, hcomments, List.nil_append]

theorem mayBeFunction_condensed (c : Cursor) :
    Grammar.mayBeFunction c.condensed = Grammar.mayBeFunction c := by
  have hkind : c.condensed.kind = c.kind := by rw [kind, current_condensed, kind]
  unfold Grammar.mayBeFunction
  rw [hkind]
  cases hstarts : patternStarts.contains c.kind with
  | false => rfl
  | true =>
      rw [Bool.true_and, Bool.true_and, tokensAhead_eq, tokensAhead_eq]
      cases hs : c.significant with
      | nil => rw [significant_condensed, hs, condense_nil]; rfl
      | cons token rest =>
          have hbreak : token.isLineBreak = false := by
            rw [kind, current_eq hs] at hstarts
            cases hline : token.isLineBreak with
            | false => rfl
            | true =>
                have hkind : token.kind = .lineBreak := by simpa [Token.isLineBreak] using hline
                rw [hkind] at hstarts
                cases hstarts
          have hcomment := isComment_of_significant hs
          rw [significant_condensed_cons hs, hbreak,
            List.filter_cons_of_pos (by simp [hcomment]),
            List.filter_cons_of_pos (by simp [hcomment]), filter_condense]
          exact arrowFollows_cons (fun depth =>
            arrowFollows_condense depth c.final false rest (by simp))

end Cursor

/-!
## Reading the condensed tokens
-/

def Relabelling.uncommented : Relabelling := { Relabelling.identity with commented := false }

/-- A source file with no comments above its definitions, at any level. -/
def SourceFile.uncommented (file : SourceFile) : SourceFile :=
  { file with statements := file.statements.map (Statement.relabel .uncommented) }

namespace Cursor

open Token

structure Condenses (c d : Cursor) : Prop where
  fits : plainRecovery.Fits c
  same : d = c.condensed

theorem clears_condense {c d : Cursor} {behind : Bool} (hc : plainRecovery.Fits c)
    (hd : d = { c with ahead := condense behind c.ahead }) :
    Clears .uncommented Condenses c d where
  comments := by
    have hnone : (d.ahead.takeWhile isTrivia).filter Token.isComment = [] := by
      apply List.filter_eq_nil_iff.mpr
      intro t ht
      have hmem := (List.takeWhile_sublist _).subset ht
      rw [hd] at hmem
      simp [(mem_of_mem_condense hmem).2]
    rw [leadingComments, hnone]
    rfl
  twin := by
    refine ⟨hc.after c.skipTrivia_passage, ?_⟩
    rw [hd]
    simp only [skipTrivia, condensed, dropWhile_isTrivia_condense]

end Cursor

def Correspondence.condensed : Correspondence where
  relabelling := .uncommented
  Twin _ := Cursor.Condenses
  Said g h := h = g
  Whole := True
  Lossy := False
  lossy := never_lossy
  fits := by
    rintro σ c d ⟨hc, rfl⟩
    exact ⟨hc, Cursor.fits_condensed hc, rfl⟩
  deepen := by
    rintro σ c d depth ⟨hc, rfl⟩
    exact ⟨⟨hc.tokens, hc.ends⟩, rfl⟩
  refine _ h := h
  current := by
    rintro σ c d ⟨_, rfl⟩
    exact Or.inl c.current_condensed
  said _ _ := rfl
  saidAll h := absurd trivial h
  previous := by
    rintro σ c d ⟨_, rfl⟩ _
    rfl
  arrow := by
    rintro σ c d ⟨_, rfl⟩
    exact c.mayBeFunction_condensed
  read := by
    rintro p S S' k c d ⟨hc, rfl⟩ _ hend hbreak _
    have hline : c.current.isLineBreak = false := by
      have hkind : c.current.kind ≠ .lineBreak := hbreak
      simpa [Token.isLineBreak] using hkind
    refine ⟨hc.after (Cursor.advance_passage hc.final hend), ?_⟩
    rw [Cursor.advance_condensed hc.final hend, hline]
    rfl
  skip := by
    rintro S k c d ⟨hc, rfl⟩
    rcases c.skipLineBreaks_passage with ⟨read, passage, _⟩
    exact ⟨hc.after passage, c.skipLineBreaks_condensed⟩
  stray := by
    rintro S k c d ⟨hc, rfl⟩
    rcases c.skipLineBreaks_passage with ⟨read, passage, _⟩
    exact Or.inl ⟨hc.after passage, c.skipLineBreaks_condensed⟩
  trivia := by
    rintro p S k c d _ ⟨hc, rfl⟩
    exact Cursor.clears_condense hc rfl
  newline := by
    rintro p S k c d _ ⟨hc, rfl⟩ hline
    have hend : c.kind ≠ .endOfInput := by simp [hline]
    exact Cursor.clears_condense (hc.after (Cursor.advance_passage hc.final hend))
      (Cursor.advance_condensed hc.final hend)
  recover := by
    rintro terminator p S k σ c d c' d' read noted read' noted' g h _ _ _ _ ⟨hc, rfl⟩ _ _ _ rfl
    have hrecorded : plainRecovery.Fits (c'.record h) := ⟨hc.tokens, hc.ends⟩
    have hsame : (c'.condensed.record h).skipStatement terminator =
        ((c'.record h).skipStatement terminator).condensed :=
      (c'.record h).skipStatement_condensed terminator
    rcases (c'.record h).skipStatement_passage terminator hc.final with ⟨skipped, passage, _⟩
    rw [hsame]
    exact ⟨⟨hrecorded.after passage, rfl⟩, rfl⟩

/-- Comments and blank lines are transparent: without them the same diagnostics are
noted and the same tree is read, spans included, but for the comments above
definitions. -/
theorem parseTokens_condense (body : List Token) (last : Token)
    (hlast : last.kind = .endOfInput) (hquoted : forall t, t ∈ body -> t.Quoted) :
    exists parsed, parseTokens (body ++ [last]) = .ok parsed ∧
      parseTokens (Token.condense false (body ++ [last])) =
        .ok { file := parsed.file.uncommented, errors := parsed.errors } := by
  rcases Grammar.exists_statements hlast hquoted with ⟨found, c, hfound⟩
  have htracks : Correspondence.condensed.Tracks false [] ⟨.expecting, [], false⟩
      (fun _ => True) (Grammar.statements Level.outermost .endOfInput)
      (Grammar.statements Level.outermost .endOfInput) (fun _ => ⟨.any, [], false⟩)
      (List.map (Statement.relabel .uncommented)) :=
    Grammar.statements_tracks (Grammar.tracks_ofRoom _ _) (Or.inl trivial) (Or.inr ⟨rfl, rfl⟩)
  have hreplies := htracks (Cursor.opening body last)
    (Cursor.opening (Token.condense false body) last)
    ⟨Cursor.fits_opening hlast hquoted, rfl⟩ trivial
  rw [hfound] at hreplies
  rcases hreplies.exists_ok with ⟨d, hfound', _, hsame⟩
  let parsed : Parsed :=
    { file := { statements := found, span := Span.between 0 c.current.span.stop }
      errors := c.errors }
  refine ⟨parsed, ?_, ?_⟩
  · rw [parseTokens, Cursor.ofTokens_append hlast, hfound]
  · rw [parseTokens, Token.condense_append_last hlast, Cursor.ofTokens_append hlast, hfound',
      hsame]
    simp only [Cursor.current_condensed]
    rfl

/-- Of the eleven tokens of a text with two comments, three are left out: the comments,
and the line break behind the second. -/
theorem parseTokens_condense_lines :
    (tokenize "--a\nX : type\n--b\n\n(y").1.length = 11 ∧
      (Token.condense false (tokenize "--a\nX : type\n--b\n\n(y").1).length = 8 ∧
      exists parsed, parseTokens (tokenize "--a\nX : type\n--b\n\n(y").1 = .ok parsed ∧
        parseTokens (Token.condense false (tokenize "--a\nX : type\n--b\n\n(y").1) =
          .ok { file := parsed.file.uncommented, errors := parsed.errors } := by
  refine ⟨by decide +kernel, by decide +kernel, ?_⟩
  rcases tokenize_wellFormed "--a\nX : type\n--b\n\n(y" with ⟨body, stop, htokens, hbody⟩
  rw [htokens]
  exact parseTokens_condense body (Token.endAt stop) rfl (fun t ht => (hbody t ht).quoted)

end Linewise
