import Linewise.Proofs.Carrying.Statement
import Linewise.Proofs.Joining.File

/-!
# Between parentheses

The tokens of a text are put between parentheses.  Where the text ended, the closing
parenthesis stands, and one more level is open around every token.  No rule looks as far
as the parenthesis if the brackets of the text are matched, and those of a text that is
read without a diagnostic are.
-/

namespace Linewise

namespace Bracket

theorem unwind_comments (stack : List Bracket) (tokens : List Token) :
    unwind stack ((tokens.filter (fun token => !token.isComment)).map Token.kind) =
      unwind stack (tokens.map Token.kind) := by
  induction tokens generalizing stack with
  | nil => rfl
  | cons token rest ih =>
      cases hcomment : token.isComment with
      | true =>
          rw [List.filter_cons_of_neg (by simp [hcomment]), List.map_cons, unwind_cons,
            step_plain (plain_of_isComment hcomment), ih]
          rfl
      | false =>
          rw [List.filter_cons_of_pos (by simp [hcomment]), List.map_cons, List.map_cons,
            unwind_cons, unwind_cons]
          simp only [ih]

theorem unwind_current {c : Cursor} {stack behind : List Bracket}
    (h : step stack c.kind = some behind) :
    unwind stack ((c.ahead.takeWhile Token.isComment ++ [c.current]).map Token.kind) =
      some behind := by
  have hstep : step stack c.current.kind = some behind := h
  rw [List.map_append, unwind_append, unwind_trivia (fun t ht => Cursor.isTrivia_of_comments ht),
    Option.bind_some, List.map_singleton, unwind_cons, hstep]
  rfl

theorem unwind_skipped (stack : List Bracket) (tokens : List Token) :
    unwind stack ((tokens.takeWhile Cursor.isTrivia).map Token.kind) = some stack :=
  unwind_trivia (fun t ht => List.all_eq_true.mp List.all_takeWhile t ht) stack

end Bracket

/-!
## Matched brackets
-/

namespace Cursor

/-- The tokens of the text in front of the cursor leave the brackets of the standing
open. -/
structure Unwound (text : List Token) (σ : Standing) (c : Cursor) : Prop where
  fits : plainRecovery.Fits c
  depth : c.depth = σ.depth
  read : exists read, text = read ++ c.ahead ∧
    Bracket.unwind [] (read.map Token.kind) = some σ.stack

theorem Unwound.after {text read : List Token} {noted : List Diagnostic} {σ : Standing}
    {j : Bool} {S : List Bracket} {c d : Cursor} (h : Unwound text σ c)
    (passage : c.Passage read noted d)
    (hread : Bracket.unwind σ.stack (read.map Token.kind) = some S) :
    Unwound text ⟨j, S, σ.depth⟩ d := by
  refine ⟨h.fits.after passage, passage.depth.trans h.depth, ?_⟩
  rcases h.read with ⟨before, htext, hbefore⟩
  refine ⟨before ++ read, ?_, ?_⟩
  · rw [htext, passage.ahead, List.append_assoc]
  · rw [List.map_append, Bracket.unwind_append, hbefore, Option.bind_some, hread]

end Cursor

def Pairing.unwound (text : List Token) : Pairing where
  Twin σ c d := d = c ∧ c.Unwound text σ
  Whole := True
  lift := 0
  fits := by
    rintro σ c _ ⟨rfl, h⟩
    exact ⟨h.fits, h.fits⟩
  depth := by
    rintro σ c _ ⟨rfl, h⟩
    exact ⟨h.depth, h.depth⟩
  deepen := by
    rintro j S k c _ depth ⟨rfl, h⟩
    exact ⟨rfl, ⟨h.fits.tokens, h.fits.ends⟩, rfl, h.read⟩
  previous := by
    rintro σ c _ ⟨rfl, _⟩
    rfl
  current := by
    rintro S k c _ ⟨rfl, _⟩
    exact Or.inl rfl
  arrow := by
    rintro S k c _ ⟨rfl, _⟩
    rfl
  read := by
    rintro S S' k c _ ⟨rfl, h⟩ _ hend hstep
    exact ⟨rfl, h.after (Cursor.advance_passage h.fits.final hend)
      (Bracket.unwind_current hstep)⟩
  skip := by
    rintro j S k c _ ⟨rfl, h⟩
    rcases Cursor.skipLineBreaks_passage _ with ⟨read, passage, htrivia⟩
    exact ⟨rfl, h.after passage (Bracket.unwind_trivia htrivia S)⟩
  trivia := by
    rintro S k c _ ⟨rfl, h⟩
    exact ⟨rfl, rfl, h.after (Cursor.skipTrivia_passage _) (Bracket.unwind_skipped S _)⟩

/-!
## Texts in parentheses
-/

namespace Cursor

variable {closing last : Token} {σ : Standing} {S S' : List Bracket} {j : Bool} {k : Nat}
  {c d : Cursor}

theorem takeWhile_concat {p : Token -> Bool} (h : p closing = false) (tokens : List Token) :
    (tokens ++ [closing]).takeWhile p = tokens.takeWhile p := by
  induction tokens with
  | nil => simp [h]
  | cons token rest ih => simp only [List.cons_append, List.takeWhile_cons, ih]

theorem dropWhile_concat {p : Token -> Bool} (h : p closing = false) (tokens : List Token) :
    (tokens ++ [closing]).dropWhile p = tokens.dropWhile p ++ [closing] := by
  induction tokens with
  | nil => simp [h]
  | cons token rest ih =>
      rw [List.cons_append, List.dropWhile_cons, List.dropWhile_cons, ih]
      split <;> rfl

theorem afterLineBreaks?_concat (hclosing : Cursor.isTrivia closing = false)
    (tokens : List Token) :
    afterLineBreaks? (tokens ++ [closing]) =
      (afterLineBreaks? tokens).map (fun rest => rest ++ [closing]) := by
  have hsolid : closing.isComment = false ∧ closing.isLineBreak = false := by
    simpa [Cursor.isTrivia] using hclosing
  induction tokens with
  | nil => simp [afterLineBreaks?, hsolid.1, hsolid.2]
  | cons token rest ih =>
      rw [List.cons_append, afterLineBreaks?, afterLineBreaks?, ih]
      split
      · rfl
      · split
        · cases afterLineBreaks? rest <;> rfl
        · rfl

/-- The second cursor stands at the same place in the text between parentheses, of which
the first one is already read. -/
structure Enclosed (closing last : Token) (σ : Standing) (c d : Cursor) : Prop where
  fits : plainRecovery.Fits c
  depth : c.depth = σ.depth
  brackets : Bracket.unwind σ.stack (c.ahead.map Token.kind) = some []
  same : d = { c with ahead := c.ahead ++ [closing], final := last, depth := c.depth + 1 }

namespace Enclosed

theorem fits' (hclosing : closing.kind = .mark .closeParen) (hlast : last.kind = .endOfInput)
    (h : Enclosed closing last σ c d) : plainRecovery.Fits d := by
  rw [h.same]
  refine ⟨?_, hlast⟩
  intro t ht
  rcases List.mem_append.mp ht with ht | ht
  · exact h.fits.tokens t ht
  · intro htext
    rw [List.mem_singleton.mp ht, hclosing] at htext
    cases htext

theorem moved {c' d' : Cursor} {read rest : List Token} (previous : Span)
    (h : Enclosed closing last σ c d) (hahead : c.ahead = read ++ rest)
    (hread : Bracket.unwind σ.stack (read.map Token.kind) = some S)
    (hc : c' = { c with ahead := rest, previous := previous })
    (hd : d' = { d with ahead := rest ++ [closing], previous := previous }) :
    Enclosed closing last ⟨j, S, σ.depth⟩ c' d' := by
  subst hc hd
  refine ⟨⟨?_, h.fits.ends⟩, h.depth, ?_, ?_⟩
  · intro t ht
    apply h.fits.tokens
    rw [hahead]
    exact List.mem_append_right read ht
  · have hbrackets := h.brackets
    rwa [hahead, List.map_append, Bracket.unwind_append, hread, Option.bind_some] at hbrackets
  · rw [h.same]

theorem significant (hclosing : closing.kind = .mark .closeParen)
    (h : Enclosed closing last σ c d) :
    d.significant = c.significant ++ [closing] := by
  have hcomment : closing.isComment = false := by simp [Token.isComment, hclosing]
  rw [h.same]
  exact dropWhile_concat hcomment c.ahead

theorem current (hclosing : closing.kind = .mark .closeParen)
    (h : Enclosed closing last σ c d) :
    d.current = c.current ∨ (σ.stack = [] ∧ c.AtClose ∧ d.AtClose) := by
  have hsignificant := h.significant hclosing
  cases hs : c.significant with
  | cons token rest =>
      rw [hs] at hsignificant
      exact Or.inl (by rw [Cursor.current_eq hs, Cursor.current_eq hsignificant])
  | nil =>
      rw [hs] at hsignificant
      refine Or.inr ⟨?_, Or.inl ?_, Or.inr ?_⟩
      · have hcomments := c.ahead_eq_significant
        rw [hs, List.append_nil] at hcomments
        have hbrackets := h.brackets
        rw [hcomments, Bracket.unwind_trivia (fun t ht => Cursor.isTrivia_of_comments ht)]
          at hbrackets
        exact Option.some.inj hbrackets
      · rw [Cursor.kind, Cursor.current_eq_final hs]
        exact h.fits.final
      · rw [Cursor.kind, Cursor.current_eq hsignificant, hclosing]

theorem advance (hclosing : closing.kind = .mark .closeParen)
    (h : Enclosed closing last ⟨j, S, k⟩ c d) (hsame : d.current = c.current)
    (hend : c.kind ≠ .endOfInput) (hstep : Bracket.step S c.kind = some S') :
    Enclosed closing last ⟨c.kind.joins, S', k⟩ c.advance d.advance := by
  rcases Cursor.significant_of_kind_ne h.fits.final hend with ⟨rest, hs⟩
  have hs' : d.significant = d.current :: (rest ++ [closing]) := by
    rw [h.significant hclosing, hs, hsame, List.cons_append]
  have hend' : d.kind ≠ .endOfInput := by rwa [Cursor.kind, hsame]
  have hprevious : d.previous = c.previous := by rw [h.same]
  apply h.moved _ _ (Bracket.unwind_current hstep) (Cursor.advance_eq hs hend)
  · rw [Cursor.advance_eq hs' hend', hsame, hprevious]
  · rw [List.append_assoc, List.singleton_append, ← hs]
    exact c.ahead_eq_significant

theorem skipLineBreaks (hclosing : closing.kind = .mark .closeParen)
    (h : Enclosed closing last ⟨j, S, k⟩ c d) :
    Enclosed closing last ⟨false, S, k⟩ c.skipLineBreaks d.skipLineBreaks := by
  have hsolid : Cursor.isTrivia closing = false := by
    simp [Cursor.isTrivia, Token.isComment, Token.isLineBreak, hclosing]
  have hahead : d.ahead = c.ahead ++ [closing] := by rw [h.same]
  have hprevious : d.previous = c.previous := by rw [h.same]
  rcases c.skipLineBreaks_passage with ⟨read, passage, htrivia⟩
  refine h.moved c.previous passage.ahead (Bracket.unwind_trivia htrivia S) rfl ?_
  rw [← hprevious, Cursor.skipLineBreaks, Cursor.skipLineBreaks, hahead,
    afterLineBreaks?_concat hsolid]
  cases afterLineBreaks? c.ahead <;> rfl

theorem skipTrivia (hclosing : closing.kind = .mark .closeParen)
    (h : Enclosed closing last ⟨j, S, k⟩ c d) :
    d.leadingComments = c.leadingComments ∧
      Enclosed closing last ⟨false, S, k⟩ c.skipTrivia d.skipTrivia := by
  have hsolid : Cursor.isTrivia closing = false := by
    simp [Cursor.isTrivia, Token.isComment, Token.isLineBreak, hclosing]
  have hahead : d.ahead = c.ahead ++ [closing] := by rw [h.same]
  have hprevious : d.previous = c.previous := by rw [h.same]
  constructor
  · rw [Cursor.leadingComments, Cursor.leadingComments, hahead, takeWhile_concat hsolid]
  · refine h.moved c.previous c.skipTrivia_passage.ahead
      (Bracket.unwind_skipped S _) rfl ?_
    rw [← hprevious, Cursor.skipTrivia, hahead, dropWhile_concat hsolid]
    rfl

theorem mayBeFunction (hclosing : closing.kind = .mark .closeParen)
    (h : Enclosed closing last ⟨j, S, k⟩ c d) :
    Grammar.mayBeFunction d = Grammar.mayBeFunction c := by
  have hnone : forall e : Cursor, e.AtClose -> Grammar.mayBeFunction e = false := by
    rintro e (he | he) <;> simp [Grammar.mayBeFunction, Token.patternStarts, he]
  rcases h.current hclosing with hsame | ⟨_, hc, hd⟩
  · unfold Grammar.mayBeFunction
    rw [Cursor.kind, Cursor.kind, hsame]
    cases hstarts : Token.patternStarts.contains c.current.kind with
    | false => rfl
    | true =>
        have hmem : c.kind ∈ Token.patternStarts := List.contains_iff_mem.mp hstarts
        have hnever : Kind.endOfInput ∉ Token.patternStarts := by decide
        have hend : c.kind ≠ .endOfInput := by
          intro hkind
          rw [hkind] at hmem
          exact hnever hmem
        rcases Cursor.significant_of_kind_ne h.fits.final hend with ⟨rest, hs⟩
        have hcomment := Cursor.isComment_of_significant hs
        have hfilled : c.ahead.filter (fun token => !token.isComment) ≠ [] := by
          have hcurrent := Cursor.mem_ahead_of_significant hs
          exact List.ne_nil_of_mem (List.mem_filter.mpr ⟨hcurrent, by simp [hcomment]⟩)
        have hahead : d.tokensAhead =
            c.ahead.filter (fun token => !token.isComment) ++ [closing, last] := by
          have hplain : closing.isComment = false := by simp [Token.isComment, hclosing]
          rw [h.same]
          simp [Cursor.tokensAhead, hplain]
        have hbrackets := h.brackets
        rw [← Bracket.unwind_comments] at hbrackets
        rw [Bool.true_and, Bool.true_and, hahead, Cursor.tokensAhead]
        apply Grammar.arrowFollows_append _ _ hbrackets (Nat.zero_le _) (fun _ => hfilled)
        · simp [Grammar.arrowFollows, show c.final.kind = .endOfInput from h.fits.final]
        · simp [Grammar.arrowFollows, hclosing, Token.startsPattern, Token.patternStarts]
  · rw [hnone c hc, hnone d hd]

end Enclosed
end Cursor

def Pairing.enclosed (closing last : Token) (hclosing : closing.kind = .mark .closeParen)
    (hlast : last.kind = .endOfInput) : Pairing where
  Twin := Cursor.Enclosed closing last
  Whole := False
  lift := 1
  fits h := ⟨h.fits, h.fits' hclosing hlast⟩
  depth := by
    intro σ c d h
    refine ⟨h.depth, ?_⟩
    rw [h.same, ← h.depth]
  deepen := by
    intro j S k c d depth h
    refine ⟨⟨h.fits.tokens, h.fits.ends⟩, rfl, h.brackets, ?_⟩
    rw [h.same]
  previous := by
    intro σ c d h
    rw [h.same]
  current := by
    intro S k c d h
    rcases h.current hclosing with hsame | hmargin
    · exact Or.inl hsame
    · exact Or.inr ⟨id, hmargin⟩
  arrow h := h.mayBeFunction hclosing
  read h hsame hend hstep := h.advance hclosing hsame hend hstep
  skip h := h.skipLineBreaks hclosing
  trivia h := h.skipTrivia hclosing

end Linewise
