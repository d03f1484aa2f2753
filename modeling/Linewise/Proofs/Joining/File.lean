import Linewise.Proofs.Parallel.Aligned

/-!
# The statements of a file

The list of the statements of a file is taken apart into its first statement and the
rest.  What is left behind some lines is read as if it stood alone, apart from the
diagnostics that were noted before.
-/

namespace Linewise
namespace Grammar

open Linewise.Parser
open Linewise.Correspondence

/-!
## Statements that end with a line
-/

theorem endOfStatement_of_margin {c : Cursor} (h : c.AtMargin) :
    endOfStatement .endOfInput c = .ok () c := by
  rcases h with hc | hc <;>
    simp [endOfStatement, bind_apply, Parser.isAt, look, atListEnd, Cursor.hasTokens, Cursor.isAt,
      hc, pure_apply]

theorem endOfStatement_file_tracks {K : Correspondence} {lax k : Bool} {S : List Bracket}
    {p : Phase} {pre : Cursor -> Prop} :
    K.Tracks lax S ⟨p, S, k⟩ pre (endOfStatement .endOfInput) (endOfStatement .endOfInput)
      (fun _ => ⟨p, S, k⟩) id := by
  intro c d htwin hpre
  by_cases hc : c.AtMargin
  · have hd : d.AtMargin := by
      rcases alike htwin with hsame | ⟨_, hd⟩
      · rwa [Cursor.AtMargin, kind_eq hsame]
      · exact hd
    rw [endOfStatement_of_margin hc, endOfStatement_of_margin hd]
    exact Replies.gave rfl htwin
  · have hsame := same_of_kind htwin hc
    have hstop : forall e : Cursor, ¬ e.AtMargin -> endOfStatement .endOfInput e =
        Parser.unexpected ("line break or " ++ Kind.endOfInput.describe) e := by
      intro e he
      have hend : e.kind ≠ .endOfInput := fun h => he (Or.inl h)
      have hbreak : e.kind ≠ .lineBreak := fun h => he (Or.inr h)
      simp [endOfStatement, bind_apply, Parser.isAt, look, atListEnd, Cursor.hasTokens,
        Cursor.isAt, hend, hbreak]
    rw [hstop c hc, hstop d (by rwa [Cursor.AtMargin, kind_eq hsame])]
    exact Tracks.unexpected _ c d htwin hpre

theorem statementLine_file_tracks {K : Correspondence} {level : Level} (hlevel : level.Tracks K)
    {pre : Cursor -> Prop} (hmargin : forall c, pre c -> ¬ c.AtMargin) (comments : List Lexeme) :
    K.Tracks true [] ⟨.expecting, [], true⟩ pre (statementLine level .endOfInput comments)
      (statementLine level .endOfInput (K.relabelling.comments comments))
      (fun _ => ⟨.settled, [], false⟩) (Statement.relabel K.relabelling) := by
  apply Tracks.bind (hlevel.statement comments (by simp) hmargin)
  intro found
  apply Tracks.bind endOfStatement_file_tracks
  intro _
  exact Tracks.give rfl

/-!
## The first statement
-/

theorem map_of_ok {α β : Type} {f : α -> β} {parser : Parser α} {c d : Cursor} {value : α}
    (h : parser c = .ok value d) : (f <$> parser) c = .ok (f value) d := by
  show (parser >>= fun value => pure (f value)) c = _
  rw [bind_apply, h]
  rfl

variable {level : Level} {bound : Nat} {c c' : Cursor} {found : Statement}

theorem statementsUpTo_first (h : c.Begins .endOfInput) :
    statementsUpTo level .endOfInput (bound + 1) c =
      (do
        let first <- recovering .endOfInput (statementLine level .endOfInput [])
        let more <- Parser.isAt .lineBreak
        if more then
          let _ <- advance
          let rest <- statementsUpTo level .endOfInput bound
          pure (first :: rest)
        else
          pure [first] : Parser (List Statement)) c := by
  rcases h.ahead with ⟨first, rest, hahead, htrivia⟩
  have hcomments : c.leadingComments = [] := by simp [Cursor.leadingComments, hahead, htrivia]
  have hskip : c.skipTrivia = c := by
    have hdrop : c.ahead.dropWhile Cursor.isTrivia = c.ahead := by simp [hahead, htrivia]
    rw [Cursor.skipTrivia, hdrop]
  have hinside := h.inside
  rw [statementsUpTo]
  simp [bind_apply, Parser.leadingComments, look, hcomments, hskip, hinside]

/-- One statement, read or given up, is a passage to the end of its line. -/
theorem passage_recovering (hc : plainRecovery.Fits c) (h : c.Begins .endOfInput)
    (hfirst : recovering .endOfInput (statementLine Level.outermost .endOfInput []) c =
      .ok found c') :
    c'.EndsLine .endOfInput ∧ exists read noted, c.Passage read noted c' := by
  have hlists : (recovering .endOfInput (statementLine Level.outermost .endOfInput [])
      c).Satisfies _ _ := recovering_lists (keeps_outermost plainRecovery) (spans_ofRoom _) hc h
  rw [hfirst] at hlists
  rcases hlists with ⟨⟨read, noted, passage, _⟩, hends⟩
  exact ⟨hends, read, noted, passage⟩

theorem statementsUpTo_last (h : c.Begins .endOfInput)
    (hfirst : recovering .endOfInput (statementLine level .endOfInput []) c = .ok found c')
    (hend : c'.kind ≠ .lineBreak) :
    statementsUpTo level .endOfInput (bound + 1) c = .ok [found] c' := by
  rw [statementsUpTo_first h]
  simp [bind_apply, hfirst, Parser.isAt, look, Cursor.isAt, hend, pure_apply]

theorem statementsUpTo_next (h : c.Begins .endOfInput)
    (hfirst : recovering .endOfInput (statementLine level .endOfInput []) c = .ok found c')
    (hline : c'.kind = .lineBreak) :
    statementsUpTo level .endOfInput (bound + 1) c =
      (List.cons found <$> statementsUpTo level .endOfInput bound) c'.advance := by
  have hat : c'.isAt .lineBreak = true := by simp [Cursor.isAt, hline]
  rw [statementsUpTo_first h]
  simp only [bind_apply, hfirst, Parser.isAt, look, hat, if_true, Parser.advance]
  rfl

end Grammar

/-!
## The rest of a file
-/

/-- A statement of a file begins with a token that is neither trivia nor the end. -/
theorem Cursor.begins_of_ahead {c : Cursor} {first : Token} {rest : List Token}
    (hahead : c.ahead = first :: rest) (htrivia : isTrivia first = false)
    (hend : first.kind ≠ .endOfInput) : c.Begins .endOfInput := by
  refine ⟨⟨first, rest, hahead, htrivia⟩, ?_⟩
  simp [Grammar.atListEnd, hasTokens, isAt, kind, current, significant, hahead,
    isComment_of_not_isTrivia htrivia, hend]

def Cursor.opening (body : List Token) (last : Token) : Cursor where
  ahead := body
  final := last
  previous := default
  errors := []
  depth := 0

theorem Cursor.ofTokens_append {body : List Token} {last : Token} (h : last.kind = .endOfInput) :
    Cursor.ofTokens (body ++ [last]) = Cursor.opening body last := by
  simp [Cursor.ofTokens, Cursor.opening, h]

theorem Cursor.fits_opening {body : List Token} {last : Token} (h : last.kind = .endOfInput)
    (hquoted : forall t, t ∈ body -> t.Quoted) :
    plainRecovery.Fits (Cursor.opening body last) := ⟨hquoted, h⟩

theorem Cursor.fits_below {first second : List Token} {newline last : Token}
    (hnewline : newline.kind = .lineBreak) (hlast : last.kind = .endOfInput)
    (hquoted : forall t, t ∈ first ++ second -> t.Quoted) :
    plainRecovery.Fits (Cursor.opening (first ++ newline :: second) last) := by
  apply Cursor.fits_opening hlast
  intro t ht
  rcases List.mem_append.mp ht with ht | ht
  · exact hquoted t (List.mem_append_left second ht)
  · rcases List.mem_cons.mp ht with rfl | ht
    · intro htext
      rw [hnewline] at htext
      cases htext
    · exact hquoted t (List.mem_append_right first ht)

theorem eq_ok_of_toOption {result : Except Fault Parsed} {parsed : Parsed}
    (h : result.toOption = some parsed) : result = .ok parsed := by
  cases result with
  | error fault => cases h
  | ok found =>
      cases h
      rfl

namespace Grammar

variable {body : List Token} {last : Token}

/-- The statements of a file can always be read. -/
theorem exists_statements (hlast : last.kind = .endOfInput)
    (hquoted : forall t, t ∈ body -> t.Quoted) :
    exists found d, statements Level.outermost .endOfInput (Cursor.opening body last) =
      .ok found d := by
  have hlists := statements_lists (keeps_outermost plainRecovery) (spans_ofRoom _) .endOfInput
    (Cursor.fits_opening hlast hquoted)
  cases hreply : statements Level.outermost .endOfInput (Cursor.opening body last) with
  | ok found d => exact ⟨found, d, rfl⟩
  | error diagnostic d =>
      rw [hreply] at hlists
      exact hlists.elim
  | fault found =>
      rw [hreply] at hlists
      exact hlists.elim

theorem parseTokens_of_statements {found : List Statement} {d : Cursor}
    (hlast : last.kind = .endOfInput)
    (h : statements Level.outermost .endOfInput (Cursor.opening body last) = .ok found d) :
    exists parsed, parseTokens (body ++ [last]) = .ok parsed ∧
      parsed.file.statements = found ∧ parsed.errors = d.errors := by
  unfold parseTokens
  rw [Cursor.ofTokens_append hlast, h]
  exact ⟨_, rfl, rfl, rfl⟩

theorem statements_rest {found : List Statement} {c d : Cursor} (hlast : last.kind = .endOfInput)
    (hquoted : forall t, t ∈ body -> t.Quoted)
    (hfound : statements Level.outermost .endOfInput (Cursor.opening body last) = .ok found c)
    (hahead : d.ahead = body) (hfinal : d.final = last) (hdepth : d.depth = 0) :
    exists d', statements Level.outermost .endOfInput d = .ok found d' ∧
      d'.errors = d.errors ++ c.errors := by
  have haligned : (Cursor.opening body last).Aligned .identity d.errors
      ⟨.expecting, [], false⟩ d := by
    refine ⟨Cursor.fits_opening hlast hquoted, ?_, ?_, hdepth, ?_, Or.inl ⟨rfl, Or.inl rfl⟩⟩
    · rw [hahead]
      exact (Relabelling.map_identity Token.relabel_identity _).symm
    · exact hfinal
    · simp [Cursor.opening]
  rcases statements_aligned rfl haligned hfound with ⟨d', hfound', herrors, _⟩
  rw [Relabelling.map_identity Statement.relabel_identity] at hfound'
  rw [Relabelling.map_identity Diagnostic.relabel_identity] at herrors
  exact ⟨d', hfound', herrors⟩

theorem advance_newline {d : Cursor} {newline : Token} {rest : List Token}
    (hahead : d.ahead = newline :: rest) (hnewline : newline.kind = .lineBreak) :
    d.kind = .lineBreak ∧ d.advance = { d with ahead := rest } := by
  have hcomment : newline.isComment = false := by simp [Token.isComment, hnewline]
  have hbreak : newline.isLineBreak = true := by simp [Token.isLineBreak, hnewline]
  have hsignificant : d.significant = newline :: rest := by
    simp [Cursor.significant, hahead, hcomment]
  have hcurrent := Cursor.current_eq hsignificant
  have hkind : d.kind = .lineBreak := by rw [Cursor.kind, hcurrent, hnewline]
  refine ⟨hkind, ?_⟩
  rw [← hcurrent] at hsignificant
  rw [Cursor.advance_eq hsignificant (by simp [hkind]), hcurrent, Cursor.spanAfter, if_pos hbreak]

/-- Below the last line that was read stands a file of its own. -/
theorem statementsUpTo_below {bound : Nat} {newline : Token} {found : Statement}
    {others : List Statement} {c d d' : Cursor} (hlast : last.kind = .endOfInput)
    (hquoted : forall t, t ∈ body -> t.Quoted)
    (hothers : statements Level.outermost .endOfInput (Cursor.opening body last) = .ok others c)
    (hd : plainRecovery.Fits d) (hbegins : d.Begins .endOfInput)
    (hfirst : recovering .endOfInput (statementLine Level.outermost .endOfInput []) d =
      .ok found d')
    (hahead : d'.ahead = newline :: body) (hnewline : newline.kind = .lineBreak)
    (hfinal : d.final = last) (hdepth : d.depth = 0) (hbound : d.ahead.length < bound) :
    exists e, statementsUpTo Level.outermost .endOfInput bound d = .ok (found :: others) e ∧
      e.errors = d'.errors ++ c.errors := by
  rcases passage_recovering hd hbegins hfirst with ⟨_, read, noted, passage⟩
  rcases advance_newline hahead hnewline with ⟨hkind, hadvance⟩
  rcases statements_rest (d := d'.advance) hlast hquoted hothers (by rw [hadvance])
    (by rw [hadvance]; exact passage.final.trans hfinal)
    (by rw [hadvance]; exact passage.depth.trans hdepth) with ⟨e, hrest, herrors⟩
  cases bound with
  | zero => exact absurd hbound (Nat.not_lt_zero _)
  | succ bound =>
      have hlength : body.length < bound := by
        have hall := congrArg List.length passage.ahead
        rw [hahead, List.length_append, List.length_cons] at hall
        omega
      have hfits : plainRecovery.Fits d'.advance :=
        (hd.after passage).after (Cursor.advance_passage (hd.after passage).final (by simp [hkind]))
      have hlonger : d'.advance.ahead.length < bound := by rwa [hadvance]
      have hsame := statementsUpTo_bound (keeps_outermost plainRecovery) (spans_ofRoom _)
        .endOfInput bound (d'.advance.ahead.length + 1) hfits hlonger (Nat.lt_succ_self _)
      refine ⟨e, ?_, ?_⟩
      · rw [statementsUpTo_next hbegins hfirst hkind]
        exact map_of_ok (hsame.trans hrest)
      · rw [herrors, hadvance]

end Grammar

end Linewise
