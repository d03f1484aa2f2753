import Linewise.Proofs.Joining.Extension
import Linewise.Proofs.Joining.File

/-!
# A line and its neighbours

A line whose brackets are matched and whose last token ends an operand is read alike
with and without other lines below it, and also given up alike: the brackets that
were open where it failed are closed before the line ends, so the count is back at
zero there.  What follows is read as if it stood alone.
-/

namespace Linewise

/-!
## Giving up a line
-/

namespace Cursor

theorem afterStatement?_line {tokens more : List Token} {previous : Span} {stack : List Bracket}
    {depth : Nat}
    (hplain : forall t, t ∈ tokens -> isTrivia t = false ∧ t.kind ≠ .endOfInput)
    (hmore : forall t, more.head? = some t -> t.isLineBreak = true)
    (hstack : Bracket.unwind stack (tokens.map Token.kind) = some [])
    (hdepth : depth <= stack.length) :
    (afterStatement? .endOfInput depth previous (tokens ++ more)).getD
      (tokens ++ more, previous) = (more, spanBehind previous tokens) := by
  induction tokens generalizing stack depth previous with
  | nil =>
      cases hstack
      have hzero : depth = 0 := Nat.le_zero.mp hdepth
      cases more with
      | nil => rfl
      | cons token more =>
          have hbreak := hmore token rfl
          have hkind : token.kind = .lineBreak := by simpa [Token.isLineBreak] using hbreak
          have hcomment : token.isComment = false := by simp [Token.isComment, hkind]
          simp [afterStatement?, hcomment, endsStatement, hzero, hbreak, spanBehind]
  | cons token tokens ih =>
      rcases hplain token (by simp) with ⟨htrivia, hend⟩
      rw [isTrivia, Bool.or_eq_false_iff] at htrivia
      have hends : endsStatement .endOfInput depth token = false := by
        simp [endsStatement, hend, htrivia.2]
      rcases Option.bind_eq_some_iff.mp hstack with ⟨stack', hstep, hrest⟩
      have hdepth' : bracketDepth depth token <= stack'.length := by
        rw [← Bracket.bracketDepth_length hstep]
        exact Bracket.bracketDepth_le hdepth token
      rw [List.cons_append, afterStatement?_token htrivia.1 hends,
        ih (fun t ht => hplain t (by simp [ht])) hrest hdepth']
      rfl

end Cursor

namespace Extension

variable {e : Extension} {ahead : List Token} {σ : Frame} {c d : Cursor}

theorem At.giveUpLine (g g' : Diagnostic) (h : e.At ahead σ c d) (hbreaks : e.breaks = [])
    (hline : forall t, t ∈ e.tokens -> t.isLineBreak = false) :
    (c.record g).skipStatement .endOfInput =
        { c.record g with ahead := [], previous := Cursor.spanBehind c.previous ahead } ∧
      (d.record g').skipStatement .endOfInput =
        { d.record g' with
          ahead := e.newline :: e.more
          previous := Cursor.spanBehind c.previous ahead } := by
  rcases h.inside with ⟨whole, hwhole, _⟩
  have hplain : forall t, t ∈ ahead -> Cursor.isTrivia t = false ∧ t.kind ≠ .endOfInput := by
    intro t ht
    rcases h.plain ht with ⟨hcomment, hend⟩
    exact ⟨by simp [Cursor.isTrivia, hcomment, hline t (h.suffix.subset ht)], hend⟩
  constructor
  · apply Cursor.skipStatement_eq
    have hahead : (c.record g).ahead = ahead ++ [] := by
      rw [← hbreaks]
      exact h.shorter
    rw [hahead]
    exact Cursor.afterStatement?_line hplain (by simp) hwhole (Nat.zero_le _)
  · apply Cursor.skipStatement_eq
    have hahead : (d.record g').ahead = ahead ++ e.newline :: e.more := h.longer
    have hprevious : (d.record g').previous = c.previous := h.previous
    rw [hahead, hprevious]
    refine Cursor.afterStatement?_line hplain ?_ hwhole (Nat.zero_le _)
    intro t ht
    cases ht
    exact e.line

end Extension

namespace Grammar

open Linewise.Parser
open Linewise.Correspondence

theorem nil_of_endsLine {e : Extension} {ahead : List Token} {σ : Frame} {c d : Cursor}
    (h : e.At ahead σ c d) (hline : forall t, t ∈ e.tokens -> t.isLineBreak = false)
    (hends : c.EndsLine .endOfInput) : ahead = [] := by
  cases ahead with
  | nil => rfl
  | cons token rest =>
      have hcurrent := h.current_cons.1
      have hend := (h.plain (List.mem_cons_self ..)).2
      have hbreak := hline token (h.suffix.subset (List.mem_cons_self ..))
      rcases hends with hkind | hlist
      · rw [Cursor.kind, hcurrent] at hkind
        simp [Token.isLineBreak, hkind] at hbreak
      · rw [← hcurrent] at hend
        have hkind : c.kind = .endOfInput := by
          simpa [atListEnd, Cursor.hasTokens, Cursor.isAt] using hlist
        exact absurd hkind hend

theorem recovering_line {e : Extension} (hsoft : ¬ e.Soft) (hbreaks : e.breaks = [])
    (hline : forall t, t ∈ e.tokens -> t.isLineBreak = false) (hne : e.tokens ≠ [])
    {c d : Cursor} (h : e.At e.tokens ⟨.expecting, [], true⟩ c d) :
    exists found c' d',
      recovering .endOfInput (statementLine Level.outermost .endOfInput []) c = .ok found c' ∧
      recovering .endOfInput (statementLine Level.outermost .endOfInput []) d = .ok found d' ∧
      c'.ahead = [] ∧ d'.ahead = e.newline :: e.more ∧ d'.errors.length = c'.errors.length := by
  have htracks : (Correspondence.extended e).Tracks true [] ⟨.expecting, [], true⟩
      (fun f => ¬ f.AtMargin) (statementLine Level.outermost .endOfInput [])
      (statementLine Level.outermost .endOfInput []) (fun _ => ⟨.settled, [], false⟩)
      (Statement.relabel .identity) :=
    statementLine_file_tracks (tracks_ofRoom _ _) (fun _ hf => hf) []
  have hsame : d.current = c.current := by
    cases htokens : e.tokens with
    | nil => exact absurd htokens hne
    | cons token rest =>
        rw [htokens] at h
        rw [h.current_cons.1, h.current_cons.2]
  have hmargin : ¬ c.AtMargin := by
    intro hc
    have hends : c.EndsLine .endOfInput := by
      rcases hc with hend | hbreak
      · exact Or.inr (Cursor.atListEnd_of_end hend)
      · exact Or.inl hbreak
    exact hne (nil_of_endsLine h hline hends)
  have hreads := Account.ReadsIf.elim
    (statementLine_reads (keeps_outermost plainRecovery) .endOfInput []) h.fits trivial
  have hreplies := htracks c d ⟨e.tokens, h⟩ hmargin
  unfold recovering
  generalize hfirst : statementLine Level.outermost .endOfInput [] c = reply at hreplies hreads
  generalize statementLine Level.outermost .endOfInput [] d = reply' at hreplies
  cases hreplies with
  | @ok found c' d' twin =>
      rcases twin with ⟨ahead, hat⟩
      rcases bind_eq_ok.mp hfirst with ⟨_, _, _, hend⟩
      rcases bind_eq_ok.mp hend with ⟨_, _, hends, hpure⟩
      rcases endsLine_of_endOfStatement hends with ⟨rfl, hendsLine⟩
      cases hpure
      have hnil := nil_of_endsLine hat hline hendsLine
      rw [hnil] at hat
      refine ⟨found, c', d', rfl, by rw [Statement.relabel_identity], ?_, hat.longer, hat.errors⟩
      rw [hat.shorter, hbreaks]
      rfl
  | @error g g' σ c' d' said twin under =>
      rcases twin with ⟨ahead, hat⟩
      rcases hat.giveUpLine g g' hbreaks hline with ⟨hc, hd⟩
      have hspan : ((d'.record g').skipStatement .endOfInput).spanFrom d.current.span =
          ((c'.record g).skipStatement .endOfInput).spanFrom c.current.span := by
        rw [hc, hd, hsame]
        rfl
      refine ⟨_, (c'.record g).skipStatement .endOfInput,
        (d'.record g').skipStatement .endOfInput, rfl, ?_, ?_, ?_, ?_⟩
      · rw [← hspan]
        rfl
      · rw [hc]
      · rw [hd]
      · rw [hc, hd]
        simp [Cursor.record, hat.errors]
  | fault found => exact hreads.elim
  | lost hlax hlossy => exact absurd hlossy hsoft

end Grammar

/-!
## Neighbours
-/

/-- A token that ends an operand, and so may stand at the end of a line. -/
def Token.endsOperand (token : Token) : Bool :=
  match token.kind with
  | .capitalName | .number | .text => true
  | .mark .underscore | .mark .closeParen | .mark .closeCurly => true
  | .lowercaseName => !token.isOperatorWord
  | _ => false

theorem Token.settled_of_endsOperand {token : Token} (h : token.endsOperand = true) :
    Phase.ofKind token.kind = .settled ∧ token.isOperatorWord = false := by
  unfold Token.endsOperand at h
  split at h <;> simp_all [Phase.ofKind, Token.isOperatorWord]

def Extension.ofLine {line : List Token} {newline : Token} (more : List Token)
    (hinside : forall t, t ∈ line ->
      t.kind ≠ .lineBreak ∧ t.kind ≠ .comment ∧ t.kind ≠ .endOfInput)
    (hends : forall t, line.getLast? = some t -> t.endsOperand = true)
    (hnewline : newline.kind = .lineBreak) : Extension where
  tokens := line
  breaks := []
  newline := newline
  more := more
  Soft := False
  plain t ht := ⟨by simp [Token.isComment, (hinside t ht).2.1], (hinside t ht).2.2⟩
  blank := by simp
  line := by simp [Token.isLineBreak, hnewline]
  closed t ht := by
    rcases Token.settled_of_endsOperand (hends t ht) with ⟨hsettled, hword⟩
    exact ⟨hsettled, by simp [hword]⟩
  unworded := False.elim

theorem begins_opening {line : List Token} (hne : line ≠ [])
    (hinside : forall t, t ∈ line ->
      t.kind ≠ .lineBreak ∧ t.kind ≠ .comment ∧ t.kind ≠ .endOfInput)
    (more : List Token) (last : Token) :
    (Cursor.opening (line ++ more) last).Begins .endOfInput := by
  cases line with
  | nil => exact absurd rfl hne
  | cons first rest =>
      rcases hinside first (by simp) with ⟨hbreak, hcomment, hend⟩
      have htrivia : Cursor.isTrivia first = false := by
        simp [Cursor.isTrivia, Token.isComment, Token.isLineBreak, hbreak, hcomment]
      exact Cursor.begins_of_ahead (List.cons_append ..) htrivia hend

/-- A line that cannot be read does no damage to the lines below it.  A line whose
brackets are matched and whose last token ends an operand gives one statement, the
same alone and above other lines; these give the statements that they give alone; and
the diagnostics add up. -/
theorem parseTokens_line_above (line rest : List Token) (newline stop last : Token)
    (hne : line ≠ [])
    (hinside : forall t, t ∈ line ->
      t.kind ≠ .lineBreak ∧ t.kind ≠ .comment ∧ t.kind ≠ .endOfInput)
    (hmatched : Bracket.Matched (line.map Token.kind))
    (hends : forall t, line.getLast? = some t -> t.endsOperand = true)
    (hquoted : forall t, t ∈ line ++ rest -> t.Quoted) (hnewline : newline.kind = .lineBreak)
    (hstop : stop.kind = .endOfInput) (hlast : last.kind = .endOfInput) :
    exists alone below whole statement, parseTokens (line ++ [stop]) = .ok alone ∧
      parseTokens (rest ++ [last]) = .ok below ∧
      parseTokens (line ++ newline :: rest ++ [last]) = .ok whole ∧
      alone.file.statements = [statement] ∧
      whole.file.statements = statement :: below.file.statements ∧
      whole.errors.length = alone.errors.length + below.errors.length := by
  have hquoted' : forall t, t ∈ rest -> t.Quoted :=
    fun t ht => hquoted t (List.mem_append_right line ht)
  have hfits : plainRecovery.Fits (Cursor.opening line stop) :=
    Cursor.fits_opening hstop (fun t ht => hquoted t (List.mem_append_left rest ht))
  have hfits' := Cursor.fits_below hnewline hlast hquoted
  have hbegins : (Cursor.opening line stop).Begins .endOfInput := by
    have hopening := begins_opening hne hinside [] stop
    rwa [List.append_nil] at hopening
  have hbegins' := begins_opening hne hinside (newline :: rest) last
  have hline : forall t, t ∈ line -> t.isLineBreak = false :=
    fun t ht => by simp [Token.isLineBreak, (hinside t ht).1]
  -- the line is read side by side, alone and above the rest
  have hat : (Extension.ofLine rest hinside hends hnewline).At line ⟨.expecting, [], true⟩
      (Cursor.opening line stop) (Cursor.opening (line ++ newline :: rest) last) :=
    Extension.At.start hfits hfits' rfl rfl rfl rfl (List.append_nil line).symm rfl hmatched
  rcases Grammar.recovering_line id rfl hline hne hat with
    ⟨found, c, d, hfound, hfound', hahead, hahead', hcount⟩
  rcases Grammar.passage_recovering hfits hbegins hfound with ⟨_, read, noted, passage⟩
  rcases Grammar.passage_recovering hfits' hbegins' hfound' with ⟨_, read', noted', passage'⟩
  have hend : c.kind = .endOfInput :=
    Cursor.kind_of_ahead_nil (hfits.after passage).final hahead
  have halone : Grammar.statements Level.outermost .endOfInput (Cursor.opening line stop) =
      .ok [found] c := Grammar.statementsUpTo_last hbegins hfound (by simp [hend])
  rcases Grammar.exists_statements hlast hquoted' with ⟨others, e, hothers⟩
  rcases Grammar.statementsUpTo_below hlast hquoted' hothers hfits' hbegins' hfound' hahead'
    hnewline rfl rfl (Nat.lt_succ_self _) with ⟨f, hwhole, herrors⟩
  rcases Grammar.parseTokens_of_statements hstop halone with ⟨alone, halone, hsingle, hcounted⟩
  rcases Grammar.parseTokens_of_statements hlast hothers with ⟨below, hbelow, hlisted, hcounted'⟩
  rcases Grammar.parseTokens_of_statements hlast hwhole with ⟨whole, hwhole, hall, hcounted''⟩
  refine ⟨alone, below, whole, found, halone, hbelow, hwhole, hsingle, ?_, ?_⟩
  · rw [hall, hlisted]
  · rw [hcounted, hcounted', hcounted'', herrors, List.length_append, hcount]

/-- Reading fails at the colon of `(a ; :)`, inside of the parentheses, and goes on with
the name on the next line. -/
theorem parseTokens_line_above_parentheses :
    exists alone below whole statement,
      parseTokens
        [⟨⟨"(", ⟨0, 1⟩⟩, .mark .openParen⟩, ⟨⟨"a", ⟨1, 2⟩⟩, .lowercaseName⟩,
          ⟨⟨";", ⟨3, 4⟩⟩, .mark .semicolon⟩, ⟨⟨":", ⟨5, 6⟩⟩, .mark .colon⟩,
          ⟨⟨")", ⟨6, 7⟩⟩, .mark .closeParen⟩, Token.endAt 7] = .ok alone ∧
      parseTokens [⟨⟨"b", ⟨8, 9⟩⟩, .lowercaseName⟩, Token.endAt 9] = .ok below ∧
      parseTokens
        [⟨⟨"(", ⟨0, 1⟩⟩, .mark .openParen⟩, ⟨⟨"a", ⟨1, 2⟩⟩, .lowercaseName⟩,
          ⟨⟨";", ⟨3, 4⟩⟩, .mark .semicolon⟩, ⟨⟨":", ⟨5, 6⟩⟩, .mark .colon⟩,
          ⟨⟨")", ⟨6, 7⟩⟩, .mark .closeParen⟩, ⟨⟨"\n", ⟨7, 8⟩⟩, .lineBreak⟩,
          ⟨⟨"b", ⟨8, 9⟩⟩, .lowercaseName⟩, Token.endAt 9] = .ok whole ∧
      alone.file.statements = [statement] ∧
      whole.file.statements = statement :: below.file.statements ∧
      whole.errors.length = alone.errors.length + below.errors.length :=
  parseTokens_line_above
    [⟨⟨"(", ⟨0, 1⟩⟩, .mark .openParen⟩, ⟨⟨"a", ⟨1, 2⟩⟩, .lowercaseName⟩,
      ⟨⟨";", ⟨3, 4⟩⟩, .mark .semicolon⟩, ⟨⟨":", ⟨5, 6⟩⟩, .mark .colon⟩,
      ⟨⟨")", ⟨6, 7⟩⟩, .mark .closeParen⟩]
    [⟨⟨"b", ⟨8, 9⟩⟩, .lowercaseName⟩] ⟨⟨"\n", ⟨7, 8⟩⟩, .lineBreak⟩ (Token.endAt 7) (Token.endAt 9)
    (by simp) (by decide) (by decide) (by simp [Token.endsOperand]) (by simp [Token.Quoted]) rfl
    rfl rfl

end Linewise
