import Linewise.Proofs.Parallel.Type
import Linewise.Proofs.Resumption

/-!
# Lists of statements read side by side

Where two texts end alike, and inside of brackets, lists of statements lead pairs of
cursors to pairs of cursors.  Statements are given up in both readings at the same
places, so nothing is lost.
-/

namespace Linewise
namespace Grammar

open Linewise.Parser
open Linewise.Correspondence

variable {K : Correspondence} {level : Level} {lax k : Bool} {S : List Bracket} {p : Phase}
  {pre : Cursor -> Prop}

/-!
## Bounds of lists
-/

/-- A list of statements does not hang on its bound, if that is large enough. -/
theorem statementsUpTo_bound (hkeeps : level.Keeps plainRecovery.toAccount)
    (hspans : LevelSpans level) (terminator : Kind) (bound bound' : Nat) {c : Cursor}
    (hc : plainRecovery.Fits c) (hbound : c.ahead.length < bound)
    (hbound' : c.ahead.length < bound') :
    statementsUpTo level terminator bound c = statementsUpTo level terminator bound' c := by
  induction bound generalizing bound' c with
  | zero => exact absurd hbound (Nat.not_lt_zero _)
  | succ bound ih =>
      cases bound' with
      | zero => exact absurd hbound' (Nat.not_lt_zero _)
      | succ bound' =>
          have hskip := c.skipTrivia_passage
          unfold statementsUpTo
          apply Account.bind_congr
          intro comments d hcomments
          cases hcomments
          apply Account.bind_congr
          intro ended d hended
          cases hended
          split
          · rfl
          · rename_i hended
            have hbegins : c.skipTrivia.Begins terminator :=
              Cursor.begins_skipTrivia hc.final (by simpa using hended)
            apply Account.bind_congr
            intro first d hfirst
            have hlists : (recovering terminator
                (statementLine level terminator c.leadingComments) c.skipTrivia).Satisfies _ _ :=
              recovering_lists hkeeps hspans (hc.after hskip) hbegins
            rw [hfirst] at hlists
            rcases hlists with ⟨⟨read, noted, passage, _⟩, _⟩
            have hpassage := hskip.trans passage
            have hd := hc.after hpassage
            apply Account.bind_congr
            intro more e hmore
            cases hmore
            split
            · rename_i hmore
              have hkind : d.kind = .lineBreak := by simpa [Cursor.isAt] using hmore
              have hadvance := Cursor.advance_passage hd.final (by simp [hkind])
              have hone : 1 <= ((c.ahead.takeWhile Cursor.isTrivia ++ read) ++
                  (d.ahead.takeWhile Token.isComment ++ [d.current])).length := by
                simp
                omega
              have hwhole := hpassage.trans hadvance
              have he := Account.length_ahead_lt hbound hwhole hone
              have he' := Account.length_ahead_lt hbound' hwhole hone
              apply Account.bind_congr
              intro token e htoken
              cases htoken
              rw [bind_apply, bind_apply, ih bound' (hd.after hadvance) he he']
            · rfl

/-!
## Statements
-/

theorem endOfStatement_tracks (hstack : K.Whole ∨ S ≠ []) (terminator : Kind) :
    K.Tracks lax S ⟨p, S, k⟩ pre (endOfStatement terminator) (endOfStatement terminator)
      (fun _ => ⟨p, S, k⟩) id := by
  have hkind : forall {c d}, K.Twin ⟨p, S, k⟩ c d -> d.kind = c.kind :=
    fun htwin => kind_eq (same_of_sheltered htwin hstack)
  apply Tracks.look (fun htwin _ => by simp [Cursor.isAt, hkind htwin])
  intro lineEnds
  apply Tracks.look
    (fun htwin _ => by simp [atListEnd, Cursor.hasTokens, Cursor.isAt, hkind htwin])
  intro listEnds
  split
  · exact Tracks.give rfl
  · exact Tracks.unexpected _

theorem statementLine_tracks (hlevel : level.Tracks K) (hstack : K.Whole ∨ S ≠ [])
    (hmargin : forall c, pre c -> ¬ c.AtMargin) (terminator : Kind) (comments : List Lexeme) :
    K.Tracks false S ⟨.expecting, S, k⟩ pre (statementLine level terminator comments)
      (statementLine level terminator (K.relabelling.comments comments))
      (fun _ => ⟨.settled, S, false⟩) (Statement.relabel K.relabelling) := by
  have hnever : forall {P : Prop}, P -> K.Lossy -> S ≠ [] :=
    fun _ => not_lossy_of_sheltered hstack
  apply Tracks.bind (Tracks.tighten hnever (hlevel.statement comments hnever hmargin))
  intro found
  apply Tracks.bind (endOfStatement_tracks hstack terminator)
  intro _
  exact Tracks.give rfl

theorem not_atMargin_of_begins {terminator : Kind} {c : Cursor} (h : c.Begins terminator) :
    ¬ c.AtMargin := by
  rcases h.ahead with ⟨first, rest, hahead, htrivia⟩
  have hcurrent := h.current_eq
  rw [hahead, List.head?_cons, Option.some.injEq] at hcurrent
  rintro (hend | hbreak)
  · have hlist : atListEnd terminator c = true := Cursor.atListEnd_of_end hend
    rw [h.inside] at hlist
    cases hlist
  · have hkind : first.kind = .lineBreak := by
      rw [hcurrent]
      exact hbreak
    simp [Cursor.isTrivia, Token.isLineBreak, hkind] at htrivia

theorem recovering_tracks (hstack : K.Whole ∨ S ≠ []) {terminator : Kind}
    (hsurrounds : Bracket.Surrounds terminator S) {line line' : Parser Statement}
    {script : Statement -> List Symbol} (hreads : plainRecovery.Reads 1 line script)
    (hreads' : plainRecovery.Reads 1 line' script)
    (hbegins : forall c, pre c -> c.Begins terminator)
    (hline : K.Tracks false S ⟨.expecting, S, k⟩ pre line line' (fun _ => ⟨.settled, S, false⟩)
      (Statement.relabel K.relabelling)) :
    K.Tracks false S ⟨.expecting, S, k⟩ pre (recovering terminator line)
      (recovering terminator line') (fun _ => ⟨.any, S, false⟩)
      (Statement.relabel K.relabelling) := by
  intro c d htwin hpre
  rcases K.fits htwin with ⟨hc, hd, _⟩
  have hbegun := hbegins c hpre
  have hsame := same_of_kind htwin (not_atMargin_of_begins hbegun)
  have hreply := hline c d htwin hpre
  have hpassage : forall g e, line c = .error g e ->
      exists read noted, c.Passage read noted e :=
    fun _ _ herror => passage_of_error hreads hc trivial herror
  have hpassage' : forall g e, line' d = .error g e ->
      exists read noted, d.Passage read noted e :=
    fun _ _ herror => passage_of_error hreads' hd trivial herror
  unfold recovering
  generalize line c = reply at hreply hpassage
  generalize line' d = reply' at hreply hpassage'
  cases hreply with
  | ok twin =>
      have hrefines : Frame.Refines ⟨.settled, S, false⟩ ⟨.any, S, false⟩ :=
        ⟨rfl, Or.inr (Or.inr (Or.inl rfl)), id⟩
      exact .ok (K.refine hrefines twin)
  | fault found => exact .fault found
  | lost hlax hlossy hnone hfails => cases hlax
  | error said twin under =>
      rcases hpassage _ _ rfl with ⟨read, noted, passage⟩
      rcases hpassage' _ _ rfl with ⟨read', noted', passage'⟩
      rcases K.recover hstack hsurrounds htwin hbegun twin under passage passage' said with
        ⟨htwin', hprevious⟩
      refine Replies.gave ?_ htwin'
      rw [Statement.relabel, Cursor.spanFrom, Cursor.spanFrom, Span.relabel_cover, hsame,
        hprevious]
      rfl

/-- What has to be shown of the statements below a line break, and of those at the
beginning of a list: from cursors that belong together behind the trivia in front. -/
def ClearTracks (K : Correspondence) (S : List Bracket) (parser : Parser (List Statement)) :
    Prop :=
  forall c d, c.final.kind = .endOfInput ->
    Cursor.Clears K.relabelling (K.Twin ⟨.expecting, S, false⟩) c d ->
    K.Replies false S (fun _ => ⟨.any, S, false⟩) (List.map (Statement.relabel K.relabelling))
      (parser c) (parser d)

theorem ClearTracks.tracks {parser : Parser (List Statement)} (h : ClearTracks K S parser)
    (hstack : K.Whole ∨ S ≠ []) :
    K.Tracks false S ⟨p, S, false⟩ pre parser parser (fun _ => ⟨.any, S, false⟩)
      (List.map (Statement.relabel K.relabelling)) :=
  fun c d htwin _ => h c d (K.fits htwin).1.final (K.trivia hstack htwin)

theorem ClearTracks.newline {parser : Parser (List Statement)} (h : ClearTracks K S parser)
    (hstack : K.Whole ∨ S ≠ []) (hbreak : forall c, pre c -> c.isAt .lineBreak = true) :
    K.Tracks false S ⟨p, S, false⟩ pre (advance >>= fun _ => parser) (advance >>= fun _ => parser)
      (fun _ => ⟨.any, S, false⟩) (List.map (Statement.relabel K.relabelling)) := by
  intro c d htwin hpre
  have hkind : c.kind = .lineBreak := by simpa [Cursor.isAt] using hbreak c hpre
  have hfinal := (K.fits htwin).1.final
  have hadvance := Cursor.advance_passage hfinal (by simp [hkind])
  exact h c.advance d.advance (by rwa [hadvance.final]) (K.newline hstack htwin hkind)

def statementsBelow (level : Level) (terminator : Kind) (others : Parser (List Statement))
    (comments : List Lexeme) : Parser (List Statement) := do
  let ended <- look (atListEnd terminator)
  if ended then
    pure []
  else
    let first <- recovering terminator (statementLine level terminator comments)
    let more <- isAt .lineBreak
    if more then
      let _ <- advance
      let rest <- others
      pure (first :: rest)
    else
      pure [first]

theorem statementsUpTo_eq (level : Level) (terminator : Kind) (bound : Nat) (c : Cursor) :
    statementsUpTo level terminator (bound + 1) c =
      statementsBelow level terminator (statementsUpTo level terminator bound)
        c.leadingComments c.skipTrivia := rfl

theorem statementsBelow_tracks (hlevel : level.Tracks K) (hstack : K.Whole ∨ S ≠ [])
    {terminator : Kind} (hsurrounds : Bracket.Surrounds terminator S)
    {others : Parser (List Statement)} (hothers : ClearTracks K S others)
    (hpre : forall c, pre c -> atListEnd terminator c = false -> c.Begins terminator)
    (comments : List Lexeme) :
    K.Tracks false S ⟨.expecting, S, false⟩ pre (statementsBelow level terminator others comments)
      (statementsBelow level terminator others (K.relabelling.comments comments))
      (fun _ => ⟨.any, S, false⟩) (List.map (Statement.relabel K.relabelling)) := by
  have hkind : forall {p c d}, K.Twin ⟨p, S, false⟩ c d -> d.kind = c.kind :=
    fun htwin => kind_eq (same_of_sheltered htwin hstack)
  have hany : forall q, Frame.Refines ⟨q, S, false⟩ ⟨.any, S, false⟩ :=
    fun _ => ⟨rfl, Or.inr (Or.inr (Or.inl rfl)), id⟩
  apply Tracks.look
    (fun htwin _ => by simp [atListEnd, Cursor.hasTokens, Cursor.isAt, hkind htwin])
  intro ended
  split
  · exact Tracks.value rfl (hany _)
  · rename_i hended
    have hbegins : forall c : Cursor, pre c ∧ atListEnd terminator c = ended ->
        c.Begins terminator := by
      rintro c ⟨hc, hend⟩
      exact hpre c hc (by simpa [hend] using hended)
    apply Tracks.bind (recovering_tracks hstack hsurrounds
      (statementLine_reads hlevel.keeps terminator comments)
      (statementLine_reads hlevel.keeps terminator _) hbegins
      (statementLine_tracks hlevel hstack (fun c hc => not_atMargin_of_begins (hbegins c hc))
        terminator comments))
    intro first
    apply Tracks.look (fun htwin _ => by simp [Cursor.isAt, hkind htwin])
    intro more
    split
    · rename_i hmore
      apply Tracks.bind (hothers.newline hstack (fun c hc => hc.2.trans hmore))
      intro rest
      exact Tracks.give rfl
    · exact Tracks.give rfl

theorem statementsUpTo_clearTracks (hlevel : level.Tracks K) (hstack : K.Whole ∨ S ≠ [])
    {terminator : Kind} (hsurrounds : Bracket.Surrounds terminator S) (bound : Nat) :
    ClearTracks K S (statementsUpTo level terminator bound) := by
  induction bound with
  | zero => exact fun _ _ _ _ => .fault _
  | succ bound ih =>
      intro c d hfinal hclears
      have hbegins : forall e, e = c.skipTrivia -> atListEnd terminator e = false ->
          e.Begins terminator := by
        rintro e rfl hended
        exact Cursor.begins_skipTrivia hfinal hended
      have hreplies := statementsBelow_tracks hlevel hstack hsurrounds ih hbegins
        c.leadingComments c.skipTrivia d.skipTrivia hclears.twin rfl
      rw [← hclears.comments] at hreplies
      rw [statementsUpTo_eq, statementsUpTo_eq]
      exact hreplies

theorem statements_tracks (hlevel : level.Tracks K) (hstack : K.Whole ∨ S ≠ [])
    {terminator : Kind} (hsurrounds : Bracket.Surrounds terminator S) :
    K.Tracks false S ⟨p, S, false⟩ pre (statements level terminator)
      (statements level terminator) (fun _ => ⟨.any, S, false⟩)
      (List.map (Statement.relabel K.relabelling)) :=
  Tracks.bounded
    (fun hc hbound hbound' =>
      statementsUpTo_bound hlevel.keeps hlevel.spans terminator _ _ hc hbound hbound')
    (fun hc hbound hbound' =>
      statementsUpTo_bound hlevel.keeps hlevel.spans terminator _ _ hc hbound hbound')
    (fun bound => (statementsUpTo_clearTracks hlevel hstack hsurrounds bound).tracks hstack)

/-!
## Braces
-/

theorem field?_relabel (ρ : Relabelling) (statement : Statement) :
    (statement.relabel ρ).field? = statement.field?.map (Expression.relabelField ρ) := by
  cases statement with
  | assignment pattern value span =>
      rw [Statement.relabel]
      cases pattern <;> rfl
  | _ =>
      rw [Statement.relabel]
      rfl

theorem mapM_field?_relabel (ρ : Relabelling) (statements : List Statement) :
    (statements.map (Statement.relabel ρ)).mapM Statement.field? =
      (statements.mapM Statement.field?).map (List.map (Expression.relabelField ρ)) := by
  induction statements with
  | nil => rfl
  | cons statement rest ih =>
      rw [List.map_cons, List.mapM_cons, List.mapM_cons, field?_relabel, ih]
      cases statement.field? with
      | none => rfl
      | some field => cases rest.mapM Statement.field? <;> rfl

theorem recordOrBlock_relabel (ρ : Relabelling) (statements : List Statement) (span : Span) :
    recordOrBlock (statements.map (Statement.relabel ρ)) (span.relabel ρ) =
      (recordOrBlock statements span).relabel ρ := by
  have hfields : fields? (statements.map (Statement.relabel ρ)) =
      (fields? statements).map (List.map (Expression.relabelField ρ)) := by
    unfold fields?
    rw [mapM_field?_relabel, List.isEmpty_map]
    split <;> rfl
  unfold recordOrBlock
  rw [hfields]
  cases fields? statements with
  | none => simp [Expression.relabel]
  | some fields => simp [Expression.relabel]

theorem bracedExpression_tracks (hlevel : level.Tracks K) :
    K.Tracks lax S ⟨p, S, false⟩ pre (bracedExpression level) (bracedExpression level)
      (fun _ => ⟨.settled, S, false⟩) (Expression.relabel K.relabelling) := by
  apply Tracks.bind (Tracks.opening .openCurly rfl)
  intro opening
  apply Tracks.bind (statements_tracks hlevel (Or.inr (by simp)) (Or.inl ⟨rfl, S, rfl⟩)).inner
  intro found
  apply Tracks.bind (Tracks.closing .closeCurly rfl)
  intro _
  apply Tracks.spanFrom (Or.inl rfl)
  intro span
  exact Tracks.give (recordOrBlock_relabel K.relabelling found span)

end Grammar
end Linewise
