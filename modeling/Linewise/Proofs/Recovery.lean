import Linewise.Parse
import Linewise.Proofs.Reading.Statement

/-!
# Accounts of lists of statements

A list of statements never fails: a statement that cannot be read is given up.
An account that says what becomes of such a statement, and of statements one
below the other, is kept by every list, by every pair of braces, and so by the
whole grammar.
-/

namespace Linewise

/-!
## Skipping the rest of a statement
-/

namespace Cursor

/-- What may stand behind a statement: a line break, or what ends the list. -/
def EndsLine (terminator : Kind) (c : Cursor) : Prop :=
  c.kind = .lineBreak ∨ Grammar.atListEnd terminator c = true

theorem atListEnd_of_end {terminator : Kind} {c : Cursor} (h : c.kind = .endOfInput) :
    Grammar.atListEnd terminator c = true := by
  simp [Grammar.atListEnd, hasTokens, isAt, h]

theorem endsLine_of_endsStatement {terminator : Kind} {depth : Nat} {c : Cursor}
    (h : endsStatement terminator depth c.current = true) : c.EndsLine terminator := by
  simp only [endsStatement, Bool.or_eq_true, Bool.and_eq_true, beq_iff_eq,
    Token.isLineBreak] at h
  rcases h with hend | ⟨_, hbreak | hterminator⟩
  · exact Or.inr (atListEnd_of_end hend)
  · exact Or.inl hbreak
  · right
    have hkind : c.kind = terminator := hterminator
    simp [Grammar.atListEnd, isAt, hkind]

theorem afterStatement?_eq_some {terminator : Kind} {depth : Nat} {previous previous' : Span}
    {tokens rest : List Token}
    (h : afterStatement? terminator depth previous tokens = some (rest, previous')) :
    exists skipped, tokens = skipped ++ rest ∧ previous' = spanBehind previous skipped ∧
      (forall t, t ∈ skipped -> t.kind ≠ .endOfInput) ∧
      (exists token, token ∈ skipped ∧ (tokens.dropWhile Token.isComment).head? = some token) ∧
      exists depth', afterStatement? terminator depth' previous' rest = none := by
  induction tokens generalizing depth previous with
  | nil => cases h
  | cons token tokens ih =>
      unfold afterStatement? at h
      split at h
      · rename_i hcomment
        rcases ih h with ⟨skipped, htokens, hprevious, hinside, ⟨first, hfirst, hhead⟩, hstop⟩
        have htrivia : isTrivia token = true := by simp [isTrivia, hcomment]
        have hkind : token.kind = .comment := by simpa [Token.isComment] using hcomment
        refine ⟨token :: skipped, by rw [htokens, List.cons_append], ?_, ?_, ?_, hstop⟩
        · simpa [spanBehind, htrivia] using hprevious
        · simpa [hkind] using hinside
        · exact ⟨first, List.mem_cons_of_mem token hfirst, by simpa [hcomment] using hhead⟩
      · rename_i hcomment
        split at h
        · cases h
        · rename_i hends
          have hkind : token.kind ≠ .endOfInput := by
            intro hend
            simp [endsStatement, hend] at hends
          have hspan : spanBehind previous [token] = spanAfter previous token := by
            simp [spanBehind, spanAfter, isTrivia, hcomment]
          simp only [Option.some.injEq] at h
          cases hafter : afterStatement? terminator (bracketDepth depth token)
              (spanAfter previous token) tokens with
          | none =>
              rw [hafter, Option.getD_none, Prod.mk.injEq] at h
              rcases h with ⟨hrest, hprevious⟩
              rw [← hrest, ← hprevious]
              exact ⟨[token], rfl, hspan.symm, by simpa using hkind,
                ⟨token, by simp, by simp [hcomment]⟩, _, hafter⟩
          | some found =>
              rw [hafter, Option.getD_some] at h
              rw [h] at hafter
              rcases ih hafter with ⟨skipped, htokens, hprevious, hinside, _, hstop⟩
              refine ⟨token :: skipped, by rw [htokens, List.cons_append], ?_, ?_, ?_, hstop⟩
              · rw [hprevious, ← hspan]
                rfl
              · simpa [hkind] using hinside
              · exact ⟨token, by simp, by simp [hcomment]⟩

theorem endsLine_of_afterStatement? {terminator : Kind} {depth : Nat} {previous : Span}
    {c : Cursor} (hfinal : c.final.kind = .endOfInput)
    (h : afterStatement? terminator depth previous c.ahead = none) : c.EndsLine terminator := by
  have hcurrent : c.current.kind = .endOfInput ∨
      endsStatement terminator depth c.current = true := by
    unfold current significant
    induction hahead : c.ahead generalizing c with
    | nil => exact Or.inl hfinal
    | cons token rest ih =>
        rw [hahead] at h
        unfold afterStatement? at h
        split at h
        · rename_i hcomment
          rw [List.dropWhile_cons_of_pos hcomment]
          exact ih (c := { c with ahead := rest }) hfinal h rfl
        · rename_i hcomment
          split at h
          · rename_i hends
            right
            simpa [hcomment] using hends
          · cases h
  rcases hcurrent with hend | hends
  · exact Or.inr (atListEnd_of_end hend)
  · exact endsLine_of_endsStatement hends

/-- Skipping the rest of a statement leads to where a statement may end.  The
current token is among the skipped ones, unless nothing is skipped. -/
theorem skipStatement_passage (terminator : Kind) {c : Cursor}
    (hfinal : c.final.kind = .endOfInput) :
    exists skipped, Passage c skipped [] (c.skipStatement terminator) ∧
      (c.skipStatement terminator).EndsLine terminator ∧
      (c.current ∈ skipped ∨ skipped = []) := by
  unfold skipStatement
  cases hafter : afterStatement? terminator 0 c.previous c.ahead with
  | none => exact ⟨[], Passage.refl c, endsLine_of_afterStatement? hfinal hafter, Or.inr rfl⟩
  | some found =>
      rcases found with ⟨rest, previous⟩
      rcases afterStatement?_eq_some hafter with
        ⟨skipped, hahead, hprevious, hinside, hhead, _, hstop⟩
      refine ⟨skipped, ⟨hahead, rfl, hprevious, by simp, rfl, hinside⟩, ?_, ?_⟩
      · exact endsLine_of_afterStatement? (c := { c with ahead := rest, previous := previous })
          hfinal hstop
      · rcases hhead with ⟨token, hmem, hhead⟩
        left
        have hcurrent : c.current = token := by
          simp [current, significant, List.headD_eq_head?_getD, hhead]
        rwa [hcurrent]

/-- The cursor stands at the first token of a statement. -/
structure Begins (terminator : Kind) (c : Cursor) : Prop where
  ahead : exists first rest, c.ahead = first :: rest ∧ isTrivia first = false
  inside : Grammar.atListEnd terminator c = false

theorem begins_skipTrivia {terminator : Kind} {c : Cursor}
    (hfinal : c.final.kind = .endOfInput)
    (h : Grammar.atListEnd terminator c.skipTrivia = false) :
    c.skipTrivia.Begins terminator := by
  refine ⟨?_, h⟩
  have hhead := List.head?_dropWhile_not isTrivia c.ahead
  cases hrest : c.ahead.dropWhile isTrivia with
  | nil =>
      have hend : c.skipTrivia.kind = .endOfInput := kind_of_ahead_nil hfinal hrest
      rw [atListEnd_of_end hend] at h
      cases h
  | cons first rest =>
      rw [hrest] at hhead
      exact ⟨first, rest, hrest, by simpa using hhead⟩

end Cursor

/-!
## The spans of statements
-/

namespace Grammar

open Linewise.Parser

/-- The statement was read, and it reaches from `start` to the last token that was
read. -/
structure Spans (start : Span) (d : Cursor) (found : Statement) : Prop where
  notError : found.isError = false
  span : found.span = d.spanFrom start

def SpansFrom (start : Span) (parser : Parser Statement) : Prop :=
  forall c found d, parser c = .ok found d -> Spans start d found

theorem SpansFrom.bind {α : Type} {start : Span} {first : Parser α} {next : α -> Parser Statement}
    (h : forall value, SpansFrom start (next value)) : SpansFrom start (first >>= next) := by
  intro c found d hfound
  rcases bind_eq_ok.mp hfound with ⟨value, e, _, hnext⟩
  exact h value e found d hnext

theorem SpansFrom.last {start : Span} {build : Span -> Statement}
    (h : forall span, (build span).isError = false ∧ (build span).span = span) :
    SpansFrom start (spanFrom start >>= fun span => pure (build span)) := by
  intro c found d hfound
  cases hfound
  exact ⟨(h _).1, (h _).2⟩

theorem SpansFrom.unexpected {start : Span} (expected : String) :
    SpansFrom start (Parser.unexpected expected) := by
  intro c found d hfound
  cases hfound

theorem typeDefinition_spans (level : Level) (start : Span) (header : Header)
    (head : DefinitionHead) : SpansFrom start (typeDefinition level start header head) := by
  refine SpansFrom.bind fun _ => SpansFrom.bind fun braced => ?_
  split
  · exact SpansFrom.bind fun _ => SpansFrom.last fun _ => ⟨rfl, rfl⟩
  · exact SpansFrom.bind fun _ => SpansFrom.last fun _ => ⟨rfl, rfl⟩

theorem traitDefinition_spans (level : Level) (start : Span) (header : Header)
    (head : DefinitionHead) : SpansFrom start (traitDefinition level start header head) := by
  refine SpansFrom.bind fun _ => SpansFrom.bind fun typed => ?_
  split
  · exact SpansFrom.bind fun _ => SpansFrom.bind fun _ => SpansFrom.last fun _ => ⟨rfl, rfl⟩
  · exact SpansFrom.bind fun _ => SpansFrom.bind fun _ => SpansFrom.last fun _ => ⟨rfl, rfl⟩

theorem constantDefinition_spans (level : Level) (start : Span) (header : Header) :
    SpansFrom start (constantDefinition level start header) :=
  SpansFrom.bind fun _ => SpansFrom.bind fun _ => SpansFrom.bind fun _ => SpansFrom.bind fun _ =>
    SpansFrom.last fun _ => ⟨rfl, rfl⟩

theorem instanceDefinition_spans (level : Level) (start : Span) (header : Header) :
    SpansFrom start (instanceDefinition level start header) :=
  SpansFrom.bind fun _ => SpansFrom.bind fun _ => SpansFrom.bind fun _ => SpansFrom.bind fun _ =>
    SpansFrom.bind fun _ => SpansFrom.bind fun _ => SpansFrom.bind fun _ => SpansFrom.bind fun _ =>
      SpansFrom.last fun _ => ⟨rfl, rfl⟩

theorem assignmentOrExpression_spans (level : Level) (start : Span) :
    SpansFrom start (assignmentOrExpression level start) := by
  apply SpansFrom.bind
  intro pattern
  cases pattern with
  | some pattern =>
      exact SpansFrom.bind fun _ => SpansFrom.bind fun _ => SpansFrom.last fun _ => ⟨rfl, rfl⟩
  | none => exact SpansFrom.bind fun _ => SpansFrom.last fun _ => ⟨rfl, rfl⟩

theorem plainStatement_spans (level : Level) (start : Span) (header : Header) :
    SpansFrom start (plainStatement level start header) := by
  apply SpansFrom.bind
  intro constant
  split
  · exact constantDefinition_spans level start header
  · split
    · exact assignmentOrExpression_spans level start
    · exact SpansFrom.unexpected _

theorem statement_spans {level : Level} {comments : List Lexeme} {c d : Cursor}
    {found : Statement} (h : statement level comments c = .ok found d) :
    Spans c.current.span d found := by
  rcases bind_eq_ok.mp h with ⟨start, _, hstart, h⟩
  cases hstart
  rcases bind_eq_ok.mp h with ⟨found', _, _, h⟩
  rcases bind_eq_ok.mp h with ⟨isInstance, _, _, h⟩
  split at h
  · exact instanceDefinition_spans level _ _ _ _ _ h
  · rcases bind_eq_ok.mp h with ⟨head, _, _, h⟩
    cases head with
    | none => exact plainStatement_spans level _ _ _ _ _ h
    | some head =>
        rcases bind_eq_ok.mp h with ⟨isType, _, _, h⟩
        split at h
        · exact typeDefinition_spans level _ _ head _ _ _ h
        · exact traitDefinition_spans level _ _ head _ _ _ h

def LevelSpans (level : Level) : Prop :=
  forall comments c found d, level.statement comments c = .ok found d ->
    Spans c.current.span d found

theorem spans_ofRoom (room : Nat) : LevelSpans (Level.ofRoom room) := by
  intro comments c found d h
  cases room with
  | zero => cases h
  | succ room =>
      rcases nested_eq_ok h with ⟨e, depth, hfound, rfl⟩
      have hspans := statement_spans hfound
      exact ⟨hspans.notError, hspans.span⟩

end Grammar
/-!
## Recoveries
-/

/-- An account that also covers lists of statements.  `Lists` relates the tokens
that were read for the statements of a list, the cursor behind them, the
diagnostics and the script, for lists that end with a given kind of token. -/
structure Recovery extends Account where
  Lists : Kind -> List Token -> Cursor -> List Diagnostic -> List Symbol -> Prop
  none : forall {terminator c}, Lists terminator [] c [] []
  trivia : forall {terminator read read' d noted script},
    (forall t, t ∈ read -> Cursor.isTrivia t = true) -> Lists terminator read' d noted script ->
      Lists terminator (read ++ read') d noted script
  told : forall {terminator read noted} {c d : Cursor} {statement : Statement},
    c.Begins terminator -> c.Passage read noted d -> 1 <= read.length ->
      Grammar.Spans c.current.span d statement -> Holds read d.ahead noted statement.contents ->
      Lists terminator read d noted statement.script
  failed : forall {terminator read noted skipped diagnostic} {c d e : Cursor},
    c.Begins terminator -> c.Passage read noted d -> toAccount.Fits d ->
      diagnostic.span = d.current.span -> Fails read d.current noted diagnostic ->
      e = (d.record diagnostic).skipStatement terminator ->
      (d.record diagnostic).Passage skipped [] e -> (d.current ∈ skipped ∨ skipped = []) ->
      Lists terminator (read ++ skipped) e (noted ++ [diagnostic])
        (Statement.error (e.spanFrom c.current.span)).script
  next : forall {terminator read noted script read' noted' script'} {d e : Cursor},
    Lists terminator read d noted script -> toAccount.Fits d -> d.kind = .lineBreak ->
      d.advance.Passage read' noted' e -> Lists terminator read' e noted' script' ->
      Lists terminator (read ++ (d.ahead.takeWhile Token.isComment ++ [d.current] ++ read')) e
        (noted ++ noted') (script ++ script')
  close : forall {opening : Token} {d : Cursor} {read noted script},
    opening.kind = .mark .openCurly -> Admits opening ->
      Lists (.mark .closeCurly) read d noted script -> toAccount.Fits d ->
      d.kind = .mark .closeCurly ->
      Holds (opening :: (read ++ (d.ahead.takeWhile Token.isComment ++ [d.current])))
        d.advance.ahead noted (.mark .openCurly :: (script ++ [.mark .closeCurly]))
  unclosed : forall {opening : Token} {d : Cursor} {read noted script},
    Lists (.mark .closeCurly) read d noted script -> d.kind = .endOfInput ->
      Fails (opening :: read) d.current noted (d.unexpected (Kind.mark .closeCurly).describe) := by
    intros
    trivial
  unlist : forall {read rest noted before after} {statement : Statement},
    Holds read rest noted (before ++ .statement statement :: after) ->
      statement.isError = false -> Holds read rest noted (before ++ after)

namespace Grammar

open Linewise.Parser
open Linewise.Account

variable {R : Recovery} {level : Level}

def Listed (R : Recovery) (terminator : Kind) (script : List Symbol) (c d : Cursor) : Prop :=
  exists read noted, c.Passage read noted d ∧ R.Lists terminator read d noted script

theorem endsLine_of_endOfStatement {terminator : Kind} {c d : Cursor} {value : Unit}
    (h : endOfStatement terminator c = .ok value d) : d = c ∧ d.EndsLine terminator := by
  rcases bind_eq_ok.mp h with ⟨lineEnds, _, hlineEnds, hrest⟩
  cases hlineEnds
  rcases bind_eq_ok.mp hrest with ⟨listEnds, _, hlistEnds, hrest⟩
  cases hlistEnds
  split at hrest
  · rename_i hends
    cases hrest
    refine ⟨rfl, ?_⟩
    rcases Bool.or_eq_true_iff.mp hends with hbreak | hlist
    · left
      simpa [Cursor.isAt] using hbreak
    · exact Or.inr hlist
  · cases hrest

theorem statementLine_eq_ok {terminator : Kind} {comments : List Lexeme} {c d : Cursor}
    {found : Statement} (h : statementLine level terminator comments c = .ok found d) :
    level.statement comments c = .ok found d ∧ d.EndsLine terminator := by
  rcases bind_eq_ok.mp h with ⟨value, e, hfound, hrest⟩
  rcases bind_eq_ok.mp hrest with ⟨_, e', hends, hpure⟩
  cases hpure
  rcases endsLine_of_endOfStatement hends with ⟨rfl, hendsLine⟩
  exact ⟨hfound, hendsLine⟩

theorem recovering_eq_ok {terminator : Kind} {line : Parser Statement} {c d : Cursor}
    {found : Statement} (h : recovering terminator line c = .ok found d) :
    line c = .ok found d ∨ exists diagnostic e, line c = .error diagnostic e ∧
      giveUp terminator c.current.span diagnostic e = (found, d) := by
  unfold recovering at h
  cases hline : line c with
  | ok value e =>
      rw [hline] at h
      exact Or.inl h
  | error diagnostic e =>
      rw [hline] at h
      cases h
      exact Or.inr ⟨diagnostic, e, rfl, rfl⟩
  | fault fault =>
      rw [hline] at h
      cases h

theorem endOfStatement_reads {A : Account} (terminator : Kind) :
    A.Reads 0 (endOfStatement terminator) (fun _ => []) := by
  apply Tells.look
  intro lineEnds
  apply Tells.look
  intro listEnds
  split
  · exact Tells.pure rfl
  · exact Tells.unexpected _

/-- A statement with what has to follow it, or the diagnostic at the token where
that is missing. -/
theorem statementLine_reads (hlevel : level.Keeps R.toAccount) (terminator : Kind)
    (comments : List Lexeme) :
    R.Reads 1 (statementLine level terminator comments) Statement.contents := by
  apply Tells.bind (hlevel.statement comments)
  intro found
  apply Tells.step (endOfStatement_reads terminator)
  intro _
  exact Tells.pure (by simp)

theorem recovering_lists (hlevel : level.Keeps R.toAccount)
    (hspans : LevelSpans level)
    {terminator : Kind} {comments : List Lexeme} {c : Cursor} (hc : R.Fits c)
    (hbegins : c.Begins terminator) :
    (recovering terminator (statementLine level terminator comments) c).Satisfies
      (fun found d => Listed R terminator found.script c d ∧ d.EndsLine terminator)
      (fun _ _ => False) := by
  have hreply := ReadsIf.elim (statementLine_reads hlevel terminator comments) hc trivial
  unfold recovering
  cases hline : statementLine level terminator comments c with
  | ok found d =>
      rw [hline] at hreply
      rcases hreply with ⟨read, noted, passage, hleast, hholds⟩
      rcases statementLine_eq_ok hline with ⟨hfound, hendsLine⟩
      exact ⟨⟨read, noted, passage, R.told hbegins passage hleast (hspans _ _ _ _ hfound) hholds⟩,
        hendsLine⟩
  | error diagnostic d =>
      rw [hline] at hreply
      rcases hreply with ⟨read, noted, passage, hdiagnostic, hfails⟩
      have hfits := hc.after passage
      rcases Cursor.skipStatement_passage terminator (c := d.record diagnostic) hfits.final with
        ⟨skipped, hskip, hends, hcurrent⟩
      have hrecord : Cursor.Passage d [] [diagnostic] (d.record diagnostic) :=
        ⟨rfl, rfl, rfl, rfl, rfl, by simp⟩
      have hwhole := passage.trans (hrecord.trans hskip)
      simp only [List.nil_append, List.append_nil] at hwhole
      exact ⟨⟨_, _, hwhole, R.failed hbegins passage hfits hdiagnostic hfails rfl hskip hcurrent⟩,
        hends⟩
  | fault found =>
      rw [hline] at hreply
      exact hreply

/-- Every statement but the last takes a line break, so a list ends before the
tokens do. -/
theorem statementsUpTo_lists (hlevel : level.Keeps R.toAccount)
    (hspans : LevelSpans level)
    (terminator : Kind) (bound : Nat) {c : Cursor} (hc : R.Fits c)
    (hbound : c.ahead.length < bound) :
    (statementsUpTo level terminator bound c).Satisfies
      (fun found d => Listed R terminator (Statement.scripts found) c d ∧
        atListEnd terminator d = true)
      (fun _ _ => False) := by
  induction bound generalizing c with
  | zero => exact absurd hbound (Nat.not_lt_zero _)
  | succ bound ih =>
      have hskip := c.skipTrivia_passage
      have htrivia : forall t, t ∈ c.ahead.takeWhile Cursor.isTrivia -> Cursor.isTrivia t = true :=
        fun t ht => List.all_eq_true.mp List.all_takeWhile t ht
      apply satisfies_bind
      apply satisfies_bind
      simp only [look, Reply.satisfies_ok]
      split
      · rename_i hend
        refine ⟨⟨_, _, hskip, ?_⟩, hend⟩
        simpa [Statement.scripts] using R.trivia htrivia R.none
      · rename_i hend
        have hbegins : c.skipTrivia.Begins terminator :=
          Cursor.begins_skipTrivia hc.final (by simpa using hend)
        apply satisfies_bind
        refine (recovering_lists hlevel hspans (hc.after hskip) hbegins).mono ?_ (fun _ _ h => h)
        rintro first d ⟨⟨read, noted, passage, hlists⟩, hends⟩
        have hpassage := hskip.trans passage
        apply satisfies_bind
        simp only [isAt, look, Reply.satisfies_ok]
        split
        · rename_i hmore
          have hkind : d.kind = .lineBreak := by simpa [Cursor.isAt] using hmore
          have hfits := hc.after hpassage
          have hadvance := Cursor.advance_passage hfits.final (by simp [hkind])
          -- The line break taken here makes the rest shorter, so the bound outlasts the statements.
          have hshorter : d.advance.ahead.length < bound := by
            apply length_ahead_lt hbound (hpassage.trans hadvance)
            simp only [List.length_append, List.length_singleton]
            omega
          apply satisfies_bind
          simp only [advance, Reply.satisfies_ok]
          apply satisfies_bind
          refine (ih (hfits.after hadvance) hshorter).mono ?_ (fun _ _ h => h)
          rintro rest e ⟨⟨read', noted', passage', hlists'⟩, hend⟩
          refine ⟨⟨_, _, (hpassage.trans (hadvance.trans passage')), ?_⟩, hend⟩
          have hnext := R.trivia htrivia (R.next hlists hfits hkind passage' hlists')
          simpa [Statement.scripts, Statement.script] using hnext
        · rename_i hmore
          refine ⟨⟨_, _, hpassage, ?_⟩, ?_⟩
          · simpa [Statement.scripts, Statement.script] using R.trivia htrivia hlists
          · rcases hends with hbreak | hend
            · simp [Cursor.isAt, hbreak] at hmore
            · exact hend

theorem statements_lists (hlevel : level.Keeps R.toAccount)
    (hspans : LevelSpans level)
    (terminator : Kind) {c : Cursor} (hc : R.Fits c) :
    (statements level terminator c).Satisfies
      (fun found d => Listed R terminator (Statement.scripts found) c d ∧
        atListEnd terminator d = true)
      (fun _ _ => False) :=
  statementsUpTo_lists hlevel hspans terminator _ hc (Nat.lt_succ_self _)

/-!
## Braces
-/

theorem holds_fields (fields : List (Entry Lexeme Expression)) {read rest : List Token}
    {noted : List Diagnostic} (before : List Symbol) {after : List Symbol}
    (hholds : R.Holds read rest noted
      (before ++ (Statement.scripts (fields.map Entry.toStatement) ++ after))) :
    R.Holds read rest noted (before ++ (Expression.fieldScripts fields ++ after)) := by
  induction fields generalizing before with
  | nil => exact hholds
  | cons field fields ih =>
      cases field with
      | mk name value span =>
          have hunlisted := R.unlist hholds rfl
          have hfront : R.Holds read rest noted
              ((before ++ .leaf .lowercaseName name :: .mark .colon :: value.script) ++
                (Statement.scripts (fields.map Entry.toStatement) ++ after)) := by
            simpa [Entry.toStatement, Statement.contents, Pattern.script] using hunlisted
          simpa [Expression.fieldScripts] using ih _ hfront

theorem holds_recordOrBlock {statements : List Statement} {read rest : List Token}
    {noted : List Diagnostic} (span : Span)
    (h : R.Holds read rest noted
      (.mark .openCurly :: (Statement.scripts statements ++ [.mark .closeCurly]))) :
    R.Holds read rest noted (recordOrBlock statements span).script := by
  unfold recordOrBlock
  split
  · rename_i fields hfields
    rw [(fields?_eq_some.mp hfields).2] at h
    rw [Expression.script]
    exact holds_fields fields [.mark .openCurly] h
  · rw [Expression.script]
    exact h

theorem bracedExpression_reads (hlevel : level.Keeps R.toAccount)
    (hspans : LevelSpans level) :
    R.Reads 1 (bracedExpression level) Expression.script := by
  apply ReadsIf.intro
  intro c hc _
  apply satisfies_bind
  unfold expect expectAs expectOr
  split
  · rename_i hopen
    have hkind : c.kind = .mark .openCurly := by simpa [Cursor.isAt] using hopen
    have hne : c.kind ≠ .endOfInput := by simp [hkind]
    have hadvance := Cursor.advance_passage hc.final hne
    rw [Reply.satisfies_ok]
    apply satisfies_bind
    refine (statements_lists hlevel hspans _ (hc.after hadvance)).mono ?_ (fun _ _ h => h.elim)
    rintro statements d ⟨⟨read, noted, passage, hlists⟩, hend⟩
    have hd := (hc.after hadvance).after passage
    have hcomments : forall rest, R.Holds (c.ahead.takeWhile Token.isComment) rest [] [] :=
      holds_trivia (A := R.toAccount) (fun t ht => Cursor.isTrivia_of_comments (c := c) ht)
    apply satisfies_bind
    split
    · rename_i hclose
      have hkind' : d.kind = .mark .closeCurly := by simpa [Cursor.isAt] using hclose
      have hne' : d.kind ≠ .endOfInput := by simp [hkind']
      refine ⟨_, _, hadvance.trans (passage.trans (Cursor.advance_passage hd.final hne')), ?_, ?_⟩
      · simp only [List.length_append, List.length_singleton]
        omega
      · apply holds_recordOrBlock
        have hclosed := R.close hkind (hc.admits_current hne) hlists hd hkind'
        simpa using R.append (hcomments _) hclosed
    · rename_i hopen
      have hkind' : d.kind = .endOfInput := by
        have hopen : d.isAt (.mark .closeCurly) = false := by simpa using hopen
        rw [atListEnd, hopen, Bool.false_or] at hend
        simpa [Cursor.hasTokens, Cursor.isAt] using hend
      refine ⟨_, _, hadvance.trans passage, rfl, ?_⟩
      have hunclosed : R.Fails (c.current :: read) d.current noted _ := R.unclosed hlists hkind'
      simpa using R.behind (hcomments (c.current :: read ++ d.ahead)) hunclosed
  · exact Stops.at R.toAccount c _

/-!
## Source files
-/

theorem keeps_recovery (R : Recovery) (room : Nat) : (Level.ofRoom room).Keeps R.toAccount :=
  keeps_ofRoom (fun _ hlevel => bracedExpression_reads hlevel (spans_ofRoom _)) room

theorem keeps_outermost (R : Recovery) : Level.outermost.Keeps R.toAccount :=
  keeps_recovery R Parser.maxDepth

end Grammar

theorem Cursor.final_ofTokens (tokens : List Token) :
    (Cursor.ofTokens tokens).final.kind = .endOfInput := by
  unfold Cursor.ofTokens
  split
  · split
    · assumption
    · rfl
  · rfl

theorem Cursor.errors_ofTokens (tokens : List Token) : (Cursor.ofTokens tokens).errors = [] := by
  unfold Cursor.ofTokens
  split
  · split <;> rfl
  · rfl

theorem Cursor.depth_ofTokens (tokens : List Token) : (Cursor.ofTokens tokens).depth = 0 := by
  unfold ofTokens
  split
  · split <;> rfl
  · rfl

theorem Cursor.mem_of_mem_ahead {tokens : List Token} {t : Token}
    (h : t ∈ (Cursor.ofTokens tokens).ahead) : t ∈ tokens := by
  unfold Cursor.ofTokens at h
  split at h
  · split at h
    · exact (List.dropLast_sublist tokens).subset h
    · exact h
  · cases h

theorem Cursor.ahead_ofTokens {body : List Token} {last : Token}
    (h : last.kind = .endOfInput) : (Cursor.ofTokens (body ++ [last])).ahead = body := by
  simp [Cursor.ofTokens, h]

theorem Cursor.final_ofTokens_append {body : List Token} {last : Token}
    (h : last.kind = .endOfInput) : (Cursor.ofTokens (body ++ [last])).final = last := by
  simp [Cursor.ofTokens, h]

theorem Cursor.isComment_of_end {c : Cursor}
    (hinside : forall t, t ∈ c.ahead -> t.kind ≠ .endOfInput) (h : c.kind = .endOfInput) :
    forall t, t ∈ c.ahead -> t.isComment = true := by
  cases hs : c.significant with
  | nil =>
      intro t ht
      rw [c.ahead_eq_significant, hs, List.append_nil] at ht
      exact List.all_eq_true.mp List.all_takeWhile t ht
  | cons token rest =>
      have htoken : c.current = token := current_eq hs
      rw [kind, htoken] at h
      exact absurd h (hinside token (mem_ahead_of_significant hs))

theorem Cursor.current_of_end {c : Cursor}
    (hinside : forall t, t ∈ c.ahead -> t.kind ≠ .endOfInput) (h : c.kind = .endOfInput) :
    c.current = c.final := by
  cases hs : c.significant with
  | nil => exact current_eq_final hs
  | cons token rest =>
      have htoken : c.current = token := current_eq hs
      rw [kind, htoken] at h
      exact absurd h (hinside token (mem_ahead_of_significant hs))

/-- Reading tokens always gives a source file, and what was read for it is
accounted for. -/
theorem parseTokens_lists (R : Recovery) {tokens : List Token}
    (hfits : R.Fits (Cursor.ofTokens tokens)) :
    exists parsed read d, parseTokens tokens = .ok parsed ∧
      (Cursor.ofTokens tokens).Passage read parsed.errors d ∧ d.kind = .endOfInput ∧
      R.Lists .endOfInput read d parsed.errors parsed.file.script := by
  have hlists := Grammar.statements_lists (Grammar.keeps_outermost R)
    (Grammar.spans_ofRoom _)
    .endOfInput hfits
  unfold parseTokens
  cases hreply : Grammar.statements Level.outermost .endOfInput (Cursor.ofTokens tokens) with
  | ok found d =>
      rw [hreply] at hlists
      rcases hlists with ⟨⟨read, noted, passage, hlisted⟩, hend⟩
      have herrors : d.errors = noted := by
        rw [passage.errors, Cursor.errors_ofTokens, List.nil_append]
      refine ⟨_, read, d, rfl, ?_, ?_, ?_⟩
      · simpa [herrors] using passage
      · simpa [Grammar.atListEnd, Cursor.hasTokens, Cursor.isAt] using hend
      · simpa [herrors, SourceFile.script] using hlisted
  | error diagnostic d =>
      rw [hreply] at hlists
      exact hlists.elim
  | fault found =>
      rw [hreply] at hlists
      exact hlists.elim

end Linewise
