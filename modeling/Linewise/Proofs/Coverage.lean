import Linewise.Proofs.Lossless
import Linewise.Proofs.Resumption
import Linewise.Proofs.Yield

/-!
# Where tokens belong

The statements of a file divide its tokens among them: each takes a stretch of the
text, and between the stretches only comments and line breaks are left.  Stray
characters only occur where a statement was given up.
-/

namespace Linewise

namespace Stands

variable {read read' : List Token} {span : Span} {t : Token}

theorem not_contains_earlier (h : Stands read' span) (hordered : Token.Ordered (read ++ read'))
    (ht : t ∈ read) : ¬ span.Contains t.span := by
  intro hinside
  rcases h.begins with ⟨first, hfirst, _, hstart⟩
  have hbehind := hordered.across ht hfirst
  have hnonempty := hordered.left.nonempty t ht
  rw [Span.Contains, hstart] at hinside
  omega

theorem not_contains_later (h : Stands read span) (hordered : Token.Ordered (read ++ read'))
    (ht : t ∈ read') : ¬ span.Contains t.span := by
  intro hinside
  rcases h.ends with ⟨final, hfinal, _, hstop⟩
  have hbehind := hordered.across hfinal ht
  have hnonempty := hordered.right.nonempty t ht
  rw [Span.Contains, hstop] at hinside
  omega

end Stands

/-!
## Statements one below the other
-/

/-- The tokens are those of the statements, one statement behind the other, with
nothing but trivia in front of each and behind the last. -/
inductive Tiles : List Token -> List Statement -> Prop where
  | done {gap : List Token} : (forall t, t ∈ gap -> Cursor.isTrivia t = true) -> Tiles gap []
  | next {gap piece rest : List Token} {first : Statement} {others : List Statement} :
      (forall t, t ∈ gap -> Cursor.isTrivia t = true) -> Extent piece first.span ->
        Tiles rest others -> Tiles (gap ++ (piece ++ rest)) (first :: others)

namespace Tiles

variable {read read' gap : List Token} {statements statements' : List Statement}

theorem ofTrivia_append (h : Tiles read statements)
    (hgap : forall t, t ∈ gap -> Cursor.isTrivia t = true) : Tiles (gap ++ read) statements := by
  have hboth : forall {more : List Token}, (forall t, t ∈ more -> Cursor.isTrivia t = true) ->
      forall t, t ∈ gap ++ more -> Cursor.isTrivia t = true := by
    intro more hmore t ht
    rcases List.mem_append.mp ht with ht | ht
    · exact hgap t ht
    · exact hmore t ht
  cases h with
  | done hread => exact done (hboth hread)
  | next hfront hextent hrest =>
      rw [← List.append_assoc]
      exact next (hboth hfront) hextent hrest

theorem append (first : Tiles read statements) (second : Tiles read' statements') :
    Tiles (read ++ read') (statements ++ statements') := by
  induction first with
  | done hgap => exact second.ofTrivia_append hgap
  | next hgap hextent _ ih =>
      simp only [List.append_assoc, List.cons_append]
      exact next hgap hextent ih

theorem single {found : Statement} (h : Extent read found.span) : Tiles read [found] := by
  have hnone : forall t : Token, t ∈ ([] : List Token) -> Cursor.isTrivia t = true := by simp
  have hone := next hnone h (done hnone)
  rwa [List.nil_append, List.append_nil] at hone

theorem stands (h : Tiles read statements) {found : Statement} (hfound : found ∈ statements) :
    Stands read found.span := by
  induction h with
  | done => cases hfound
  | next _ hextent _ ih =>
      rcases List.mem_cons.mp hfound with hself | hlater
      · rw [hself]
        exact hextent.toStands.mono (by simp +contextual)
      · exact (ih hlater).mono (by simp +contextual)

theorem nonempty (h : Tiles read statements) (hordered : Token.Ordered read) {found : Statement}
    (hfound : found ∈ statements) : found.span.start < found.span.stop := by
  induction h with
  | done => cases hfound
  | next _ hextent _ ih =>
      rcases List.mem_cons.mp hfound with hself | hlater
      · rw [hself]
        exact hextent.nonempty hordered.right.left
      · exact ih hordered.right.right hlater

theorem disjoint (h : Tiles read statements) (hordered : Token.Ordered read) :
    statements.Pairwise (fun first second => first.span.stop <= second.span.start) := by
  induction h with
  | done => exact List.Pairwise.nil
  | next _ hextent hrest ih =>
      refine List.Pairwise.cons ?_ (ih hordered.right.right)
      intro later hlater
      rcases hextent.ends with ⟨final, hfinal, _, hstop⟩
      rcases (hrest.stands hlater).begins with ⟨begin, hbegin, _, hstart⟩
      rw [hstop, hstart]
      exact hordered.right.across hfinal hbegin

/-- Each token that is no trivia lies inside of exactly one statement. -/
theorem count (h : Tiles read statements) (hordered : Token.Ordered read) {t : Token}
    (ht : t ∈ read) (htrivia : Cursor.isTrivia t = false) :
    statements.countP (fun found => decide (found.span.Contains t.span)) = 1 := by
  induction h with
  | done hgap =>
      rw [hgap t ht] at htrivia
      cases htrivia
  | next hgap hextent hrest ih =>
      have hinner := hordered.right
      rcases List.mem_append.mp ht with hfront | ht
      · rw [hgap t hfront] at htrivia
        cases htrivia
      · rcases List.mem_append.mp ht with hpiece | hlater
        · have hinside := hextent.contains_token hpiece htrivia
          rw [List.countP_cons_of_pos (by simpa using hinside), List.countP_eq_zero.mpr]
          intro later hlater
          simpa using (hrest.stands hlater).not_contains_earlier hinner hpiece
        · have houtside := hextent.toStands.not_contains_later hinner hlater
          rw [List.countP_cons_of_neg (by simpa using houtside)]
          exact ih hinner.right hlater

end Tiles

/-!
## The account of the tokens
-/

def StraysCovered (read : List Token) (script : List Symbol) : Prop :=
  Token.Ordered read -> forall t, t ∈ read -> t.kind = .unrecognised ->
    exists span, .statement (.error span) ∈ script ∧ span.Contains t.span

namespace StraysCovered

variable {read read' : List Token} {script script' : List Symbol}

theorem none (h : forall t, t ∈ read -> t.kind ≠ .unrecognised) : StraysCovered read script :=
  fun _ t ht hkind => absurd hkind (h t ht)

theorem trivia (h : forall t, t ∈ read -> Cursor.isTrivia t = true) :
    StraysCovered read [] := by
  apply none
  intro t ht hkind
  have htrivia := h t ht
  simp [Cursor.isTrivia, Token.isComment, Token.isLineBreak, hkind] at htrivia

theorem append (first : StraysCovered read script) (second : StraysCovered read' script') :
    StraysCovered (read ++ read') (script ++ script') := by
  intro hordered t ht hkind
  rcases List.mem_append.mp ht with ht | ht
  · rcases first hordered.left t ht hkind with ⟨span, hmem, hinside⟩
    exact ⟨span, List.mem_append_left script' hmem, hinside⟩
  · rcases second hordered.right t ht hkind with ⟨span, hmem, hinside⟩
    exact ⟨span, List.mem_append_right script hmem, hinside⟩

theorem restate (h : StraysCovered read script)
    (hscript : forall span, .statement (.error span) ∈ script ->
      .statement (.error span) ∈ script') : StraysCovered read script' := by
  intro hordered t ht hkind
  rcases h hordered t ht hkind with ⟨span, hmem, hinside⟩
  exact ⟨span, hscript span hmem, hinside⟩

end StraysCovered

theorem Statement.scripts_append (first second : List Statement) :
    scripts (first ++ second) = scripts first ++ scripts second := by
  induction first with
  | nil => rfl
  | cons found rest ih => simp [scripts, ih]

/-- Every statement is announced, so the script tells the statements of a list. -/
theorem Statement.scripts_injective {first second : List Statement}
    (h : scripts first = scripts second) : first = second := by
  induction first generalizing second with
  | nil =>
      cases second with
      | nil => rfl
      | cons found rest => simp [scripts] at h
  | cons found rest ih =>
      cases second with
      | nil => simp [scripts] at h
      | cons found' rest' =>
          simp only [scripts, List.cons.injEq, Symbol.statement.injEq] at h
          rcases h with ⟨hfound, hrest⟩
          rw [hfound, List.append_cancel_left_eq] at hrest
          rw [hfound, ih hrest]

def Divided (read : List Token) (script : List Symbol) : Prop :=
  exists statements, script = Statement.scripts statements ∧ Tiles read statements

theorem Divided.single {read : List Token} {found : Statement} (h : Extent read found.span) :
    Divided read found.script :=
  ⟨[found], by simp [Statement.scripts, Statement.script], Tiles.single h⟩

theorem Cursor.Begins.extent {terminator : Kind} {c d : Cursor} {read : List Token}
    {noted : List Diagnostic} (h : c.Begins terminator) (passage : c.Passage read noted d)
    (hread : read ≠ []) (hordered : Token.Ordered read) :
    Extent read (d.spanFrom c.current.span) := by
  rcases h.spans passage hread with ⟨first, more, hfirst, htrivia, _⟩
  exact (passage.extent hordered ⟨first, by simp [hfirst], htrivia⟩).2

def coverRecovery : Recovery where
  Admits := Token.Quoted
  Ends := fun token => token.kind = .endOfInput
  Holds := fun read _ _ script => StraysCovered read script
  quoted := fun h => h
  ends := fun h => h
  nil := fun _ => StraysCovered.none (by simp)
  append := StraysCovered.append
  silent := by
    intro token rest hsilent
    apply StraysCovered.none
    intro t ht hkind
    rw [List.mem_singleton.mp ht] at hkind
    rw [hkind] at hsilent
    cases hsilent
  word := by
    intro token rest _ hword
    apply StraysCovered.none
    intro t ht hkind
    rw [List.mem_singleton.mp ht] at hkind
    rw [hkind] at hword
    cases hword
  group := by
    intro read rest noted before inner _ h
    apply h.restate
    intro span hmem
    simpa [Symbol.mark] using hmem
  Lists := fun _ read _ _ script =>
    StraysCovered read script ∧ (Token.Ordered read -> Divided read script)
  none := ⟨StraysCovered.none (by simp), fun _ => ⟨[], rfl, Tiles.done (by simp)⟩⟩
  trivia := by
    rintro terminator read read' d noted script htrivia ⟨hstrays, hdivided⟩
    refine ⟨(StraysCovered.trivia htrivia).append hstrays, fun hordered => ?_⟩
    rcases hdivided hordered.right with ⟨statements, hscript, htiles⟩
    exact ⟨statements, hscript, htiles.ofTrivia_append htrivia⟩
  told := by
    intro terminator read noted c d found hbegins passage hread hspans hstrays
    have hne : read ≠ [] := List.ne_nil_of_length_pos hread
    refine ⟨hstrays.restate (fun _ hmem => List.mem_cons_of_mem _ hmem), fun hordered => ?_⟩
    apply Divided.single
    rw [hspans.span]
    exact hbegins.extent passage hne hordered
  failed := by
    intro terminator read noted skipped diagnostic c d e hbegins passage hfits _ _ he hskip _
    rw [he] at hskip ⊢
    rcases hbegins.passage_givenUp hfits.final passage hskip with ⟨hwhole, hne⟩
    have hextent := fun hordered => hbegins.extent hwhole hne hordered
    constructor
    · intro hordered t ht hkind
      refine ⟨_, List.mem_cons_self, (hextent hordered).contains_token ht ?_⟩
      simp [Cursor.isTrivia, Token.isComment, Token.isLineBreak, hkind]
    · intro hordered
      exact Divided.single (hextent hordered)
  next := by
    rintro terminator read noted script read' noted' script' d e ⟨hstrays, hdivided⟩ _ hbreak _
      ⟨hstrays', hdivided'⟩
    have hgap := Cursor.isTrivia_of_line hbreak
    refine ⟨hstrays.append ((StraysCovered.trivia hgap).append hstrays'), fun hordered => ?_⟩
    rcases hdivided hordered.left with ⟨statements, hscript, htiles⟩
    rcases hdivided' hordered.right.right with ⟨statements', hscript', htiles'⟩
    refine ⟨statements ++ statements', ?_, htiles.append (htiles'.ofTrivia_append hgap)⟩
    rw [hscript, hscript', Statement.scripts_append]
  close := by
    rintro opening d read noted script hopening _ ⟨hstrays, _⟩ _ hclosing
    have hfirst : StraysCovered [opening] [.mark .openCurly] := by
      apply StraysCovered.none
      intro t ht
      simp [List.mem_singleton.mp ht, hopening]
    have hlast : StraysCovered (d.ahead.takeWhile Token.isComment ++ [d.current])
        [.mark .closeCurly] := by
      have hkind : d.current.kind = .mark .closeCurly := hclosing
      have hcomments : StraysCovered (d.ahead.takeWhile Token.isComment) [] :=
        StraysCovered.trivia (fun t ht => Cursor.isTrivia_of_comments ht)
      apply hcomments.append
      apply StraysCovered.none
      intro t ht
      simp [List.mem_singleton.mp ht, hkind]
    exact hfirst.append (hstrays.append hlast)
  unlist := by
    intro read rest noted before after begun h herror
    apply h.restate
    intro span hmem
    rcases List.mem_append.mp hmem with hmem | hmem
    · exact List.mem_append_left after hmem
    · rcases List.mem_cons.mp hmem with hself | hmem
      · injection hself with hself
        rw [← hself] at herror
        cases herror
      · exact List.mem_append_right before hmem

/-!
## Source texts
-/

theorem parseTokens_span (R : Recovery) {body : List Token} {last : Token}
    (hlast : last.kind = .endOfInput) (hbody : forall t, t ∈ body -> t.kind ≠ .endOfInput)
    (hfits : R.Fits (Cursor.ofTokens (body ++ [last]))) {parsed : Parsed}
    (h : parseTokens (body ++ [last]) = .ok parsed) :
    parsed.file.span = Span.between 0 last.span.stop := by
  have hlists := Grammar.statements_lists (Grammar.keeps_outermost R) (Grammar.spans_ofRoom _)
    .endOfInput hfits
  unfold parseTokens at h
  cases hreply : Grammar.statements Level.outermost .endOfInput
      (Cursor.ofTokens (body ++ [last])) with
  | ok found d =>
      rw [hreply] at hlists h
      rcases hlists with ⟨⟨read, noted, passage, _⟩, hend⟩
      have hkind : d.kind = .endOfInput := by
        simpa [Grammar.atListEnd, Cursor.hasTokens, Cursor.isAt] using hend
      have hahead := passage.ahead
      rw [Cursor.ahead_ofTokens hlast] at hahead
      have hinside : forall t, t ∈ d.ahead -> t.kind ≠ .endOfInput := by
        intro t ht
        apply hbody t
        rw [hahead]
        exact List.mem_append_right read ht
      cases h
      simp only
      rw [Cursor.current_of_end hinside hkind, passage.final,
        Cursor.final_ofTokens_append hlast]
  | error diagnostic d =>
      rw [hreply] at hlists
      exact hlists.elim
  | fault found =>
      rw [hreply] at hlists
      exact hlists.elim

/-- How the tokens of a text with `length` bytes are divided among the statements of a
file. -/
structure SourceFile.Covers (file : SourceFile) (tokens : List Token) (length : Nat) :
    Prop where
  nonempty : forall found, found ∈ file.statements -> found.span.start < found.span.stop
  increasing : file.statements.Pairwise
    (fun first second => first.span.start < second.span.start)
  disjoint : file.statements.Pairwise
    (fun first second => first.span.stop <= second.span.start)
  once : forall t, t ∈ tokens -> t.kind ≠ .comment -> t.kind ≠ .lineBreak ->
    t.kind ≠ .endOfInput ->
      file.statements.countP (fun found => decide (found.span.Contains t.span)) = 1
  whole : file.span = ⟨0, length⟩
  strays : forall t, t ∈ tokens -> t.kind = .unrecognised ->
    exists found, found ∈ file.allStatements ∧ found.isError = true ∧
      found.span.Contains t.span

/-- Every token of a text but comments and line breaks belongs to one statement of the
file, and stray characters belong to error statements. -/
theorem parse_covers (source : String) (hshort : Text.byteLength source.toList < 4294967296) :
    exists parsed, parse source = .ok parsed ∧
      parsed.file.Covers (tokenize source).1 (Text.byteLength source.toList) := by
  have hlength : Text.byteLength source.toList <= Span.maxOffset := Nat.le_of_lt_succ hshort
  rcases tokenize_lossless source hlength with
    ⟨body, last, htokens, _, hbody, hlast, hlastSpan, _, _⟩
  have hbefore := tokenize_before hlength
  rw [htokens] at hbefore
  have hordered := Token.Ordered.ofText hbefore
  have hfits : coverRecovery.Fits (Cursor.ofTokens (tokenize source).1) :=
    ⟨fun t ht => (admits_tokenize (Cursor.mem_of_mem_ahead ht)).2, Cursor.final_ofTokens _⟩
  rcases parseTokens_lists coverRecovery hfits with
    ⟨parsed, read, d, hparsed, passage, hend, hstrays, hdivided⟩
  refine ⟨_, parse_eq hparsed, ?_⟩
  rw [htokens] at hfits hparsed passage ⊢
  have hahead := passage.ahead
  rw [Cursor.ahead_ofTokens hlast] at hahead
  rw [hahead] at hordered
  -- Behind the last statement there are only comments.
  have hrest : forall t, t ∈ d.ahead -> t.isComment = true := by
    apply Cursor.isComment_of_end _ hend
    intro t ht
    apply hbody t
    rw [hahead]
    exact List.mem_append_right read ht
  have hread : forall t, t ∈ body ++ [last] -> t.kind ≠ .comment -> t.kind ≠ .endOfInput ->
      t ∈ read := by
    intro t ht hcomment hinside
    rw [hahead, List.append_assoc] at ht
    rcases List.mem_append.mp ht with hmem | ht
    · exact hmem
    · rcases List.mem_append.mp ht with hmem | hmem
      · exact absurd (by simpa [Token.isComment] using hrest t hmem) hcomment
      · rw [List.mem_singleton.mp hmem] at hinside
        exact absurd hlast hinside
  rcases hdivided hordered.left with ⟨statements, hscript, htiles⟩
  have hstatements : parsed.file.statements = statements := Statement.scripts_injective hscript
  rw [← hstatements] at htiles
  have hnonempty : forall found, found ∈ parsed.file.statements ->
      found.span.start < found.span.stop :=
    fun _ hfound => htiles.nonempty hordered.left hfound
  have hdisjoint := htiles.disjoint hordered.left
  exact
    { nonempty := hnonempty
      increasing := by
        apply hdisjoint.imp_of_mem
        intro first second hfirst _ hbehind
        exact Nat.lt_of_lt_of_le (hnonempty first hfirst) hbehind
      disjoint := hdisjoint
      once := by
        intro t ht hcomment hbreak hinside
        apply htiles.count hordered.left (hread t ht hcomment hinside)
        simp [Cursor.isTrivia, Token.isComment, Token.isLineBreak, hcomment, hbreak]
      whole := by
        simp only
        rw [parseTokens_span coverRecovery hlast hbody hfits hparsed, hlastSpan,
          Span.between_eq (Nat.zero_le _) hlength]
      strays := by
        intro t ht hkind
        have hmem := hread t ht (by simp [hkind]) (by simp [hkind])
        rcases hstrays hordered.left t hmem hkind with ⟨span, hfound, hinside⟩
        exact ⟨.error span, List.mem_filterMap.mpr ⟨_, hfound, rfl⟩, rfl, hinside⟩ }

/-- In `{ a $`, `b }`, `c` the stray character is in an error statement inside of the
first of two statements. -/
theorem parse_covers_block :
    exists parsed, parse "\x7b a $\nb \x7d\nc" = .ok parsed ∧
      parsed.file.Covers (tokenize "\x7b a $\nb \x7d\nc").1 11 ∧
      parsed.file.statements.map Statement.span = [⟨0, 9⟩, ⟨10, 11⟩] ∧
      parsed.file.allStatements.map (fun found => (found.isError, found.span)) =
        [(false, ⟨0, 9⟩), (true, ⟨2, 5⟩), (false, ⟨6, 7⟩), (false, ⟨10, 11⟩)] := by
  have hlength : Text.byteLength "\x7b a $\nb \x7d\nc".toList = 11 := by decide +kernel
  rcases parse_covers "\x7b a $\nb \x7d\nc" (by rw [hlength]; decide) with
    ⟨parsed, hparsed, hcovers⟩
  have hspans : (parse "\x7b a $\nb \x7d\nc").toOption.map
      (fun parsed => (parsed.file.statements.map Statement.span,
        parsed.file.allStatements.map (fun found => (found.isError, found.span)))) =
      some ([⟨0, 9⟩, ⟨10, 11⟩],
        [(false, ⟨0, 9⟩), (true, ⟨2, 5⟩), (false, ⟨6, 7⟩), (false, ⟨10, 11⟩)]) := by
    decide +kernel
  rw [hparsed] at hspans
  have hboth := Prod.mk.inj (Option.some.inj hspans)
  rw [hlength] at hcovers
  exact ⟨parsed, hparsed, hcovers, hboth.1, hboth.2⟩

end Linewise
