import Linewise.Proofs.Joining.Extension
import Linewise.Proofs.Joining.File

/-!
# Lists of statements one below the other

A text that is read without a diagnostic has matched brackets and ends behind an
operand.  So nothing in it reaches over its end, and with another text below it, it
gives the same statements; the other text gives the statements that it gives alone.
-/

namespace Linewise

/-!
## Texts that are read without a diagnostic
-/

/-- The tokens up to the line breaks at the end have matched brackets and end an
operand. -/
structure Closed (tokens front breaks : List Token) : Prop where
  split : tokens = front ++ breaks
  blank : forall t, t ∈ breaks -> t.isLineBreak = true
  matched : Bracket.Matched (front.map Token.kind)
  settled : forall t, front.getLast? = some t -> Phase.ofKind t.kind = .settled

namespace Closed

variable {tokens front breaks read : List Token} {newline : Token}

theorem ofBreaks (h : forall t, t ∈ breaks -> t.isLineBreak = true) : Closed breaks [] breaks where
  split := rfl
  blank := h
  matched := rfl
  settled := by simp

theorem ofStatement (h : Course.start.run read = some ⟨.settled, []⟩) : Closed read read [] where
  split := (List.append_nil read).symm
  blank := by simp
  matched := Course.unwind_of_run h
  settled := by
    intro t ht
    rcases List.getLast?_eq_some_iff.mp ht with ⟨before, rfl⟩
    exact Course.settled_of_run h

theorem run_ne_worded (h : Course.start.run read = some ⟨.settled, []⟩) :
    Course.start.run read ≠ some ⟨.worded, []⟩ := by
  rw [h]
  simp

theorem below (hread : Course.start.run read = some ⟨.settled, []⟩)
    (hnewline : newline.isLineBreak = true) (h : Closed tokens front breaks) :
    exists front' breaks', Closed (read ++ newline :: tokens) front' breaks' ∧
      Course.start.run front' ≠ some ⟨.worded, []⟩ := by
  cases front with
  | nil =>
      have hsplit : tokens = breaks := h.split
      refine ⟨read, newline :: breaks, ⟨by rw [hsplit], ?_, (ofStatement hread).matched,
        (ofStatement hread).settled⟩, run_ne_worded hread⟩
      intro t ht
      rcases List.mem_cons.mp ht with rfl | ht
      · exact hnewline
      · exact h.blank t ht
  | cons first rest =>
      have hkind : newline.kind = .lineBreak := by simpa [Token.isLineBreak] using hnewline
      refine ⟨read ++ newline :: first :: rest, breaks, ⟨?_, h.blank, ?_, ?_⟩, ?_⟩
      · rw [h.split, List.append_assoc]
        rfl
      · rw [Bracket.Matched, List.map_append, Bracket.unwind_append, (ofStatement hread).matched,
          Option.bind_some, List.map_cons, Bracket.unwind_cons, hkind, Bracket.step_plain rfl]
        exact h.matched
      · intro t ht
        apply h.settled t
        rw [← ht, List.getLast?_append_cons, List.getLast?_cons_cons]
      · rw [Course.run_append, hread, Option.bind_some, Course.run, Course.step, if_pos hnewline]
        simp

theorem above {blanks : List Token} (hblanks : forall t, t ∈ blanks -> t.isLineBreak = true)
    (h : Closed tokens front breaks) :
    exists front' breaks', Closed (blanks ++ tokens) front' breaks' := by
  cases front with
  | nil =>
      refine ⟨[], blanks ++ breaks, by rw [h.split]; rfl, ?_, rfl, by simp⟩
      intro t ht
      rcases List.mem_append.mp ht with ht | ht
      · exact hblanks t ht
      · exact h.blank t ht
  | cons first rest =>
      have htrivia : forall t, t ∈ blanks -> Cursor.isTrivia t = true :=
        fun t ht => Cursor.isTrivia_of_isLineBreak (hblanks t ht)
      refine ⟨blanks ++ first :: rest, breaks, by rw [h.split, List.append_assoc], h.blank, ?_, ?_⟩
      · rw [Bracket.Matched, List.map_append, Bracket.unwind_append, Bracket.unwind_trivia htrivia]
        exact h.matched
      · intro t ht
        apply h.settled t
        rw [← ht, List.getLast?_append_cons]

def extension (more : List Token) (h : Closed tokens front breaks)
    (hplain : forall t, t ∈ tokens -> t.isComment = false ∧ t.kind ≠ .endOfInput)
    (hnewline : newline.isLineBreak = true)
    (hcourse : Course.start.run front ≠ some ⟨.worded, []⟩) : Extension where
  tokens := front
  breaks := breaks
  newline := (breaks ++ newline :: more).head (by simp)
  more := (breaks ++ newline :: more).tail
  Soft := True
  plain t ht := hplain t (by rw [h.split]; exact List.mem_append_left breaks ht)
  blank := h.blank
  line := by
    cases breaks with
    | nil => exact hnewline
    | cons first rest => exact h.blank first (by simp)
  closed t ht := ⟨h.settled t ht, fun _ => trivial⟩
  unworded _ := hcourse

theorem extension_longer (more : List Token) (h : Closed tokens front breaks)
    (hplain : forall t, t ∈ tokens -> t.isComment = false ∧ t.kind ≠ .endOfInput)
    (hnewline : newline.isLineBreak = true)
    (hcourse : Course.start.run front ≠ some ⟨.worded, []⟩) :
    (h.extension more hplain hnewline hcourse).newline ::
      (h.extension more hplain hnewline hcourse).more = breaks ++ newline :: more :=
  List.cons_head_tail _

end Closed

/-!
## The longer text
-/

/-- The second cursor stands at the same place of a text that goes on, between two
statements, and nothing was noted so far. -/
structure Cursor.Prolongs (newline : Token) (more : List Token) (last : Token)
    (c d : Cursor) : Prop where
  fits : plainRecovery.Fits c
  fits' : plainRecovery.Fits d
  plain : forall t, t ∈ c.ahead -> t.isComment = false ∧ t.kind ≠ .endOfInput
  ahead : d.ahead = c.ahead ++ newline :: more
  final : d.final = last
  depth : c.depth = 0
  depth' : d.depth = 0
  previous : d.previous = c.previous
  clean : c.errors = []
  clean' : d.errors = []

theorem Cursor.Prolongs.moved {newline last : Token} {more blanks rest : List Token}
    {c d : Cursor} (h : c.Prolongs newline more last d) (hahead : c.ahead = blanks ++ rest) :
    Cursor.Prolongs newline more last { c with ahead := rest }
      { d with ahead := rest ++ newline :: more } where
  fits := ⟨fun t ht => h.fits.tokens t (by
    rw [hahead]
    exact List.mem_append_right blanks ht), h.fits.ends⟩
  fits' := ⟨fun t ht => h.fits'.tokens t (by
    rw [h.ahead, hahead, List.append_assoc]
    exact List.mem_append_right blanks ht), h.fits'.ends⟩
  plain t ht := h.plain t (by
    rw [hahead]
    exact List.mem_append_right blanks ht)
  ahead := rfl
  final := h.final
  depth := h.depth
  depth' := h.depth'
  previous := h.previous
  clean := h.clean
  clean' := h.clean'

theorem Cursor.errors_skipStatement (terminator : Kind) (c : Cursor) :
    (c.skipStatement terminator).errors = c.errors := by
  unfold skipStatement
  cases afterStatement? terminator 0 c.previous c.ahead <;> rfl

theorem Cursor.Prolongs.begins {newline last : Token} {more : List Token} {c d : Cursor}
    (h : c.Prolongs newline more last d) (hc : c.Begins .endOfInput) : d.Begins .endOfInput := by
  rcases hc.ahead with ⟨first, rest, hahead, htrivia⟩
  have hahead' : d.ahead = first :: (rest ++ newline :: more) := by
    rw [h.ahead, hahead, List.cons_append]
  exact Cursor.begins_of_ahead hahead' htrivia (h.plain first (by simp [hahead])).2

namespace Grammar

open Linewise.Parser
open Linewise.Correspondence

variable {newline last : Token} {more front breaks : List Token} {c c' d : Cursor}
  {found : Statement}

theorem statementLine_prolongs (hnewline : newline.isLineBreak = true)
    (h : c.Prolongs newline more last d) (hclosed : Closed c.ahead front breaks)
    (hcourse : Course.start.run front ≠ some ⟨.worded, []⟩) (hmargin : ¬ c.AtMargin)
    (hfound : statementLine Level.outermost .endOfInput [] c = .ok found c')
    (hclean : c'.errors = []) :
    exists d', statementLine Level.outermost .endOfInput [] d = .ok found d' ∧
      c'.Prolongs newline more last d' := by
  have htracks : (Correspondence.extended
      (hclosed.extension more h.plain hnewline hcourse)).Tracks true []
      ⟨.expecting, [], true⟩ (fun f => ¬ f.AtMargin)
      (statementLine Level.outermost .endOfInput [])
      (statementLine Level.outermost .endOfInput []) (fun _ => ⟨.settled, [], false⟩)
      (Statement.relabel .identity) :=
    statementLine_file_tracks (tracks_ofRoom _ _) (fun _ hf => hf) []
  have hlonger := hclosed.extension_longer more h.plain hnewline hcourse
  have hahead : d.ahead = front ++ (breaks ++ newline :: more) := by
    rw [h.ahead, hclosed.split, List.append_assoc]
  have hat : (hclosed.extension more h.plain hnewline hcourse).At front
      ⟨.expecting, [], true⟩ c d := by
    refine Extension.At.start h.fits h.fits' (by rw [h.depth, h.depth']) h.previous h.clean
      h.clean' hclosed.split ?_ hclosed.matched
    rw [hlonger]
    exact hahead
  have hreads := Account.ReadsIf.elim
    (statementLine_reads (keeps_outermost plainRecovery) .endOfInput []) h.fits trivial
  have hreads' := Account.ReadsIf.elim
    (statementLine_reads (keeps_outermost plainRecovery) .endOfInput []) h.fits' trivial
  have hreplies := htracks c d ⟨front, hat⟩ hmargin
  rw [hfound] at hreplies hreads
  rcases hreads with ⟨read, noted, passage, _⟩
  generalize statementLine Level.outermost .endOfInput [] d = reply at hreplies hreads'
  cases hreplies with
  | lost hlax hlossy hstack hfails => exact absurd rfl (hfails found c')
  | @ok _ _ d' twin =>
      rcases twin with ⟨ahead, hat'⟩
      rcases hreads' with ⟨read', noted', passage', _⟩
      refine ⟨d', by rw [Statement.relabel_identity], hat'.fits, hat'.fits', ?_, ?_,
        passage'.final.trans h.final, passage.depth.trans h.depth, passage'.depth.trans h.depth',
        hat'.previous, hclean, ?_⟩
      · intro t ht
        exact h.plain t (by rw [passage.ahead]; exact List.mem_append_right read ht)
      · have hshort : c'.ahead = ahead ++ breaks := hat'.shorter
        rw [hat'.longer, hlonger, hshort, List.append_assoc]
      · have hcount := hat'.errors
        rw [hclean] at hcount
        exact List.length_eq_zero_iff.mp hcount

theorem statementLine_of_clean {terminator : Kind} {line : Parser Statement}
    (h : recovering terminator line c = .ok found c') (hclean : c'.errors = []) :
    line c = .ok found c' := by
  rcases recovering_eq_ok h with hline | ⟨diagnostic, e, _, hgiven⟩
  · exact hline
  · have hbehind : (e.record diagnostic).skipStatement terminator = c' := (Prod.mk.inj hgiven).2
    rw [← hbehind, Cursor.errors_skipStatement] at hclean
    simp [Cursor.record] at hclean

theorem recovering_prolongs (hnewline : newline.isLineBreak = true)
    (h : c.Prolongs newline more last d) (hclosed : Closed c.ahead front breaks)
    (hcourse : Course.start.run front ≠ some ⟨.worded, []⟩) (hbegins : c.Begins .endOfInput)
    (hfirst : recovering .endOfInput (statementLine Level.outermost .endOfInput []) c =
      .ok found c') (hclean : c'.errors = []) :
    exists d', recovering .endOfInput (statementLine Level.outermost .endOfInput []) d =
        .ok found d' ∧ c'.Prolongs newline more last d' := by
  rcases statementLine_prolongs hnewline h hclosed hcourse (not_atMargin_of_begins hbegins)
    (statementLine_of_clean hfirst hclean) hclean with ⟨d', hline, hd'⟩
  exact ⟨d', by rw [recovering, hline], hd'⟩

theorem statementsUpTo_blanks {level : Level} {terminator : Kind} {bound : Nat}
    {blanks rest : List Token} (hahead : d.ahead = blanks ++ rest)
    (hblanks : forall t, t ∈ blanks -> t.isLineBreak = true) :
    statementsUpTo level terminator (bound + 1) d =
      statementsUpTo level terminator (bound + 1) { d with ahead := rest } := by
  have htrivia : forall t, t ∈ blanks -> Cursor.isTrivia t = true :=
    fun t ht => Cursor.isTrivia_of_isLineBreak (hblanks t ht)
  have hcomments : blanks.filter Token.isComment = [] := by
    rw [List.filter_eq_nil_iff]
    intro t ht
    have hkind : t.kind = .lineBreak := by simpa [Token.isLineBreak] using hblanks t ht
    simp [Token.isComment, hkind]
  have hsame : Parser.leadingComments d = Parser.leadingComments { d with ahead := rest } := by
    simp only [Parser.leadingComments, Cursor.leadingComments, Cursor.skipTrivia, hahead,
      List.takeWhile_append_of_pos htrivia, List.dropWhile_append_of_pos htrivia,
      List.filter_append, hcomments, List.nil_append]
  rw [statementsUpTo, bind_apply, bind_apply, hsame]

theorem settled_of_recovering (hc : plainRecovery.Fits c)
    (hplain : forall t, t ∈ c.ahead -> t.isComment = false) (hclean : c.errors = [])
    (hbegins : c.Begins .endOfInput)
    (hfirst : recovering .endOfInput (statementLine Level.outermost .endOfInput []) c =
      .ok found c') (hclean' : c'.errors = []) :
    exists read, c.ahead = read ++ c'.ahead ∧ Course.start.run read = some ⟨.settled, []⟩ := by
  have hline := statementLine_of_clean hfirst hclean'
  exact settled_of_statement hc hplain hclean (not_atMargin_of_begins hbegins)
    (statementLine_eq_ok hline).1 hclean'

/-- The text is closed, and above the lines `more`, which give `others`, it gives
`found` all the same. -/
structure Composes (newline : Token) (more : List Token) (last : Token) (others : List Statement)
    (noted : List Diagnostic) (c : Cursor) (found : List Statement) : Prop where
  closed : exists front breaks, Closed c.ahead front breaks
  joins : forall d bound, c.Prolongs newline more last d -> d.ahead.length < bound ->
    exists d', statementsUpTo Level.outermost .endOfInput bound d = .ok (found ++ others) d' ∧
      d'.errors = noted

namespace Composes

variable {others : List Statement} {e : Cursor}

theorem blanks {blanks rest : List Token} {noted : List Diagnostic} {found : List Statement}
    (hahead : c.ahead = blanks ++ rest) (hblanks : forall t, t ∈ blanks -> t.isLineBreak = true)
    (h : Composes newline more last others noted { c with ahead := rest } found) :
    Composes newline more last others noted c found where
  closed := by
    rcases h.closed with ⟨front, breaks, hclosed⟩
    rw [hahead]
    exact hclosed.above hblanks
  joins := by
    intro d bound hd hbound
    have hsplit : d.ahead = blanks ++ (rest ++ newline :: more) := by
      rw [hd.ahead, hahead, List.append_assoc]
    cases bound with
    | zero => exact absurd hbound (Nat.not_lt_zero _)
    | succ bound =>
        rw [statementsUpTo_blanks hsplit hblanks]
        apply h.joins _ _ (hd.moved hahead)
        rw [hsplit, List.length_append] at hbound
        exact Nat.lt_of_le_of_lt (Nat.le_add_left _ _) hbound

theorem nil (hnewline : newline.kind = .lineBreak) (hlast : last.kind = .endOfInput)
    (hquoted : forall t, t ∈ more -> t.Quoted)
    (hothers : statements Level.outermost .endOfInput (Cursor.opening more last) = .ok others e)
    (hahead : c.ahead = []) : Composes newline more last others e.errors c [] where
  closed := ⟨[], [], by
    rw [hahead]
    exact Closed.ofBreaks (by simp)⟩
  joins := by
    intro d bound hd hbound
    have hsplit : d.ahead = [newline] ++ more := by
      rw [hd.ahead, hahead]
      rfl
    have hblanks : forall t, t ∈ [newline] -> t.isLineBreak = true := by
      simp [Token.isLineBreak, hnewline]
    cases bound with
    | zero => exact absurd hbound (Nat.not_lt_zero _)
    | succ bound =>
        have hfits : plainRecovery.Fits { d with ahead := more } :=
          ⟨hquoted, hd.fits'.ends⟩
        have hlength : more.length < bound + 1 := by
          rw [hsplit, List.length_append] at hbound
          exact Nat.lt_of_le_of_lt (Nat.le_add_left _ _) hbound
        rcases statements_rest (d := { d with ahead := more }) hlast hquoted hothers rfl hd.final
          hd.depth' with ⟨d', hfound, herrors⟩
        refine ⟨d', ?_, ?_⟩
        · rw [statementsUpTo_blanks hsplit hblanks,
            statementsUpTo_bound (keeps_outermost plainRecovery) (spans_ofRoom _) .endOfInput
              (bound + 1) (more.length + 1) hfits hlength (Nat.lt_succ_self _)]
          exact hfound
        · rw [herrors]
          simp [hd.clean']

theorem single (hnewline : newline.kind = .lineBreak) (hlast : last.kind = .endOfInput)
    (hquoted : forall t, t ∈ more -> t.Quoted)
    (hothers : statements Level.outermost .endOfInput (Cursor.opening more last) = .ok others e)
    (hc : plainRecovery.Fits c) (hplain : forall t, t ∈ c.ahead -> t.isComment = false)
    (hclean : c.errors = []) (hbegins : c.Begins .endOfInput)
    (hfirst : recovering .endOfInput (statementLine Level.outermost .endOfInput []) c =
      .ok found c') (hclean' : c'.errors = []) (hahead : c'.ahead = []) :
    Composes newline more last others e.errors c [found] := by
  rcases settled_of_recovering hc hplain hclean hbegins hfirst hclean' with ⟨read, hread, hrun⟩
  rw [hahead, List.append_nil] at hread
  have hclosed : Closed c.ahead read [] := by
    rw [hread]
    exact Closed.ofStatement hrun
  refine ⟨⟨read, [], hclosed⟩, ?_⟩
  intro d bound hd hbound
  rcases recovering_prolongs (by simp [Token.isLineBreak, hnewline]) hd hclosed
    (Closed.run_ne_worded hrun) hbegins hfirst hclean' with ⟨d', hfirst', hd'⟩
  have hahead' : d'.ahead = newline :: more := by
    rw [hd'.ahead, hahead]
    rfl
  rcases statementsUpTo_below hlast hquoted hothers hd.fits' (hd.begins hbegins) hfirst' hahead'
    hnewline hd.final hd.depth' hbound with ⟨d'', hfound, herrors⟩
  exact ⟨d'', hfound, by rw [herrors, hd'.clean', List.nil_append]⟩

theorem cons {line : Token} {rest : List Token} {noted : List Diagnostic}
    {below : List Statement} (hnewline : newline.kind = .lineBreak) (hc : plainRecovery.Fits c)
    (hplain : forall t, t ∈ c.ahead -> t.isComment = false) (hclean : c.errors = [])
    (hbegins : c.Begins .endOfInput)
    (hfirst : recovering .endOfInput (statementLine Level.outermost .endOfInput []) c =
      .ok found c') (hclean' : c'.errors = []) (hahead : c'.ahead = line :: rest)
    (hline : line.kind = .lineBreak)
    (h : Composes newline more last others noted { c' with ahead := rest } below) :
    Composes newline more last others noted c (found :: below) := by
  rcases settled_of_recovering hc hplain hclean hbegins hfirst hclean' with ⟨read, hread, hrun⟩
  rcases h.closed with ⟨front, breaks, hclosed⟩
  rcases hclosed.below hrun (show line.isLineBreak = true by simp [Token.isLineBreak, hline]) with
    ⟨front', breaks', hclosed', hcourse⟩
  rw [hahead] at hread
  rw [← hread] at hclosed'
  refine ⟨⟨front', breaks', hclosed'⟩, ?_⟩
  intro d bound hd hbound
  rcases recovering_prolongs (by simp [Token.isLineBreak, hnewline]) hd hclosed' hcourse hbegins
    hfirst hclean' with ⟨d', hfirst', hd'⟩
  have hahead' : d'.ahead = line :: (rest ++ newline :: more) := by
    rw [hd'.ahead, hahead]
    rfl
  rcases advance_newline hahead' hline with ⟨hkind, hadvance⟩
  rcases passage_recovering hd.fits' (hd.begins hbegins) hfirst' with ⟨_, read', noted', passage⟩
  have hmoved := hd'.moved (show c'.ahead = [line] ++ rest from hahead)
  rw [← hadvance] at hmoved
  cases bound with
  | zero => exact absurd hbound (Nat.not_lt_zero _)
  | succ bound =>
      have hlength : d'.advance.ahead.length < bound := by
        have hall := congrArg List.length passage.ahead
        rw [hahead', List.length_append, List.length_cons] at hall
        rw [hadvance]
        show (rest ++ newline :: more).length < bound
        omega
      rcases h.joins _ _ hmoved hlength with ⟨d'', hfound, herrors⟩
      refine ⟨d'', ?_, herrors⟩
      rw [statementsUpTo_next (hd.begins hbegins) hfirst' hkind]
      exact map_of_ok hfound

end Composes

theorem errors_of_statementsUpTo {bound : Nat} {listed : List Statement}
    (hc : plainRecovery.Fits c) (hbound : c.ahead.length < bound)
    (hfound : statementsUpTo Level.outermost .endOfInput bound c = .ok listed c')
    (hclean : c'.errors = []) : c.errors = [] := by
  have hlists := statementsUpTo_lists (keeps_outermost plainRecovery) (spans_ofRoom _) .endOfInput
    bound hc hbound
  rw [hfound] at hlists
  rcases hlists with ⟨⟨read, noted, passage, _⟩, _⟩
  rw [passage.errors] at hclean
  exact (List.append_eq_nil_iff.mp hclean).1

theorem statementsUpTo_nil {level : Level} {bound : Nat} (hfinal : c.final.kind = .endOfInput)
    (hahead : c.ahead = []) : statementsUpTo level .endOfInput (bound + 1) c = .ok [] c := by
  have hsplit : c.ahead = [] ++ [] := hahead
  have hcomments : Parser.leadingComments c = .ok [] c := by
    rw [Parser.leadingComments, Cursor.leadingComments_breaks hsplit (by simp) (by simp),
      Cursor.skipTrivia_breaks hsplit (by simp) (by simp), ← hahead]
  have hend : atListEnd .endOfInput c = true :=
    Cursor.atListEnd_of_end (Cursor.kind_of_ahead_nil hfinal hahead)
  rw [statementsUpTo, bind_apply, hcomments]
  simp [bind_apply, look, hend, pure_apply]

theorem statementsUpTo_cases {bound : Nat} {listed : List Statement} (hc : plainRecovery.Fits c)
    (hplain : forall t, t ∈ c.ahead -> t.isComment = false ∧ t.kind ≠ .endOfInput)
    (hbegins : c.Begins .endOfInput)
    (hfound : statementsUpTo Level.outermost .endOfInput (bound + 1) c = .ok listed c') :
    (exists first, listed = [first] ∧ c'.ahead = [] ∧
      recovering .endOfInput (statementLine Level.outermost .endOfInput []) c = .ok first c') ∨
    (exists first d line rest below, listed = first :: below ∧
      recovering .endOfInput (statementLine Level.outermost .endOfInput []) c = .ok first d ∧
      d.ahead = line :: rest ∧ line.kind = .lineBreak ∧
      statementsUpTo Level.outermost .endOfInput bound { d with ahead := rest } =
        .ok below c') := by
  rw [statementsUpTo_first hbegins] at hfound
  rcases bind_eq_ok.mp hfound with ⟨first, d, hfirst, hfound⟩
  rcases bind_eq_ok.mp hfound with ⟨lineEnds, _, hlineEnds, hfound⟩
  cases hlineEnds
  rcases passage_recovering hc hbegins hfirst with ⟨hends, read, noted, passage⟩
  have hplain' : forall t, t ∈ d.ahead -> t.isComment = false ∧ t.kind ≠ .endOfInput :=
    fun t ht => hplain t (by rw [passage.ahead]; exact List.mem_append_right read ht)
  split at hfound
  · rename_i hline
    have hkind : d.kind = .lineBreak := by simpa [Cursor.isAt] using hline
    rcases Cursor.advance_of_plain (fun t ht => (hplain' t ht).1) (hc.after passage).final
      (by simp [hkind]) with ⟨rest, hrest, _⟩
    rcases bind_eq_ok.mp hfound with ⟨_, _, hnext, hfound⟩
    cases hnext
    rcases bind_eq_ok.mp hfound with ⟨below, _, hbelow, hpure⟩
    cases hpure
    rw [(advance_newline hrest hkind).2] at hbelow
    exact Or.inr ⟨first, d, d.current, rest, below, rfl, hfirst, hrest, hkind, hbelow⟩
  · rename_i hline
    cases hfound
    have hend : c'.kind = .endOfInput := by
      rcases hends with hbreak | hlist
      · exact absurd (by simp [Cursor.isAt, hbreak]) hline
      · simpa [atListEnd, Cursor.hasTokens, Cursor.isAt] using hlist
    refine Or.inl ⟨first, rfl, List.eq_nil_iff_forall_not_mem.mpr ?_, hfirst⟩
    intro t ht
    have hcomment := Cursor.isComment_of_end (fun t ht => (hplain' t ht).2) hend t ht
    rw [(hplain' t ht).1] at hcomment
    cases hcomment

theorem statementsUpTo_composes (hnewline : newline.kind = .lineBreak)
    (hlast : last.kind = .endOfInput) (hquoted : forall t, t ∈ more -> t.Quoted)
    {others : List Statement} {e : Cursor}
    (hothers : statements Level.outermost .endOfInput (Cursor.opening more last) = .ok others e)
    (bound : Nat) {listed : List Statement} (hc : plainRecovery.Fits c)
    (hplain : forall t, t ∈ c.ahead -> t.isComment = false ∧ t.kind ≠ .endOfInput)
    (hbound : c.ahead.length < bound)
    (hfound : statementsUpTo Level.outermost .endOfInput bound c = .ok listed c')
    (hclean' : c'.errors = []) : Composes newline more last others e.errors c listed := by
  induction bound generalizing c listed with
  | zero => exact absurd hbound (Nat.not_lt_zero _)
  | succ bound ih =>
      have hclean := errors_of_statementsUpTo hc hbound hfound hclean'
      -- Blank lines in front are passed over by both texts alike; they come off first.
      rcases Token.split_breaks (fun t ht => (hplain t ht).1) with
        ⟨blanks, rest, hahead, hblanks, hrest⟩
      rw [statementsUpTo_blanks hahead hblanks] at hfound
      apply Composes.blanks hahead hblanks
      have hmem : forall t, t ∈ rest -> t ∈ c.ahead := by
        intro t ht
        rw [hahead]
        exact List.mem_append_right blanks ht
      have hfits : plainRecovery.Fits { c with ahead := rest } :=
        ⟨fun t ht => hc.tokens t (hmem t ht), hc.ends⟩
      have hplain' : forall t, t ∈ rest -> t.isComment = false ∧ t.kind ≠ .endOfInput :=
        fun t ht => hplain t (hmem t ht)
      cases rest with
      | nil =>
          rw [statementsUpTo_nil hfits.final rfl] at hfound
          cases hfound
          exact Composes.nil hnewline hlast hquoted hothers rfl
      | cons token rest =>
          have hbegins : ({ c with ahead := token :: rest } : Cursor).Begins .endOfInput :=
            Cursor.begins_of_ahead rfl (hrest token rfl) (hplain' token (by simp)).2
          rcases statementsUpTo_cases hfits hplain' hbegins hfound with
            ⟨first, rfl, hend, hfirst⟩ |
              ⟨first, d, line, rest', below, rfl, hfirst, hd, hline, hbelow⟩
          · exact Composes.single hnewline hlast hquoted hothers hfits
              (fun t ht => (hplain' t ht).1) hclean hbegins hfirst hclean' hend
          · rcases passage_recovering hfits hbegins hfirst with ⟨_, read, noted, passage⟩
            have hall : token :: rest = read ++ line :: rest' := by
              rw [← hd]
              exact passage.ahead
            have hmem' : forall t, t ∈ rest' -> t ∈ token :: rest := by
              intro t ht
              rw [hall]
              exact List.mem_append_right read (List.mem_cons_of_mem line ht)
            have hfits' : plainRecovery.Fits { d with ahead := rest' } :=
              ⟨fun t ht => hfits.tokens t (hmem' t ht), (hfits.after passage).ends⟩
            have hbound' : rest'.length < bound := by
              rw [hahead, hall, List.length_append, List.length_append, List.length_cons] at hbound
              omega
            have hclean1 : d.errors = [] := by
              have hnone := errors_of_statementsUpTo hfits' hbound' hbelow hclean'
              exact hnone
            exact Composes.cons hnewline hfits (fun t ht => (hplain' t ht).1) hclean hbegins hfirst
              hclean1 hd hline (ih hfits' (fun t ht => hplain' t (hmem' t ht)) hbound' hbelow)

end Grammar

/-- Lists of statements compose.  If a text is read without a diagnostic, then the text
with another one below it has the statements of the one followed by the statements of
the other, and the diagnostics of the other. -/
theorem parseTokens_append (first second : List Token) (newline stop last : Token)
    (hplain : forall t, t ∈ first -> t.kind ≠ .comment ∧ t.kind ≠ .endOfInput)
    (hquoted : forall t, t ∈ first ++ second -> t.Quoted)
    (hnewline : newline.kind = .lineBreak) (hstop : stop.kind = .endOfInput)
    (hlast : last.kind = .endOfInput) {above : Parsed}
    (habove : parseTokens (first ++ [stop]) = .ok above) (hclean : above.errors = []) :
    exists below whole, parseTokens (second ++ [last]) = .ok below ∧
      parseTokens (first ++ newline :: second ++ [last]) = .ok whole ∧
      whole.file.statements = above.file.statements ++ below.file.statements ∧
      whole.errors = below.errors := by
  have hfirst : forall t, t ∈ first -> t.Quoted :=
    fun t ht => hquoted t (List.mem_append_left second ht)
  have hquoted' : forall t, t ∈ second -> t.Quoted :=
    fun t ht => hquoted t (List.mem_append_right first ht)
  have hfits : plainRecovery.Fits (Cursor.opening first stop) := Cursor.fits_opening hstop hfirst
  have hplain' : forall t, t ∈ first -> t.isComment = false ∧ t.kind ≠ .endOfInput :=
    fun t ht => ⟨by simp [Token.isComment, (hplain t ht).1], (hplain t ht).2⟩
  rcases Grammar.exists_statements hstop hfirst with ⟨listed, c, hlisted⟩
  rcases Grammar.exists_statements hlast hquoted' with ⟨others, e, hothers⟩
  rcases Grammar.parseTokens_of_statements hstop hlisted with ⟨parsed, hparsed, hlist, hnoted⟩
  rcases Grammar.parseTokens_of_statements hlast hothers with ⟨below, hbelow, hlist', hnoted'⟩
  have hsame : parsed = above := by
    rw [habove] at hparsed
    exact (Except.ok.inj hparsed).symm
  rw [hsame] at hlist hnoted
  have hcomposes := Grammar.statementsUpTo_composes hnewline hlast hquoted' hothers
    (first.length + 1) hfits hplain' (Nat.lt_succ_self _) hlisted (by rw [← hnoted, hclean])
  rcases hcomposes.joins (Cursor.opening (first ++ newline :: second) last)
    ((first ++ newline :: second).length + 1)
    ⟨hfits, Cursor.fits_below hnewline hlast hquoted, hplain', rfl, rfl, rfl, rfl, rfl, rfl, rfl⟩
    (Nat.lt_succ_self _) with ⟨d, hwhole, herrors⟩
  rcases Grammar.parseTokens_of_statements hlast hwhole with ⟨whole, hwhole, hlist'', hnoted''⟩
  refine ⟨below, whole, hbelow, hwhole, ?_, ?_⟩
  · rw [hlist'', hlist, hlist']
  · rw [hnoted'', hnoted', herrors]

/-- The word `or` is a name behind the colon of `a : or`, and does not reach for the next
line. -/
theorem parseTokens_append_word :
    exists above, parseTokens
        [⟨⟨"a", ⟨0, 1⟩⟩, .lowercaseName⟩, ⟨⟨":", ⟨2, 3⟩⟩, .mark .colon⟩,
          ⟨⟨"or", ⟨4, 6⟩⟩, .lowercaseName⟩, Token.endAt 6] = .ok above ∧
      exists below whole,
        parseTokens [⟨⟨"b", ⟨7, 8⟩⟩, .lowercaseName⟩, Token.endAt 8] = .ok below ∧
        parseTokens
          [⟨⟨"a", ⟨0, 1⟩⟩, .lowercaseName⟩, ⟨⟨":", ⟨2, 3⟩⟩, .mark .colon⟩,
            ⟨⟨"or", ⟨4, 6⟩⟩, .lowercaseName⟩, ⟨⟨"\n", ⟨6, 7⟩⟩, .lineBreak⟩,
            ⟨⟨"b", ⟨7, 8⟩⟩, .lowercaseName⟩, Token.endAt 8] = .ok whole ∧
        whole.file.statements = above.file.statements ++ below.file.statements ∧
        whole.errors = below.errors := by
  have hclean : (parseTokens ([⟨⟨"a", ⟨0, 1⟩⟩, .lowercaseName⟩, ⟨⟨":", ⟨2, 3⟩⟩, .mark .colon⟩,
      ⟨⟨"or", ⟨4, 6⟩⟩, .lowercaseName⟩] ++ [Token.endAt 6])).toOption.map Parsed.errors =
        some [] := by
    decide +kernel
  rcases Option.map_eq_some_iff.mp hclean with ⟨above, hsome, hnone⟩
  have habove := eq_ok_of_toOption hsome
  exact ⟨above, habove, parseTokens_append
    [⟨⟨"a", ⟨0, 1⟩⟩, .lowercaseName⟩, ⟨⟨":", ⟨2, 3⟩⟩, .mark .colon⟩,
      ⟨⟨"or", ⟨4, 6⟩⟩, .lowercaseName⟩]
    [⟨⟨"b", ⟨7, 8⟩⟩, .lowercaseName⟩] ⟨⟨"\n", ⟨6, 7⟩⟩, .lineBreak⟩ (Token.endAt 6) (Token.endAt 8)
    (by decide) (by simp [Token.Quoted]) rfl rfl rfl habove hnone⟩

end Linewise
