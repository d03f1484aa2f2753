import Linewise.Proofs.Coverage
import Linewise.Proofs.Origin.Header
import Linewise.Proofs.Origin.Shape
import Linewise.Proofs.Parallel.Prompt
import Linewise.Proofs.Progress.Rule

/-!
# Comments above definitions

A definition has the comments that stand between it and the statement before it, but for those on
the last line of that statement.  So in every list of statements the comments of a definition
are found in the text: they begin behind the opening of the list, or behind the first line break
that follows the statement before.
-/

namespace Linewise

/-!
## Comments in a text
-/

namespace Token

def commentsBetween (tokens : List Token) (floor ceiling : Nat) : List Token :=
  tokens.filter (fun t =>
    t.isComment && (decide (floor <= t.span.start) && decide (t.span.stop <= ceiling)))

/-- Where the comments of a statement may begin: behind the opening of the list, or behind the
first line break that follows the statement before. -/
def floor? (tokens : List Token) (opening : Nat) : Option Span -> Option Nat
  | none => some opening
  | some previous =>
      (tokens.find? (fun t => t.isLineBreak && decide (previous.stop <= t.span.start))).map
        (fun t => t.span.stop)

/-- Each definition among the nodes of a list of statements has as its comments, without the
dashes, all comments of the text between the place where they may begin and the definition. -/
def Attached (tokens : List Token) (opening : Nat) (nodes : List Node) : Prop :=
  forall before found after, nodes = before ++ found :: after -> found.isDefinition = true ->
    exists floor, floor? tokens opening (before.getLast?.map Node.span) = some floor ∧
      found.comments.map (fun comment => ("--" ++ comment.value, comment.span)) =
        (commentsBetween tokens floor found.span.start).map (fun t => (t.value, t.span))

variable {text : List Token} {opening floor : Nat}

theorem attached_nil : Attached text opening [] := by
  intro before found after hnodes
  simp at hnodes

theorem attached_cons {first : Node} {rest : List Node}
    (hfirst : first.isDefinition = true ->
      first.comments.map (fun comment => ("--" ++ comment.value, comment.span)) =
        (commentsBetween text opening first.span.start).map (fun t => (t.value, t.span)))
    (hrest : rest ≠ [] -> exists floor, floor? text opening (some first.span) = some floor ∧
      Attached text floor rest) : Attached text opening (first :: rest) := by
  intro before found after hnodes hdefinition
  cases before with
  | nil =>
      cases hnodes
      exact ⟨opening, rfl, hfirst hdefinition⟩
  | cons first' before =>
      rw [List.cons_append, List.cons.injEq] at hnodes
      rcases hnodes with ⟨rfl, hnodes⟩
      rcases hrest (by simp [hnodes]) with ⟨floor, hfloor, hattached⟩
      rcases hattached before found after hnodes hdefinition with ⟨floor', hfloor', hcomments⟩
      refine ⟨floor', ?_, hcomments⟩
      cases before with
      | nil =>
          cases hfloor'
          exact hfloor
      | cons second before =>
          rw [List.getLast?_cons_cons]
          cases hlast : (second :: before).getLast? with
          | none => simp at hlast
          | some last =>
              rw [hlast] at hfloor'
              exact hfloor'

theorem commentsBetween_eq {before trivia rest : List Token} {token : Token}
    (hordered : Ordered (before ++ (trivia ++ token :: rest)))
    (hbefore : forall t, t ∈ before -> t.span.stop <= floor)
    (htrivia : forall t, t ∈ trivia -> floor <= t.span.start)
    (htoken : token.isComment = false) :
    commentsBetween (before ++ (trivia ++ token :: rest)) floor token.span.start =
      trivia.filter Token.isComment := by
  have hearlier : before.filter (fun t => t.isComment && (decide (floor <= t.span.start) &&
      decide (t.span.stop <= token.span.start))) = [] := by
    apply List.filter_eq_nil_iff.mpr
    intro t ht
    have hnonempty := hordered.left.nonempty t ht
    have hstop := hbefore t ht
    have hlow : ¬ floor <= t.span.start := by omega
    simp [hlow]
  have hbetween : trivia.filter (fun t => t.isComment && (decide (floor <= t.span.start) &&
      decide (t.span.stop <= token.span.start))) = trivia.filter Token.isComment := by
    apply List.filter_congr
    intro t ht
    have hstop := hordered.right.across ht List.mem_cons_self
    simp [htrivia t ht, hstop]
  have hlater : (token :: rest).filter (fun t => t.isComment && (decide (floor <= t.span.start) &&
      decide (t.span.stop <= token.span.start))) = [] := by
    rw [List.filter_cons_of_neg (by simp [htoken])]
    apply List.filter_eq_nil_iff.mpr
    intro t ht
    have hbehind := (List.pairwise_cons.mp hordered.right.right.before).1 t ht
    have hnonempty := hordered.right.right.nonempty t (List.mem_cons_of_mem _ ht)
    have hhigh : ¬ t.span.stop <= token.span.start := by
      have hstart := hbehind.nonempty
      have hstop := hbehind.behind
      omega
    simp [hhigh]
  rw [commentsBetween, List.filter_append, List.filter_append, hearlier, hbetween, hlater,
    List.nil_append, List.append_nil]

theorem floor?_eq {before comments rest : List Token} {lineBreak : Token} {previous : Span}
    (hnonempty : forall t, t ∈ before -> t.span.start < t.span.stop)
    (hbefore : forall t, t ∈ before -> t.isLineBreak = true -> t.span.stop <= previous.stop)
    (hcomments : forall t, t ∈ comments -> t.isComment = true)
    (hline : lineBreak.isLineBreak = true) (hbehind : previous.stop <= lineBreak.span.start) :
    floor? (before ++ (comments ++ lineBreak :: rest)) opening (some previous) =
      some lineBreak.span.stop := by
  have hnone : forall t, t ∈ before ++ comments ->
      ¬ (t.isLineBreak && decide (previous.stop <= t.span.start)) = true := by
    intro t ht hfound
    simp only [Bool.and_eq_true, decide_eq_true_eq] at hfound
    rcases List.mem_append.mp ht with hearlier | hcomment
    · have hstop := hbefore t hearlier hfound.1
      have hstart := hnonempty t hearlier
      omega
    · have hkind := hcomments t hcomment
      simp only [Token.isComment, beq_iff_eq] at hkind
      simp [Token.isLineBreak, hkind] at hfound
  rw [floor?, ← List.append_assoc, List.find?_append, List.find?_eq_none.mpr hnone,
    Option.none_or, List.find?_cons_of_pos (by simp [hline, hbehind])]
  rfl

end Token

structure Token.Orderly (text : List Token) : Prop where
  ordered : Token.Ordered text
  quoted : forall t, t ∈ text -> t.Quoted
  dashed : forall t, t ∈ text -> t.isComment = true ->
    exists body, t.value.toList = '-' :: '-' :: body

theorem tokenize_orderly (source : String)
    (hshort : Text.byteLength source.toList <= Span.maxOffset) :
    exists body last, (tokenize source).1 = body ++ [last] ∧ last.kind = .endOfInput ∧
      Token.Orderly body := by
  rcases tokenize_lossless source hshort with ⟨body, last, htokens, _, _, hlast, _⟩
  have hmem : forall t, t ∈ body -> t ∈ (tokenize source).1 := by
    intro t ht
    rw [htokens]
    exact List.mem_append_left [last] ht
  have hbefore := tokenize_before hshort
  rw [htokens] at hbefore
  refine ⟨body, last, htokens, hlast, Token.Ordered.ofText hbefore, ?_, ?_⟩
  · exact fun t ht => (admits_tokenize (hmem t ht)).2
  · intro t ht hcomment
    have hshape := tokenize_shape (hmem t ht)
    rw [show t.kind = .comment by simpa [Token.isComment] using hcomment] at hshape
    rcases hshape with ⟨rest, hrest, _⟩
    exact ⟨rest, hrest⟩

/-!
## One statement
-/

namespace Grammar

open Linewise.Parser

variable {room : Nat} {comments : List Lexeme} {terminator : Kind} {c d : Cursor}
  {found : Statement}

theorem recovering_passage (hc : plainRecovery.Fits c) (hbegins : c.Begins terminator)
    (h : recovering terminator (statementLine (Level.ofRoom room) terminator comments) c =
      .ok found d) :
    exists read noted, c.Passage read noted d ∧ read ≠ [] ∧
      found.span = d.spanFrom c.current.span := by
  have hreads := statementLine_reads (keeps_recovery plainRecovery room) terminator comments
  rcases recovering_eq_ok h with hline | ⟨diagnostic, e, hline, hgiven⟩
  · have hreply := Account.ReadsIf.elim hreads hc trivial
    rw [hline] at hreply
    rcases hreply with ⟨read, noted, passage, hleast, _⟩
    have hspans := spans_ofRoom room comments c found d (statementLine_eq_ok hline).1
    exact ⟨read, noted, passage, List.ne_nil_of_length_pos hleast, hspans.span⟩
  · cases hgiven
    rcases Correspondence.passage_of_error hreads hc trivial hline with ⟨read, noted, passage⟩
    have hfinal := (hc.after passage).final
    rcases Cursor.skipStatement_passage terminator (c := e.record diagnostic) hfinal with
      ⟨skipped, hskip, _⟩
    rcases hbegins.passage_givenUp hfinal passage hskip with ⟨hwhole, hne⟩
    exact ⟨_, _, hwhole, hne, rfl⟩

end Grammar

theorem Cursor.Passage.ordered {text read : List Token} {noted : List Diagnostic} {c d : Cursor}
    (passage : c.Passage read noted d) (hordered : Token.Ordered text)
    (hinside : c.ahead <:+ text) : Token.Ordered (read ++ d.ahead) := by
  rcases hinside with ⟨before, htext⟩
  rw [← htext, passage.ahead] at hordered
  exact hordered.right

theorem Cursor.Begins.start_spanFrom {terminator : Kind} {c d : Cursor} {read : List Token}
    {noted : List Diagnostic} (h : c.Begins terminator) (passage : c.Passage read noted d)
    (hread : read ≠ []) (hordered : Token.Ordered read) :
    (d.spanFrom c.current.span).start = c.current.span.start := by
  rcases h.spans passage hread with ⟨first, more, hfirst, htrivia, _⟩
  exact (passage.extent hordered ⟨first, by simp [hfirst], htrivia⟩).1

structure Cursor.Parts (text : List Token) (floor : Nat) (c : Cursor) : Prop where
  passed : exists before, text = before ++ c.ahead ∧
    forall t, t ∈ before -> t.span.stop <= floor
  ahead : forall t, t ∈ c.ahead -> floor <= t.span.start

theorem Statement.span_node (statement : Statement) : statement.node.span = statement.span := by
  cases statement <;> rfl

namespace Cursor.Parts

variable {text : List Token} {floor : Nat} {terminator : Kind} {c : Cursor}

theorem inside (h : c.Parts text floor) : c.ahead <:+ text := by
  rcases h.passed with ⟨before, htext, _⟩
  exact ⟨before, htext.symm⟩

theorem leadingComments (h : c.Parts text floor) (htext : Token.Orderly text)
    (hbegins : c.skipTrivia.Begins terminator) :
    c.leadingComments.map (fun comment => ("--" ++ comment.value, comment.span)) =
      (Token.commentsBetween text floor c.skipTrivia.current.span.start).map
        (fun t => (t.value, t.span)) := by
  have hordered := htext.ordered
  rcases h.passed with ⟨before, hparts, hbefore⟩
  rcases hbegins.ahead with ⟨token, rest, hahead, htrivia⟩
  have hcurrent := hbegins.current_eq
  rw [hahead, List.head?_cons, Option.some.injEq] at hcurrent
  have hsplit := c.skipTrivia_passage.ahead
  rw [hahead] at hsplit
  rw [hsplit] at hparts
  have hbetween : Token.commentsBetween text floor token.span.start =
      (c.ahead.takeWhile isTrivia).filter Token.isComment := by
    rw [hparts] at hordered ⊢
    apply Token.commentsBetween_eq hordered hbefore
    · intro t ht
      exact h.ahead t ((List.takeWhile_sublist _).subset ht)
    · exact isComment_of_not_isTrivia htrivia
  rw [← hcurrent, hbetween, Cursor.leadingComments, List.map_map]
  apply List.map_congr_left
  intro t ht
  rcases List.mem_filter.mp ht with ⟨hread, hcomment⟩
  have hmem : t ∈ text := h.inside.subset ((List.takeWhile_sublist _).subset hread)
  rcases htext.dashed t hmem hcomment with ⟨body, hbody⟩
  have hvalue : "--" ++ String.ofList body = t.value := by
    apply String.toList_inj.mp
    simp [hbody]
  simp [commentLexeme, hbody, hvalue]

theorem behind {before : List Token} {token : Token} (hordered : Token.Ordered text)
    (htext : text = before ++ token :: c.ahead) : c.Parts text token.span.stop := by
  rw [htext] at hordered
  constructor
  · refine ⟨before ++ [token], by simp [htext], fun t ht => ?_⟩
    rcases List.mem_append.mp ht with hearlier | hlast
    · have hstop := hordered.across hearlier List.mem_cons_self
      have hnonempty := hordered.right.nonempty token List.mem_cons_self
      omega
    · exact Nat.le_of_eq (by rw [List.mem_singleton.mp hlast])
  · intro t ht
    exact ((List.pairwise_cons.mp hordered.right.before).1 t ht).behind

theorem advance (hordered : Token.Ordered text) (hfits : plainRecovery.Fits c)
    (hinside : c.ahead <:+ text) (hend : c.kind ≠ .endOfInput) :
    c.advance.Parts text c.current.span.stop := by
  rcases hinside with ⟨before, htext⟩
  have hahead := (advance_passage hfits.final hend).ahead
  have hsplit : text =
      (before ++ c.ahead.takeWhile Token.isComment) ++ c.current :: c.advance.ahead := by
    calc
      text = before ++ c.ahead := htext.symm
      _ = before ++ (c.ahead.takeWhile Token.isComment ++ [c.current] ++ c.advance.ahead) :=
        congrArg (before ++ ·) hahead
      _ = _ := by simp
  exact behind hordered hsplit

theorem floor?_statement {opening : Nat} {d : Cursor} {read : List Token}
    {noted : List Diagnostic} {span : Span} (hordered : Token.Ordered text)
    (hinside : c.ahead <:+ text) (hbegins : c.Begins terminator)
    (passage : c.Passage read noted d) (hread : read ≠ [])
    (hspan : span = d.spanFrom c.current.span) (hprompt : d.Prompt text)
    (hline : d.kind = .lineBreak) :
    Token.floor? text opening (some span) = some d.current.span.stop := by
  rcases significant_of_kind_ne hprompt.fits.final (by simp [hline]) with ⟨rest, hs⟩
  have hahead := d.ahead_eq_significant
  rw [hs] at hahead
  have hcurrent : d.current.isLineBreak = true := by
    have hkind : d.current.kind = .lineBreak := hline
    simp [Token.isLineBreak, hkind]
  have hbehind : span.stop <= d.current.span.start := by
    have hpassed := passage.ordered hordered hinside
    rcases (hbegins.extent passage hread hpassed.left).ends with ⟨final, hfinal, _, hstop⟩
    rw [hspan, hstop]
    exact hpassed.across hfinal (mem_ahead_of_significant hs)
  rcases hprompt.inside with ⟨before, htext⟩
  have hfirst := hprompt.first hline before htext.symm
  rw [hahead] at htext
  rw [← htext] at hordered ⊢
  apply Token.floor?_eq hordered.left.nonempty
  · intro t ht htbreak
    have hstop := hfirst t ht htbreak
    rw [hspan, Cursor.spanFrom, Span.stop_cover]
    exact Nat.le_trans hstop (Nat.le_max_right _ _)
  · exact fun t ht => List.all_eq_true.mp List.all_takeWhile t ht
  · exact hcurrent
  · exact hbehind

end Cursor.Parts

namespace Grammar

open Linewise.Parser

variable {text : List Token} {floor : Nat} {terminator : Kind} {S : List Bracket} {room : Nat}

/-!
## Lists of statements
-/

theorem statementsUpTo_attached (htext : Token.Orderly text)
    (hsurrounds : Bracket.Surrounds terminator S) (bound : Nat) {c d : Cursor}
    {found : List Statement} (hc : plainRecovery.Fits c) (hparts : c.Parts text floor)
    (h : statementsUpTo (Level.ofRoom room) terminator bound c = .ok found d) :
    Token.Attached text floor (Statement.nodes found) := by
  have hordered := htext.ordered
  induction bound generalizing c found floor with
  | zero => cases h
  | succ bound ih =>
      have hskip := c.skipTrivia_passage
      rw [statementsUpTo_eq] at h
      rcases bind_eq_ok.mp h with ⟨ended, _, hended, hstatements⟩
      cases hended
      split at hstatements
      · cases hstatements
        exact Token.attached_nil
      · rename_i hended
        have hbegins : c.skipTrivia.Begins terminator :=
          Cursor.begins_skipTrivia hc.final (by simpa using hended)
        have hfits := hc.after hskip
        have hinside : c.skipTrivia.ahead <:+ text :=
          List.IsSuffix.trans ⟨_, hskip.ahead.symm⟩ hparts.inside
        rcases bind_eq_ok.mp hstatements with ⟨first, e, hfirst, hothers⟩
        have hprompt := recovering_prompt hordered hsurrounds
          (Cursor.Prompt.aside hfits hinside (Cursor.kind_skipTrivia hc.final)) hbegins hfirst
        rcases recovering_passage hfits hbegins hfirst with ⟨read, noted, passage, hread, hspan⟩
        have hcomments : first.node.isDefinition = true ->
            first.node.comments.map (fun comment => ("--" ++ comment.value, comment.span)) =
              (Token.commentsBetween text floor first.node.span.start).map
                (fun t => (t.value, t.span)) := by
          intro hdefinition
          rcases Statement.comments_node hdefinition with ⟨header, hheader, hnode⟩
          rw [hnode, recovering_headed _ _ _ hfirst header hheader, Statement.span_node, hspan,
            hbegins.start_spanFrom passage hread (passage.ordered hordered hinside).left]
          exact hparts.leadingComments htext hbegins
        rcases bind_eq_ok.mp hothers with ⟨more, _, hmore, hrest⟩
        cases hmore
        split at hrest
        · rename_i hmore
          have hline : e.kind = .lineBreak := by simpa [Cursor.isAt] using hmore
          have hend : e.kind ≠ .endOfInput := by simp [hline]
          rcases bind_eq_ok.mp hrest with ⟨_, _, hadvance, hrest⟩
          cases hadvance
          rcases bind_eq_ok.mp hrest with ⟨rest, _, hrest, hpure⟩
          cases hpure
          apply Token.attached_cons hcomments
          intro _
          rw [Statement.span_node]
          -- The comments of the next statement are sought from behind this line break on.
          refine ⟨e.current.span.stop, ?_, ?_⟩
          · exact Cursor.Parts.floor?_statement hordered hinside hbegins passage hread hspan hprompt
              hline
          · exact ih (hprompt.fits.after (Cursor.advance_passage hprompt.fits.final hend))
              (Cursor.Parts.advance hordered hprompt.fits hprompt.inside hend) hrest
        · cases hrest
          exact Token.attached_cons hcomments (fun hne => absurd rfl hne)

end Grammar

/-!
## Source texts
-/

namespace Token

variable {tokens : List Token} {opening : Nat} {nodes : List Node}

theorem Attached.append {rest : List Token} (h : Attached tokens opening nodes)
    (hrest : forall t, t ∈ rest -> t.isComment = false) :
    Attached (tokens ++ rest) opening nodes := by
  intro before found after hnodes hdefinition
  rcases h before found after hnodes hdefinition with ⟨floor, hfloor, hcomments⟩
  have hnone : commentsBetween rest floor found.span.start = [] := by
    apply List.filter_eq_nil_iff.mpr
    intro t ht
    simp [hrest t ht]
  refine ⟨floor, ?_, ?_⟩
  · cases hlast : before.getLast?.map Node.span with
    | none =>
        rw [hlast] at hfloor
        exact hfloor
    | some previous =>
        rw [hlast, floor?] at hfloor
        rcases Option.map_eq_some_iff.mp hfloor with ⟨t, ht, hstop⟩
        rw [floor?, List.find?_append, ht, Option.some_or, Option.map_some, hstop]
  · rw [hcomments, commentsBetween, commentsBetween, List.filter_append]
    rw [commentsBetween] at hnone
    rw [hnone, List.append_nil]

theorem Attached.lineBreak {before after : List Node} {previous found : Node} {comment : Lexeme}
    (h : Attached tokens opening (before ++ previous :: found :: after))
    (hdefinition : found.isDefinition = true) (hcomment : comment ∈ found.comments) :
    exists t, t ∈ tokens ∧ t.isLineBreak = true ∧ previous.span.stop <= t.span.start ∧
      t.span.stop <= comment.span.start := by
  rcases h (before ++ [previous]) found after (by simp) hdefinition with
    ⟨floor, hfloor, hcomments⟩
  rw [List.getLast?_concat, Option.map_some, floor?] at hfloor
  rcases Option.map_eq_some_iff.mp hfloor with ⟨t, ht, rfl⟩
  have hline := List.find?_some ht
  simp only [Bool.and_eq_true, decide_eq_true_eq] at hline
  refine ⟨t, List.mem_of_find?_eq_some ht, hline.1, hline.2, ?_⟩
  have hmem := List.mem_map_of_mem (f := fun comment : Lexeme =>
    ("--" ++ comment.value, comment.span)) hcomment
  rw [hcomments] at hmem
  rcases List.mem_map.mp hmem with ⟨u, hu, hsame⟩
  have hbetween := (List.mem_filter.mp hu).2
  simp only [Bool.and_eq_true, decide_eq_true_eq] at hbetween
  rw [← (Prod.mk.inj hsame).2]
  exact hbetween.2.1

end Token

def Tracing.ofComments (text : List Token) : Tracing where
  text := text
  Leaf := fun _ _ => True
  Block := fun span nodes => exists brace, brace ∈ text ∧ brace.kind = .mark .openCurly ∧
    brace.span.start = span.start ∧ Token.Attached text brace.span.stop nodes
  leaf := fun _ _ => trivial

theorem Tracing.admits_ofComments {text : List Token} (h : Token.Orderly text) (room : Nat) :
    (Tracing.ofComments text).Admits (Level.ofRoom room) := by
  intro before brace c d found htext hfinal hopening hfound hclosing
  have htext : text = before ++ brace :: c.ahead := htext
  have hmem : brace ∈ text := by simp [htext]
  have hinside : c.ahead <:+ text := ⟨before ++ [brace], by simp [htext]⟩
  have hparts : c.Parts text brace.span.stop := Cursor.Parts.behind h.ordered htext
  refine ⟨fun _ => ⟨brace, hmem, hopening, ?_, ?_⟩, fun _ _ => trivial⟩
  · -- The closing brace is one of the tokens behind the opening one.
    have hend : d.kind ≠ .endOfInput := by simp [hclosing]
    have hway := Grammar.statements_proceeds (@Grammar.proceeds_idle c.ahead room)
      (.mark .closeCurly) c ⟨List.suffix_refl _, hfinal⟩
    rw [hfound] at hway
    rcases hway.1 with ⟨read, noted, passage, _⟩
    rcases Cursor.significant_of_kind_ne (passage.final ▸ hfinal) hend with ⟨rest, hs⟩
    have hahead : d.current ∈ c.ahead := by
      rw [passage.ahead]
      exact List.mem_append_right read (Cursor.mem_ahead_of_significant hs)
    have hbehind := hparts.ahead d.current hahead
    have hnonempty := h.ordered.nonempty brace hmem
    have hprevious : d.advance.previous = d.current.span := by
      have hkind : d.current.kind = .mark .closeCurly := hclosing
      rw [Cursor.advance_eq hs hend]
      simp [Cursor.spanAfter, Token.isLineBreak, hkind]
    rw [Cursor.spanFrom, Span.start_cover, hprevious]
    omega
  · have hc : plainRecovery.Fits c := ⟨fun t ht => h.quoted t (hinside.subset ht), hfinal⟩
    exact Grammar.statementsUpTo_attached h (Or.inl ⟨rfl, [], rfl⟩) (c.ahead.length + 1) hc hparts
      hfound

/-- In every list of statements of a source text the comments of a definition are those of the
text between the place where they may begin and the definition: behind the opening of the list
for the first statement, and for the others behind the line that the statement before ends
on. -/
theorem parse_comments (source : String) (hshort : Text.byteLength source.toList < 4294967296) :
    exists parsed, parse source = .ok parsed ∧
      Token.Attached (tokenize source).1 0 parsed.file.node.children ∧
      (forall span nodes, Node.branch "block_expression" span nodes ∈ parsed.file.node.subtrees ->
        exists brace, brace ∈ (tokenize source).1 ∧ brace.kind = .mark .openCurly ∧
          brace.span.start = span.start ∧
          Token.Attached (tokenize source).1 brace.span.stop nodes) ∧
      forall before previous found after comment,
        (parsed.file.node.children = before ++ previous :: found :: after ∨
          exists span, Node.branch "block_expression" span
            (before ++ previous :: found :: after) ∈ parsed.file.node.subtrees) ->
        found.isDefinition = true -> comment ∈ found.comments ->
          exists t, t ∈ (tokenize source).1 ∧ t.isLineBreak = true ∧
            previous.span.stop <= t.span.start ∧ t.span.stop <= comment.span.start := by
  rcases tokenize_orderly source (Nat.le_of_lt_succ hshort) with ⟨body, last, htokens, hlast, hbody⟩
  have hahead : (Cursor.ofTokens (tokenize source).1).ahead = body := by
    rw [htokens, Cursor.ahead_ofTokens hlast]
  have hcomments : forall {opening : Nat} {nodes : List Node}, Token.Attached body opening nodes ->
      Token.Attached (tokenize source).1 opening nodes := by
    intro opening nodes hattached
    rw [htokens]
    apply hattached.append
    intro t ht
    rw [List.mem_singleton.mp ht]
    simp [Token.isComment, hlast]
  rcases Grammar.exists_traced (T := Tracing.ofComments body) hahead.symm
    (Tracing.admits_ofComments hbody) with ⟨parsed, d, hparsed, hfound, htraced⟩
  have hfile : Token.Attached (tokenize source).1 0 parsed.file.node.children := by
    apply hcomments
    have hc : plainRecovery.Fits (Cursor.ofTokens (tokenize source).1) :=
      ⟨fun t ht => hbody.quoted t (hahead ▸ ht), Cursor.final_ofTokens _⟩
    exact Grammar.statementsUpTo_attached hbody (Or.inr ⟨rfl, rfl⟩) _ hc
      ⟨⟨[], hahead.symm, by simp⟩, fun _ _ => Nat.zero_le _⟩ hfound
  have hblock : forall span nodes,
      Node.branch "block_expression" span nodes ∈ parsed.file.node.subtrees ->
      exists brace, brace ∈ (tokenize source).1 ∧ brace.kind = .mark .openCurly ∧
        brace.span.start = span.start ∧
        Token.Attached (tokenize source).1 brace.span.stop nodes := by
    intro span nodes hnodes
    rcases htraced _ hnodes rfl with ⟨brace, hbrace, hopening, hstart, hattached⟩
    have htoken : brace ∈ (tokenize source).1 := by
      rw [htokens]
      exact List.mem_append_left [last] hbrace
    exact ⟨brace, htoken, hopening, hstart, hcomments hattached⟩
  refine ⟨parsed, hparsed, hfile, hblock, ?_⟩
  rintro before previous found after comment (hnodes | ⟨span, hnodes⟩) hdefinition hcomment
  · rw [hnodes] at hfile
    exact hfile.lineBreak hdefinition hcomment
  · rcases hblock span _ hnodes with ⟨brace, _, _, _, hattached⟩
    exact hattached.lineBreak hdefinition hcomment

/-- Comments above definitions, behind a definition, behind a statement that is given up, and
behind the brace that opens a block. -/
def commentedSource : String :=
  "--a\nA : type --b\n) --c\n--d\nn :: A\n\x7b --e\nx :: A \x7d"

/-- The comments that stand behind statements are attached to none. -/
theorem parse_comments_commentedSource :
    exists parsed, parse commentedSource = .ok parsed ∧
      Token.Attached (tokenize commentedSource).1 0 parsed.file.node.children ∧
      parsed.file.node.children.map (fun node => (node.tag, node.comments)) =
        [("type_definition_statement", [⟨"a", ⟨0, 3⟩⟩]), ("ERROR", []),
          ("constant_definition_statement", [⟨"d", ⟨23, 26⟩⟩]), ("expression_statement", [])] ∧
      (parsed.file.node.subtrees.filter (fun node => node.tag == "block_expression")).map
        (fun node => node.children.map Node.comments) = [[[⟨"e", ⟨36, 39⟩⟩]]] := by
  have hlength : Text.byteLength commentedSource.toList = 48 := by decide +kernel
  rcases parse_comments commentedSource (by rw [hlength]; decide) with ⟨parsed, hparsed, hfile, _⟩
  have hnodes : (parse commentedSource).toOption.map (fun parsed => decide (
      parsed.file.node.children.map (fun node => (node.tag, node.comments)) =
        [("type_definition_statement", [⟨"a", ⟨0, 3⟩⟩]), ("ERROR", []),
          ("constant_definition_statement", [⟨"d", ⟨23, 26⟩⟩]), ("expression_statement", [])] ∧
      (parsed.file.node.subtrees.filter (fun node => node.tag == "block_expression")).map
        (fun node => node.children.map Node.comments) = [[[⟨"e", ⟨36, 39⟩⟩]]])) = some true := by
    decide +kernel
  rw [hparsed] at hnodes
  rcases of_decide_eq_true (Option.some.inj hnodes) with ⟨hstatements, hblocks⟩
  exact ⟨parsed, hparsed, hfile, hstatements, hblocks⟩

end Linewise
