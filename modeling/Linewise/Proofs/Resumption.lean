import Linewise.Proofs.Extent
import Linewise.Proofs.Merging
import Linewise.Proofs.Skipping

/-!
# Where reading resumes

Every statement of a tree takes a stretch of the text.  The brackets in the
stretch of a statement that was read are matched, provided that this holds for
the error statements in it.  The brackets in the stretch of an error statement
are matched exactly if the brackets that were open at the token where it failed
make no difference for where reading resumed.
-/

namespace Linewise

/-- The part of a text that a statement takes: what was read for it, and what was
skipped after it failed.  `rest` is what follows, to the end of the text. -/
structure Stretch where
  found : Statement
  terminator : Kind
  read : List Token
  skipped : List Token
  rest : List Token

namespace Stretch

def tokens (stretch : Stretch) : List Token := stretch.read ++ stretch.skipped

def failing? (stretch : Stretch) : Option Token :=
  ((stretch.skipped ++ stretch.rest).dropWhile Token.isComment).head?

/-- The stretch lies in the text, the statement has its span, and if the statement
failed, the place was noted and brackets were counted from there on. -/
structure Lies (text : List Token) (noted : List Diagnostic) (stretch : Stretch) : Prop where
  inText : (stretch.tokens ++ stretch.rest).IsSuffix text
  spans : exists first more, stretch.tokens = first :: more ∧ Cursor.isTrivia first = false ∧
    stretch.found.span = first.span.cover (Cursor.spanBehind first.span more)
  blamed : stretch.found.isError = true -> exists failing diagnostic,
    stretch.failing? = some failing ∧ diagnostic ∈ noted ∧ diagnostic.span = failing.span
  skips : stretch.found.isError = true ->
    Cursor.Skips stretch.terminator 0 stretch.skipped stretch.rest

/-- Had the count started with the brackets that were open where the statement failed,
it would have stopped at the same place. -/
def Sound (stretch : Stretch) : Prop :=
  exists stack, Bracket.unwind [] (stretch.read.map Token.kind) = some stack ∧
    Cursor.Skips stretch.terminator stack.length stretch.skipped stretch.rest

def Matched (stretch : Stretch) : Prop := Bracket.Matched (stretch.tokens.map Token.kind)

theorem Lies.mono {text text' : List Token} {noted noted' : List Diagnostic}
    {stretch : Stretch} (h : stretch.Lies text noted) (htext : text.IsSuffix text')
    (hnoted : forall diagnostic, diagnostic ∈ noted -> diagnostic ∈ noted') :
    stretch.Lies text' noted' where
  inText := h.inText.trans htext
  spans := h.spans
  blamed := by
    intro herror
    rcases h.blamed herror with ⟨failing, diagnostic, hfailing, hmem, hspan⟩
    exact ⟨failing, diagnostic, hfailing, hnoted diagnostic hmem, hspan⟩
  skips := h.skips

theorem Matched.sound {text : List Token} {noted : List Diagnostic} {stretch : Stretch}
    (h : stretch.Matched) (hlies : stretch.Lies text noted)
    (herror : stretch.found.isError = true) : stretch.Sound := by
  unfold Matched Bracket.Matched tokens at h
  rw [List.map_append, Bracket.unwind_append] at h
  rcases Option.bind_eq_some_iff.mp h with ⟨stack, hread, hskipped⟩
  exact ⟨stack, hread, Bracket.skips_of_unwind (Nat.zero_le _) hskipped (hlies.skips herror)⟩

end Stretch

/-!
## The account of the brackets
-/

/-- The stretches of the statements that a script announces.  In a text whose brackets
are matched, and between the brackets `outer`, the tokens have the brackets of the
script if the error statements were given up soundly. -/
structure Nests (last : Token) (outer : List Bracket -> Prop) (read rest : List Token)
    (noted : List Diagnostic) (script : List Symbol) (stretches : List Stretch) : Prop where
  found : stretches.map Stretch.found = script.filterMap Symbol.statement?
  lies : forall stretch, stretch ∈ stretches ->
    stretch.Lies (read ++ (rest ++ [last])) noted
  matched : forall stack, outer stack ->
    Bracket.unwind stack ((read ++ rest).map Token.kind) = some [] ->
    (forall stretch, stretch ∈ stretches -> stretch.found.isError = true -> stretch.Sound) ->
    (forall below, Bracket.unwind below (read.map Token.kind) =
      Bracket.unwind below (Symbol.kinds script)) ∧
    (forall stretch, stretch ∈ stretches -> stretch.Matched)

namespace Nests

variable {last : Token} {outer outer' : List Bracket -> Prop} {read read' rest : List Token}
  {noted noted' : List Diagnostic} {script script' : List Symbol}
  {stretches stretches' : List Stretch}

theorem bare (hscript : script.filterMap Symbol.statement? = [])
    (h : forall below, Bracket.unwind below (read.map Token.kind) =
      Bracket.unwind below (Symbol.kinds script)) :
    Nests last outer read rest [] script [] where
  found := hscript.symm
  lies := by simp
  matched := fun _ _ _ _ => ⟨h, by simp⟩

theorem append (first : Nests last outer read (read' ++ rest) noted script stretches)
    (second : Nests last outer' read' rest noted' script' stretches')
    (houter : forall stack stack', outer stack ->
      Bracket.unwind stack (Symbol.kinds script) = some stack' -> outer' stack') :
    Nests last outer (read ++ read') rest (noted ++ noted') (script ++ script')
      (stretches ++ stretches') where
  found := by rw [List.map_append, first.found, second.found, List.filterMap_append]
  lies := by
    intro stretch hstretch
    rcases List.mem_append.mp hstretch with hfirst | hsecond
    · apply (first.lies stretch hfirst).mono
      · exact ⟨[], by simp⟩
      · intro diagnostic hmem
        exact List.mem_append_left noted' hmem
    · apply (second.lies stretch hsecond).mono
      · rw [List.append_assoc]
        exact List.suffix_append read _
      · intro diagnostic hmem
        exact List.mem_append_right noted hmem
  matched := by
    intro stack hstack htext hsound
    rw [List.append_assoc] at htext
    rcases first.matched stack hstack htext
      (fun stretch hmem => hsound stretch (List.mem_append_left _ hmem)) with ⟨hread, hmatched⟩
    rw [List.map_append, Bracket.unwind_append] at htext
    rcases Option.bind_eq_some_iff.mp htext with ⟨stack', hstack', hrest⟩
    rw [hread] at hstack'
    rcases second.matched stack' (houter stack stack' hstack hstack') hrest
      (fun stretch hmem => hsound stretch (List.mem_append_right _ hmem)) with
      ⟨hread', hmatched'⟩
    constructor
    · intro below
      rw [List.map_append, Bracket.unwind_append, Symbol.kinds_append, Bracket.unwind_append,
        hread]
      simp only [hread']
    · intro stretch hstretch
      rcases List.mem_append.mp hstretch with hfirst | hsecond
      · exact hmatched stretch hfirst
      · exact hmatched' stretch hsecond

theorem restate (h : Nests last outer read rest noted script stretches)
    (hfound : script.filterMap Symbol.statement? = script'.filterMap Symbol.statement?)
    (hkinds : forall below, Bracket.unwind below (Symbol.kinds script) =
      Bracket.unwind below (Symbol.kinds script')) :
    Nests last outer read rest noted script' stretches where
  found := h.found.trans hfound
  lies := h.lies
  matched := by
    intro stack hstack htext hsound
    rcases h.matched stack hstack htext hsound with ⟨hread, hmatched⟩
    exact ⟨fun below => (hread below).trans (hkinds below), hmatched⟩

end Nests

namespace Cursor

theorem Begins.current_eq {terminator : Kind} {c : Cursor} (h : c.Begins terminator) :
    c.ahead.head? = some c.current := by
  rcases h.ahead with ⟨first, rest, hahead, htrivia⟩
  have hcomment := isComment_of_not_isTrivia htrivia
  simp [current, significant, hahead, hcomment]

/-- What is read from the first token of a statement on has the span from there. -/
theorem Begins.spans {terminator : Kind} {c d : Cursor} {read : List Token}
    {noted : List Diagnostic} (h : c.Begins terminator) (passage : c.Passage read noted d)
    (hread : read ≠ []) :
    exists first more, read = first :: more ∧ isTrivia first = false ∧
      d.spanFrom c.current.span = first.span.cover (spanBehind first.span more) := by
  rcases h.ahead with ⟨first, rest, hahead, htrivia⟩
  have hcurrent := h.current_eq
  have hprevious := passage.previous
  have hsame := passage.ahead
  cases read with
  | nil => exact absurd rfl hread
  | cons first' more =>
      rw [hahead, List.cons_append, List.cons.injEq] at hsame
      rw [← hsame.1] at hprevious ⊢
      rw [hahead, List.head?_cons, Option.some.injEq] at hcurrent
      exists first, more
      constructor
      · rfl
      constructor
      · exact htrivia
      · rw [spanBehind, if_neg (by simp [htrivia])] at hprevious
        rw [spanFrom, ← hcurrent, hprevious]

theorem Begins.not_skips_nil {terminator : Kind} {c : Cursor} {rest : List Token}
    (h : c.Begins terminator) : ¬ Skips terminator 0 [] (c.ahead ++ rest) := by
  intro hskips
  rcases h.ahead with ⟨first, more, hahead, htrivia⟩
  have hcurrent := h.current_eq
  rw [hahead, List.head?_cons, Option.some.injEq] at hcurrent
  have hcomment := isComment_of_not_isTrivia htrivia
  have hends := hskips first (by simp [hahead, hcomment])
  rw [hcurrent] at hends htrivia
  rcases endsLine_of_endsStatement hends with hbreak | hend
  · have hkind : c.current.kind = .lineBreak := hbreak
    simp [isTrivia, Token.isLineBreak, hkind] at htrivia
  · rw [h.inside] at hend
    cases hend

theorem Begins.passage_givenUp {terminator : Kind} {c d : Cursor} {read skipped : List Token}
    {noted : List Diagnostic} {diagnostic : Diagnostic} (h : c.Begins terminator)
    (hfinal : d.final.kind = .endOfInput) (passage : c.Passage read noted d)
    (hskip : (d.record diagnostic).Passage skipped []
      ((d.record diagnostic).skipStatement terminator)) :
    c.Passage (read ++ skipped) (noted ++ [diagnostic])
        ((d.record diagnostic).skipStatement terminator) ∧ read ++ skipped ≠ [] := by
  have hrecord : Cursor.Passage d [] [diagnostic] (d.record diagnostic) :=
    ⟨rfl, rfl, rfl, rfl, rfl, by simp⟩
  have hwhole := passage.trans (hrecord.trans hskip)
  refine ⟨by simpa using hwhole, ?_⟩
  intro hnil
  rcases List.append_eq_nil_iff.mp hnil with ⟨hread, hskipped⟩
  have hskips : Skips terminator 0 skipped
      (((d.record diagnostic).skipStatement terminator).ahead ++ [d.final]) :=
    skips_skipStatement (show (d.record diagnostic).final.kind = _ from hfinal) hskip
  have hsame := hwhole.ahead
  rw [hread, hskipped, List.nil_append, List.nil_append, List.nil_append] at hsame
  rw [hskipped, ← hsame] at hskips
  exact h.not_skips_nil hskips

theorem head?_current {c : Cursor} (hfinal : c.final.kind = .endOfInput) :
    ((c.ahead ++ [c.final]).dropWhile Token.isComment).head? = some c.current := by
  have hcomment : c.final.isComment = false := by simp [Token.isComment, hfinal]
  rw [List.dropWhile_append]
  cases hs : c.significant with
  | nil =>
      rw [current_eq_final hs]
      rw [significant] at hs
      simp [hs, hcomment]
  | cons token rest =>
      rw [current_eq hs]
      rw [significant] at hs
      simp [hs]

end Cursor

namespace Nests

variable {last : Token} {terminator : Kind} {read skipped : List Token}
  {noted : List Diagnostic} {c d e : Cursor}

theorem told {found : Statement} {stretches : List Stretch} (hbegins : c.Begins terminator)
    (passage : c.Passage read noted d) (hread : 1 <= read.length)
    (hspans : Grammar.Spans c.current.span d found)
    (h : Nests last (fun _ => True) read d.ahead noted found.contents stretches) :
    Nests last (Bracket.Surrounds terminator) read d.ahead noted found.script
      ({ found := found, terminator := terminator, read := read, skipped := []
         rest := d.ahead ++ [last] } :: stretches) where
  found := by
    rw [List.map_cons, h.found]
    rfl
  lies := by
    intro stretch hstretch
    rcases List.mem_cons.mp hstretch with hself | hinner
    · rw [hself]
      exact
        { inText := by
            simp only [Stretch.tokens, List.append_nil]
            exact List.suffix_refl _
          spans := by
            have hne : read ≠ [] := by
              intro hnil
              simp [hnil] at hread
            simp only [Stretch.tokens, List.append_nil, hspans.span]
            exact hbegins.spans passage hne
          blamed := by
            intro herror
            rw [hspans.notError] at herror
            cases herror
          skips := by
            intro herror
            rw [hspans.notError] at herror
            cases herror }
    · exact h.lies stretch hinner
  matched := by
    intro stack _ htext hsound
    rcases h.matched stack trivial htext
      (fun stretch hmem => hsound stretch (List.mem_cons_of_mem _ hmem)) with ⟨hall, hmatched⟩
    have hbalanced := found.contents_composed Symbol.balanced_composed
    constructor
    · exact hall
    · intro stretch hstretch
      rcases List.mem_cons.mp hstretch with hself | hinner
      · rw [hself]
        simp only [Stretch.Matched, Stretch.tokens, List.append_nil]
        exact (hall []).trans hbalanced
      · exact hmatched stretch hinner

theorem failed {diagnostic : Diagnostic} (hbegins : c.Begins terminator)
    (passage : c.Passage read noted d) (hfinal : d.final = last)
    (hlast : last.kind = .endOfInput)
    (hinside : forall t, t ∈ d.ahead -> t.kind ≠ .endOfInput)
    (hspan : diagnostic.span = d.current.span)
    (he : e = (d.record diagnostic).skipStatement terminator)
    (hskip : (d.record diagnostic).Passage skipped [] e) :
    Nests last (Bracket.Surrounds terminator) (read ++ skipped) e.ahead (noted ++ [diagnostic])
      (Statement.error (e.spanFrom c.current.span)).script
      [{ found := .error (e.spanFrom c.current.span), terminator := terminator, read := read
         skipped := skipped, rest := e.ahead ++ [last] }] := by
  have hahead : d.ahead = skipped ++ e.ahead := hskip.ahead
  have hend : d.final.kind = .endOfInput := by rw [hfinal, hlast]
  have hskips : Cursor.Skips terminator 0 skipped (e.ahead ++ [last]) := by
    rw [he] at hskip ⊢
    rw [← hfinal]
    exact Cursor.skips_skipStatement hend hskip
  have hgivenUp : c.Passage (read ++ skipped) (noted ++ [diagnostic]) e ∧
      read ++ skipped ≠ [] := by
    rw [he] at hskip ⊢
    exact hbegins.passage_givenUp hend passage hskip
  rcases hgivenUp with ⟨hwhole, hne⟩
  exact
    { found := by
        rw [Statement.script, Statement.contents]
        rfl
      lies := by
        intro stretch hstretch
        rw [List.mem_singleton.mp hstretch]
        exact
          { inText := by
              simp only [Stretch.tokens]
              exact List.suffix_refl _
            spans := hbegins.spans hwhole hne
            blamed := by
              intro _
              refine ⟨d.current, diagnostic, ?_, by simp, hspan⟩
              simp only [Stretch.failing?]
              rw [← List.append_assoc, ← hahead, ← hfinal]
              apply Cursor.head?_current
              rw [hfinal, hlast]
            skips := fun _ => hskips }
      matched := by
        intro stack hstack htext hsound
        -- What was read leaves `inner` open, and the skipping closes just these.
        rcases hsound _ (List.mem_singleton.mpr rfl) rfl with ⟨inner, hread, hcount⟩
        rw [List.append_assoc, List.map_append, Bracket.unwind_append,
          ← List.nil_append stack, Bracket.unwind_below stack hread] at htext
        have hrest : forall t, t ∈ e.ahead -> t.kind ≠ .endOfInput := by
          intro t ht
          apply hinside t
          rw [hahead]
          exact List.mem_append_right skipped ht
        have hskipped := Bracket.unwind_of_skips hstack hrest htext hcount
        have hmatched : Bracket.Matched ((read ++ skipped).map Token.kind) := by
          rw [Bracket.Matched, List.map_append, Bracket.unwind_append]
          rw [hread]
          exact hskipped
        constructor
        · intro below
          rw [hmatched.unwind, Statement.script, Statement.contents]
          rfl
        · intro stretch hstretch
          rw [List.mem_singleton.mp hstretch]
          exact hmatched }

end Nests

theorem Nests.unlist {last : Token} {outer : List Bracket -> Prop} {read rest : List Token}
    {noted : List Diagnostic} {before after : List Symbol} {begun : Statement}
    {stretches : List Stretch}
    (h : Nests last outer read rest noted (before ++ .statement begun :: after) stretches)
    (herror : begun.isError = false) :
    exists others, Nests last outer read rest noted (before ++ after) others := by
  have hfound := h.found
  rw [List.filterMap_append] at hfound
  rcases List.map_eq_append_iff.mp hfound with ⟨front, back, hstretches, hfront, hback⟩
  rcases List.map_eq_cons_iff.mp hback with ⟨own, others, hback', hown, hothers⟩
  have hsub : forall stretch, stretch ∈ front ++ others -> stretch ∈ stretches := by
    intro stretch hmem
    rw [hstretches, hback']
    rcases List.mem_append.mp hmem with hmem | hmem
    · exact List.mem_append_left _ hmem
    · exact List.mem_append_right _ (List.mem_cons_of_mem _ hmem)
  refine ⟨front ++ others, ?_, fun stretch hmem => h.lies stretch (hsub stretch hmem), ?_⟩
  · rw [List.map_append, hfront, hothers, List.filterMap_append]
  · intro stack hstack htext hsound
    have hall : forall stretch, stretch ∈ stretches -> stretch.found.isError = true ->
        stretch.Sound := by
      intro stretch hmem hfailed
      rw [hstretches, hback'] at hmem
      rcases List.mem_append.mp hmem with hmem | hmem
      · exact hsound stretch (List.mem_append_left _ hmem) hfailed
      · rcases List.mem_cons.mp hmem with hself | hmem
        · rw [hself, hown, herror] at hfailed
          cases hfailed
        · exact hsound stretch (List.mem_append_right _ hmem) hfailed
    rcases h.matched stack hstack htext hall with ⟨hread, hmatched⟩
    constructor
    · intro below
      rw [hread below, Symbol.kinds_append, Symbol.kinds_append, Symbol.kinds_statement]
    · intro stretch hmem
      exact hmatched stretch (hsub stretch hmem)

end Linewise
