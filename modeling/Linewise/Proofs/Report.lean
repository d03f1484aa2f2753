import Linewise.Proofs.Blame
import Mathlib.Data.List.Nodup

/-!
# What is said about a text

A token is blamed at most once, since reading goes on behind it; only the end of
the input stays where it is.  There a first diagnostic may be followed by those of
the braces that are still open, which are all the same.  So the diagnostics of a
text, put in order, never repeat one another.
-/

namespace Linewise

/-!
## Places of diagnostics
-/

def InOrder (read : List Token) (noted : List Diagnostic) : Prop :=
  (noted.map Diagnostic.span).Sublist (read.map (fun token => token.span))

namespace InOrder

variable {read read' : List Token} {noted noted' : List Diagnostic}

theorem nothing (read : List Token) : InOrder read [] := List.nil_sublist _

theorem append (first : InOrder read noted) (second : InOrder read' noted') :
    InOrder (read ++ read') (noted ++ noted') := by
  unfold InOrder
  rw [List.map_append, List.map_append]
  exact List.Sublist.append first second

theorem mono (h : InOrder read noted) (hread : read.Sublist read') : InOrder read' noted :=
  h.trans (hread.map _)

theorem snoc {token : Token} {diagnostic : Diagnostic} (h : InOrder read noted)
    (hspan : diagnostic.span = token.span) (hmem : token ∈ read') :
    InOrder (read ++ read') (noted ++ [diagnostic]) := by
  apply h.append
  unfold InOrder
  rw [List.map_singleton, List.singleton_sublist, hspan]
  exact List.mem_map_of_mem hmem

end InOrder

def Diagnostic.unclosed (last : Token) : Diagnostic :=
  { cause := .endOfInput (Kind.mark .closeCurly).describe, span := last.span }

theorem Cursor.unexpected_closeCurly {d : Cursor} (h : d.kind = .endOfInput) :
    d.unexpected (Kind.mark .closeCurly).describe = Diagnostic.unclosed d.current := by
  have hkind : d.current.kind = .endOfInput := h
  simp [Cursor.unexpected, Cursor.unexpectedCause, Diagnostic.unclosed, hkind]

def AtEnd (last : Token) : List Diagnostic -> Prop
  | [] => True
  | first :: rest =>
      first.span = last.span ∧ forall g, g ∈ rest -> g = Diagnostic.unclosed last

namespace AtEnd

variable {last : Token} {late : List Diagnostic}

theorem snoc {diagnostic : Diagnostic} (h : AtEnd last late)
    (hspan : diagnostic.span = last.span)
    (hopen : late ≠ [] -> diagnostic = Diagnostic.unclosed last) :
    AtEnd last (late ++ [diagnostic]) := by
  cases late with
  | nil => exact ⟨hspan, by simp⟩
  | cons first rest =>
      refine ⟨h.1, ?_⟩
      intro g hg
      rcases List.mem_append.mp hg with hrest | hself
      · exact h.2 g hrest
      · rw [List.mem_singleton.mp hself]
        exact hopen (by simp)

theorem span {g : Diagnostic} (h : AtEnd last late) (hg : g ∈ late) : g.span = last.span := by
  cases late with
  | nil => cases hg
  | cons first rest =>
      rcases List.mem_cons.mp hg with hself | hrest
      · rw [hself]
        exact h.1
      · rw [h.2 g hrest]
        rfl

theorem uniform (h : AtEnd last late) : Diagnostic.Uniform late := by
  intro first rest hlate a b ha hb
  rw [hlate] at h
  rw [h.2 a ha, h.2 b hb]

end AtEnd

/-!
## The account of the report
-/

/-- What is noted in front of a failure at `token`.  If something was noted at the end
of the input already, the failure is that of an open brace. -/
def FailsLast (read : List Token) (token : Token) (noted : List Diagnostic)
    (diagnostic : Diagnostic) : Prop :=
  exists inner late, noted = inner ++ late ∧ InOrder read inner ∧ AtEnd token late ∧
    (late ≠ [] -> token.kind = .endOfInput ∧ diagnostic = Diagnostic.unclosed token)

inductive Reports (read : List Token) (token : Token) : List Diagnostic -> Prop where
  | inside {noted : List Diagnostic} (hkind : token.kind ≠ .endOfInput)
      (h : InOrder (read ++ [token]) noted) : Reports read token noted
  | atEnd {inner late : List Diagnostic} (hkind : token.kind = .endOfInput)
      (h : InOrder read inner) (hlate : AtEnd token late) : Reports read token (inner ++ late)

namespace Reports

variable {read read' : List Token} {token : Token} {noted : List Diagnostic}

theorem ofRead (h : InOrder read noted) : Reports read token noted := by
  by_cases hkind : token.kind = .endOfInput
  · rw [← List.append_nil noted]
    exact .atEnd hkind h trivial
  · exact .inside hkind (h.mono (List.sublist_append_left read [token]))

theorem behind {earlier : List Diagnostic} (hearlier : InOrder read' earlier)
    (h : Reports read token noted) : Reports (read' ++ read) token (earlier ++ noted) := by
  cases h with
  | inside hkind h =>
      apply Reports.inside hkind
      rw [List.append_assoc]
      exact hearlier.append h
  | atEnd hkind h hlate =>
      rw [← List.append_assoc]
      exact .atEnd hkind (hearlier.append h) hlate

theorem inOrder (h : Reports read token noted) (hkind : token.kind ≠ .endOfInput) :
    InOrder (read ++ [token]) noted := by
  cases h with
  | inside _ h => exact h
  | atEnd hend => exact absurd hend hkind

theorem failed {skipped : List Token} {diagnostic : Diagnostic} {d e : Cursor}
    (hfails : FailsLast read d.current noted diagnostic)
    (hspan : diagnostic.span = d.current.span)
    (hskip : (d.record diagnostic).Passage skipped [] e)
    (hcurrent : d.current ∈ skipped ∨ skipped = []) :
    Reports (read ++ skipped) e.current (noted ++ [diagnostic]) := by
  rcases hfails with ⟨inner, late, hnoted, hinner, hlate, hopen⟩
  by_cases hkind : d.current.kind = .endOfInput
  · -- the end of the input is not skipped, so it is still current
    have hnone : skipped = [] := by
      rcases hcurrent with hmem | hnone
      · exact absurd hkind (hskip.inside _ hmem)
      · exact hnone
    rw [hnone] at hskip
    have hsame : e.current = d.current := hskip.current_eq
    rw [hnone, List.append_nil, hnoted, List.append_assoc, hsame]
    apply Reports.atEnd hkind hinner
    exact hlate.snoc hspan (fun hne => (hopen hne).2)
  · have hnone : late = [] := by
      apply Classical.byContradiction
      intro hne
      exact hkind (hopen hne).1
    rw [hnone, List.append_nil] at hnoted
    rw [hnoted]
    rcases hcurrent with hmem | hnone
    · exact ofRead (hinner.snoc hspan hmem)
    · rw [hnone] at hskip
      have hsame : e.current = d.current := hskip.current_eq
      rw [hnone, List.append_nil, hsame]
      exact .inside hkind (hinner.snoc hspan List.mem_cons_self)

end Reports

def reportRecovery : Recovery where
  Admits := fun token => token.Quoted
  Ends := fun token => token.kind = .endOfInput
  Holds := fun read _ noted _ => InOrder read noted
  Fails := FailsLast
  quoted := fun h => h
  ends := fun h => h
  nil := fun _ => InOrder.nothing _
  append := InOrder.append
  silent := fun _ _ => InOrder.nothing _
  word := fun _ _ _ => InOrder.nothing _
  group := fun _ h => h
  stops := fun _ _ => ⟨[], [], rfl, InOrder.nothing _, trivial, fun hne => absurd rfl hne⟩
  behind := by
    rintro read read' rest noted noted' script token diagnostic hread
      ⟨inner, late, hnoted, hinner, hlate⟩
    exact ⟨noted ++ inner, late, by rw [hnoted, List.append_assoc], hread.append hinner, hlate⟩
  Lists := fun _ read d noted _ => Reports read d.current noted
  none := Reports.ofRead (InOrder.nothing _)
  trivia := fun _ h => h.behind (InOrder.nothing _)
  told := fun _ _ _ _ h => Reports.ofRead h
  failed := fun _ _ _ hspan hfails _ hskip hcurrent => Reports.failed hfails hspan hskip hcurrent
  next := by
    intro terminator read noted script read' noted' script' d e hlists _ hbreak _ hlists'
    have hkind : d.current.kind = .lineBreak := hbreak
    have hread := hlists.inOrder (by simp [hkind])
    rw [← List.append_assoc]
    apply hlists'.behind
    apply hread.mono
    exact (List.Sublist.refl read).append (List.sublist_append_right _ _)
  close := by
    intro opening d read noted script _ _ hlists _ hclosing
    have hkind : d.current.kind = .mark .closeCurly := hclosing
    apply (hlists.inOrder (by simp [hkind])).mono
    exact ((List.Sublist.refl read).append (List.sublist_append_right _ _)).cons opening
  unclosed := by
    intro opening d read noted script hlists hend
    rw [Cursor.unexpected_closeCurly hend]
    cases hlists with
    | inside hkind => exact absurd hend hkind
    | @atEnd inner late hkind hinner hlate =>
        exact ⟨inner, late, rfl, hinner.mono (List.sublist_cons_self opening read), hlate,
          fun _ => ⟨hkind, rfl⟩⟩
  unlist := fun h _ => h

/-!
## Tokens of a text
-/

def Span.StartsBefore (first second : Span) : Prop := first.start < second.start

theorem startsBefore_of_before {tokens : List Token} (h : tokens.Pairwise Token.Before) :
    (tokens.map (fun token => token.span)).Pairwise Span.StartsBefore := by
  rw [List.pairwise_map]
  exact h.imp (fun hbefore => Nat.lt_of_lt_of_le hbefore.nonempty hbefore.behind)

theorem InOrder.length_startingAt {tokens : List Token} {noted : List Diagnostic}
    (h : InOrder tokens noted) (hbefore : tokens.Pairwise Token.Before) (start : Nat) :
    (Diagnostic.startingAt start noted).length <= 1 := by
  have hpairs : (noted.map Diagnostic.span).Pairwise Span.StartsBefore :=
    (startsBefore_of_before hbefore).sublist h
  rw [List.pairwise_map] at hpairs
  have hgroup := hpairs.sublist (List.filter_sublist
    (p := fun diagnostic => diagnostic.span.start == start))
  have hall : forall g, g ∈ Diagnostic.startingAt start noted -> g.span.start = start :=
    fun g hg => by simpa using (List.mem_filter.mp hg).2
  change (Diagnostic.startingAt start noted).Pairwise _ at hgroup
  match hfound : Diagnostic.startingAt start noted, hgroup with
  | [], _ => exact Nat.zero_le 1
  | [only], _ => exact Nat.le_refl 1
  | first :: second :: rest, hgroup =>
      rw [hfound] at hall
      have hlt : first.span.start < second.span.start :=
        (List.pairwise_cons.mp hgroup).1 second (by simp)
      rw [hall first (by simp), hall second (by simp)] at hlt
      exact absurd hlt (Nat.lt_irrefl _)

theorem startingAt_eq_nil {noted : List Diagnostic} {start : Nat}
    (h : forall g, g ∈ noted -> g.span.start ≠ start) : Diagnostic.startingAt start noted = [] := by
  apply List.filter_eq_nil_iff.mpr
  intro g hg
  simpa using h g hg

theorem InOrder.exists_token {tokens : List Token} {noted : List Diagnostic} {g : Diagnostic}
    (h : InOrder tokens noted) (hg : g ∈ noted) : exists t, t ∈ tokens ∧ t.span = g.span :=
  List.mem_map.mp (h.subset (List.mem_map_of_mem hg))

theorem items_inOrder (source : String) (items : List Item) :
    InOrder (items.map (Token.ofItem source)) (items.filterMap Diagnostic.ofItem?) := by
  induction items with
  | nil => exact InOrder.nothing _
  | cons item rest ih =>
      cases item with
      | ok token => exact List.Sublist.cons _ ih
      | error diagnostic => exact List.Sublist.cons_cons diagnostic.span ih

theorem stray_inOrder {source : String} {body : List Token} {last : Token}
    (htokens : (tokenize source).1 = body ++ [last]) (hlast : last.kind = .endOfInput)
    (hbefore : (body ++ [last]).Pairwise Token.Before) :
    InOrder body (tokenize source).2 := by
  have hall : InOrder (body ++ [last]) (tokenize source).2 := by
    rw [← htokens]
    exact items_inOrder source (itemsOf source)
  unfold InOrder at hall
  rw [List.map_append, List.map_singleton] at hall
  rcases List.sublist_append_iff.mp hall with ⟨front, back, hsplit, hfront, hback⟩
  rcases List.sublist_singleton.mp hback with hnone | hone
  · rw [hnone, List.append_nil] at hsplit
    unfold InOrder
    rw [hsplit]
    exact hfront
  · have hmem : last.span ∈ (tokenize source).2.map Diagnostic.span := by
      rw [hsplit, hone]
      simp
    rcases List.mem_map.mp hmem with ⟨g, hg, hspan⟩
    rcases tokenize_stray hg with ⟨t, ht, hkind, htspan⟩
    rw [htokens] at ht
    rcases List.mem_append.mp ht with hbody | hend
    · have hpair := (List.pairwise_append.mp hbefore).2.2 t hbody last (by simp)
      have hnonempty := hpair.nonempty
      have hbehind := hpair.behind
      rw [htspan, hspan] at hnonempty hbehind
      omega
    · rw [List.mem_singleton.mp hend, hlast] at hkind
      cases hkind

/-!
## Source texts
-/

/-- What is said about a text: in the order of the text, nothing twice, each time at a
token, and about every stray character. -/
structure Reported (tokens : List Token) (stray errors : List Diagnostic) : Prop where
  ordered : errors.Pairwise (fun first second => first.span.start <= second.span.start)
  distinct : errors.Nodup
  placed : forall g, g ∈ errors -> exists t, t ∈ tokens ∧ t.span = g.span
  once : forall g, g ∈ stray -> errors.count g = 1

theorem reported_mergeErrors {body : List Token} {last : Token}
    {lexical inner late : List Diagnostic} (hbefore : (body ++ [last]).Pairwise Token.Before)
    (hlexical : InOrder body lexical) (hinner : InOrder body inner) (hlate : AtEnd last late) :
    Reported (body ++ [last]) lexical (mergeErrors lexical (inner ++ late)) := by
  rcases List.pairwise_append.mp hbefore with ⟨hbody, _, hlast⟩
  have hearly : forall {noted}, InOrder body noted ->
      forall g, g ∈ noted -> g.span.start ≠ last.span.start := by
    intro noted hnoted g hg
    rcases hnoted.exists_token hg with ⟨t, ht, hspan⟩
    have hpair := hlast t ht last (by simp)
    have hnonempty := hpair.nonempty
    have hbehind := hpair.behind
    rw [hspan] at hnonempty hbehind
    omega
  have hnodup : (mergeErrors lexical (inner ++ late)).Nodup := by
    apply nodup_mergeErrors
    -- At the token behind the text all diagnostics are one and the same.  Anywhere else there is
    -- at most one of each list, so equal ones stand side by side.
    intro start
    rw [Diagnostic.startingAt_append]
    by_cases hstart : start = last.span.start
    · rw [hstart, startingAt_eq_nil (hearly hlexical), startingAt_eq_nil (hearly hinner),
        List.nil_append, List.nil_append]
      have hall : Diagnostic.startingAt last.span.start late = late := by
        apply List.filter_eq_self.mpr
        intro g hg
        simp [hlate.span hg]
      rw [hall]
      exact hlate.uniform
    · have hnone : Diagnostic.startingAt start late = [] := by
        apply startingAt_eq_nil
        intro g hg hsame
        apply hstart
        rw [← hsame, hlate.span hg]
      rw [hnone, List.append_nil]
      apply Diagnostic.uniform_of_length
      have hone := hlexical.length_startingAt hbody start
      have htwo := hinner.length_startingAt hbody start
      rw [List.length_append]
      omega
  refine ⟨mergeErrors_ordered _ _, hnodup, ?_, ?_⟩
  · intro g hg
    rcases mem_mergeErrors.mp hg with hmem | hmem
    · rcases hlexical.exists_token hmem with ⟨t, ht, hspan⟩
      exact ⟨t, List.mem_append_left _ ht, hspan⟩
    · rcases List.mem_append.mp hmem with hmem | hmem
      · rcases hinner.exists_token hmem with ⟨t, ht, hspan⟩
        exact ⟨t, List.mem_append_left _ ht, hspan⟩
      · exact ⟨last, by simp, (hlate.span hmem).symm⟩
  · intro g hg
    exact List.nodup_iff_count_eq_one.mp hnodup g (mem_mergeErrors.mpr (Or.inl hg))

/-- The diagnostics of a source text are sorted, pairwise different, each at a token of
the text, and every stray character is reported once. -/
theorem parse_reports (source : String) (hshort : Text.byteLength source.toList < 4294967296) :
    exists parsed, parse source = .ok parsed ∧
      Reported (tokenize source).1 (tokenize source).2 parsed.errors := by
  have hquoted : forall t, t ∈ (tokenize source).1 -> t.Quoted :=
    fun _ ht => (admits_tokenize ht).2
  have hfits : reportRecovery.Fits (Cursor.ofTokens (tokenize source).1) :=
    ⟨fun t ht => hquoted t (Cursor.mem_of_mem_ahead ht), Cursor.final_ofTokens _⟩
  rcases parseTokens_lists reportRecovery hfits with
    ⟨parsed, read, d, hparsed, passage, hend, hlists⟩
  refine ⟨_, parse_eq hparsed, ?_⟩
  rcases tokenize_wellFormed source with ⟨body, stop, htokens, hbody⟩
  have hbefore := tokenize_before (Nat.le_of_lt_succ hshort)
  have hstray : InOrder body (tokenize source).2 := by
    apply stray_inOrder htokens rfl
    rw [← htokens]
    exact hbefore
  rw [htokens] at passage hbefore ⊢
  have hahead := passage.ahead
  rw [Cursor.ahead_ofTokens rfl] at hahead
  have hinside : forall t, t ∈ d.ahead -> t.kind ≠ .endOfInput := by
    intro t ht
    apply (hbody t _).inside
    rw [hahead]
    exact List.mem_append_right read ht
  have hlast : d.current = Token.endAt stop := by
    rw [Cursor.current_of_end hinside hend, passage.final, Cursor.final_ofTokens_append rfl]
  have hreports : Reports read d.current parsed.errors := hlists
  generalize parsed.errors = errors at hreports
  cases hreports with
  | inside hkind => exact absurd hend hkind
  | atEnd hkind hinner hlate =>
      rw [hlast] at hlate
      apply reported_mergeErrors hbefore hstray _ hlate
      apply hinner.mono
      rw [hahead]
      exact List.sublist_append_left read d.ahead

/-- In `{ $`, `{ x :` the character `$` is reported once, and at the end of the input
the missing expression and one of the two open braces. -/
theorem parse_reports_braces :
    exists parsed, parse "\x7b $\n\x7b x :" = .ok parsed ∧
      Reported (tokenize "\x7b $\n\x7b x :").1 (tokenize "\x7b $\n\x7b x :").2 parsed.errors ∧
      (tokenize "\x7b $\n\x7b x :").2.length = 1 ∧ parsed.errors.length = 3 := by
  have hshort : Text.byteLength "\x7b $\n\x7b x :".toList < 4294967296 := by decide +kernel
  rcases parse_reports "\x7b $\n\x7b x :" hshort with ⟨parsed, hparsed, hreported⟩
  have hcount : (parse "\x7b $\n\x7b x :").toOption.map (fun parsed => parsed.errors.length) =
      some 3 := by
    decide +kernel
  rw [hparsed] at hcount
  exact ⟨parsed, hparsed, hreported, by decide +kernel, Option.some.inj hcount⟩

end Linewise
