import Linewise.Proofs.Resumption
import Linewise.Proofs.Yield

/-!
# The brackets of statements

In a text whose brackets are matched, the brackets inside of every statement are
matched exactly if every error statement was given up soundly.
-/

namespace Linewise

/-!
## The account of the brackets
-/

theorem ahead_of_kind {d : Cursor} (hfinal : d.final.kind = .endOfInput)
    (h : d.kind ≠ .endOfInput) :
    d.ahead = (d.ahead.takeWhile Token.isComment ++ [d.current]) ++ d.advance.ahead :=
  (Cursor.advance_passage hfinal h).ahead

def nestRecovery (last : Token) (hlast : last.kind = .endOfInput) : Recovery where
  Admits := fun token => token.Quoted ∧ token.kind ≠ .endOfInput
  Ends := fun token => token = last
  Holds := fun read rest noted script =>
    exists stretches, Nests last (fun _ => True) read rest noted script stretches
  quoted := fun h => h.1
  ends := by
    intro token htoken
    rw [htoken, hlast]
  nil := fun _ => ⟨[], Nests.bare rfl (fun _ => rfl)⟩
  append := by
    rintro read read' rest noted noted' script script' ⟨stretches, h⟩ ⟨stretches', h'⟩
    exact ⟨_, h.append h' (fun _ _ _ _ => trivial)⟩
  silent := by
    intro token rest hsilent
    refine ⟨[], Nests.bare rfl (fun below => ?_)⟩
    have hplain := Bracket.plain_of_isSilent hsilent
    exact Bracket.unwind_plain (by simpa using hplain) below
  word := fun _ _ _ => ⟨[], Nests.bare rfl (fun _ => rfl)⟩
  group := by
    rintro read rest noted before inner hinner ⟨stretches, h⟩
    refine ⟨stretches, h.restate ?_ (Symbol.unwind_ungroup hinner)⟩
    have hopen : Symbol.statement? (.mark .openParen) = none := rfl
    have hclose : Symbol.statement? (.mark .closeParen) = none := rfl
    simp [hopen, hclose]
  Lists := fun terminator read d noted script =>
    Symbol.Balanced script ∧
      exists stretches,
        Nests last (Bracket.Surrounds terminator) read d.ahead noted script stretches
  none := ⟨Symbol.balanced_nil, [], Nests.bare rfl (fun _ => rfl)⟩
  trivia := by
    rintro terminator read read' d noted script htrivia ⟨hbalanced, stretches, h⟩
    have hread : Nests last (Bracket.Surrounds terminator) read (read' ++ d.ahead) [] [] [] :=
      Nests.bare rfl (Bracket.unwind_trivia htrivia)
    refine ⟨hbalanced, stretches, hread.append h ?_⟩
    intro stack stack' hstack hsame
    cases hsame
    exact hstack
  told := by
    rintro terminator read noted c d found hbegins passage hread hspans ⟨stretches, h⟩
    exact ⟨found.contents_composed Symbol.balanced_composed, _,
      Nests.told hbegins passage hread hspans h⟩
  failed := by
    intro terminator read noted skipped diagnostic c d e hbegins passage hfits hspan _ he
      hskip _
    constructor
    · rw [Statement.script, Statement.contents]
      rfl
    · exact ⟨_, Nests.failed hbegins passage hfits.ends hlast
        (fun t ht => (hfits.tokens t ht).2) hspan he hskip⟩
  next := by
    rintro terminator read noted script read' noted' script' d e ⟨hbalanced, stretches, h⟩
      hfits hbreak passage ⟨hbalanced', stretches', h'⟩
    refine ⟨hbalanced.append hbalanced', stretches ++ ([] ++ stretches'), ?_⟩
    have hgap : Nests last (Bracket.Surrounds terminator)
        (d.ahead.takeWhile Token.isComment ++ [d.current]) (read' ++ e.ahead) [] [] [] := by
      apply Nests.bare rfl
      apply Bracket.unwind_trivia
      intro t ht
      rcases List.mem_append.mp ht with hcomment | hcurrent
      · exact Cursor.isTrivia_of_comments hcomment
      · have hkind : d.current.kind = .lineBreak := hbreak
        rw [List.mem_singleton.mp hcurrent]
        simp [Cursor.isTrivia, Token.isLineBreak, hkind]
    have hahead := ahead_of_kind hfits.final (by simp [hbreak])
    rw [passage.ahead, ← List.append_assoc] at hahead
    rw [hahead] at h
    have hrest := hgap.append h' (fun stack stack' hstack hsame => by
      cases hsame
      exact hstack)
    exact h.append hrest (fun stack stack' hstack hsame => by
      rw [hbalanced.unwind] at hsame
      cases hsame
      exact hstack)
  close := by
    rintro opening d read noted script hopening _ ⟨_, stretches, h⟩ hfits hclosing
    have hkind : d.current.kind = .mark .closeCurly := hclosing
    have hfirst : Nests last (fun _ => True) [opening] (read ++ d.ahead) []
        [.mark .openCurly] [] := by
      apply Nests.bare rfl
      intro below
      rw [List.map_singleton, hopening]
      rfl
    have hlast : Nests last (fun _ => True)
        (d.ahead.takeWhile Token.isComment ++ [d.current]) d.advance.ahead []
        [.mark .closeCurly] [] := by
      apply Nests.bare rfl
      intro below
      rw [List.map_append, Bracket.unwind_append, Bracket.unwind_trivia
        (fun t ht => Cursor.isTrivia_of_comments ht), List.map_singleton, hkind]
      rfl
    have hahead := ahead_of_kind hfits.final (by simp [hclosing])
    rw [hahead] at h
    rw [hahead, ← List.append_assoc] at hfirst
    have hinner := h.append hlast (fun _ _ _ _ => trivial)
    have hall := hfirst.append hinner (fun stack stack' _ hsame => by
      cases hsame
      exact Or.inl ⟨rfl, stack, rfl⟩)
    rw [List.append_nil, List.append_nil] at hall
    exact ⟨_, hall⟩
  unlist := by
    rintro read rest noted before after begun ⟨stretches, h⟩ herror
    exact h.unlist herror

/-!
## Tokens inside a span
-/

/-- The tokens of a text that lie inside a span. -/
def Token.within (text : List Token) (span : Span) : List Token :=
  text.filter (fun token =>
    decide (span.start <= token.span.start) && decide (token.span.stop <= span.stop))

namespace Bracket

theorem unwind_filter (stack : List Bracket) (kinds : List Kind) :
    unwind stack (kinds.filter (fun kind => !plain kind)) = unwind stack kinds := by
  induction kinds generalizing stack with
  | nil => rfl
  | cons kind rest ih =>
      cases hplain : plain kind with
      | true => simp [hplain, unwind_cons, step_plain hplain, ih]
      | false => simp [hplain, unwind_cons, ih]

def brackets (tokens : List Token) : List Token :=
  tokens.filter (fun token => !plain token.kind)

theorem matched_of_brackets {first second : List Token}
    (h : brackets first = brackets second) :
    Matched (first.map Token.kind) <-> Matched (second.map Token.kind) := by
  have hkinds : forall tokens : List Token,
      (tokens.map Token.kind).filter (fun kind => !plain kind) =
        (brackets tokens).map Token.kind := by
    intro tokens
    rw [brackets, List.filter_map]
    rfl
  unfold Matched
  rw [← unwind_filter [] (first.map Token.kind), ← unwind_filter [] (second.map Token.kind),
    hkinds, hkinds, h]

end Bracket

theorem isTrivia_of_bracket {t : Token} (h : Bracket.plain t.kind = false) :
    Cursor.isTrivia t = false := by
  cases htrivia : Cursor.isTrivia t with
  | false => rfl
  | true =>
      simp only [Cursor.isTrivia, Token.isComment, Token.isLineBreak, Bool.or_eq_true,
        beq_iff_eq] at htrivia
      rcases htrivia with hkind | hkind
      · rw [hkind] at h
        cases h
      · rw [hkind] at h
        cases h

theorem span_of_tokens {tokens : List Token} {first : Token} (hmem : first ∈ tokens)
    (hstart : forall t, t ∈ tokens -> first.span.start <= t.span.start)
    (hbefore : tokens.Pairwise Token.Before)
    (hforward : forall t, t ∈ tokens -> t.span.start <= t.span.stop)
    (htrivia : Cursor.isTrivia first = false) :
    exists final, final ∈ tokens ∧
      first.span.cover (Cursor.spanBehind first.span tokens) =
        { start := first.span.start, stop := final.span.stop } ∧
      forall t, t ∈ tokens -> Cursor.isTrivia t = false -> t.span.stop <= final.span.stop := by
  have hends : forall t, t ∈ tokens -> Cursor.isTrivia t = false ->
      t.span.stop <= (Cursor.spanBehind first.span tokens).stop :=
    fun t ht hsignificant => Cursor.stop_le_spanBehind hbefore hforward first.span ht hsignificant
  have hfirst := hends first hmem htrivia
  have hfinal : exists final, final ∈ tokens ∧
      Cursor.spanBehind first.span tokens = final.span := by
    rcases Cursor.spanBehind_mem first.span tokens with hsame | hfound
    · exact ⟨first, hmem, hsame⟩
    · exact hfound
  rcases hfinal with ⟨final, hfinal, hspan⟩
  rw [hspan] at hends hfirst ⊢
  exists final
  constructor
  · exact hfinal
  constructor
  · have hstart' := hstart final hfinal
    simp only [Span.cover, Nat.min_eq_left hstart', Nat.max_eq_right hfirst]
  · exact hends

theorem brackets_within {text front rest tokens more : List Token} {first : Token} {span : Span}
    (hbefore : text.Pairwise Token.Before)
    (hforward : forall t, t ∈ text -> t.span.start <= t.span.stop)
    (hlast : forall t, t ∈ rest -> Bracket.plain t.kind = false ->
      t.span.start < t.span.stop)
    (htext : text = front ++ (tokens ++ rest)) (htokens : tokens = first :: more)
    (hspan : span = first.span.cover (Cursor.spanBehind first.span more))
    (htrivia : Cursor.isTrivia first = false) :
    Bracket.brackets (Token.within text span) = Bracket.brackets tokens := by
  rw [htext] at hbefore hforward
  rcases List.pairwise_append.mp hbefore with ⟨_, hbehind, hfront⟩
  rcases List.pairwise_append.mp hbehind with ⟨hinner, _, hrest⟩
  have hbegin : Cursor.spanBehind first.span more = Cursor.spanBehind first.span tokens := by
    rw [htokens, Cursor.spanBehind, if_neg (by simp [htrivia])]
  have hmem : first ∈ tokens := by simp [htokens]
  have hforward' : forall t, t ∈ tokens -> t.span.start <= t.span.stop :=
    fun t ht => hforward t (by simp [ht])
  have hstart : forall t, t ∈ tokens -> first.span.start <= t.span.start := by
    intro t ht
    have hfirst := hforward' first hmem
    rw [htokens] at ht hinner
    rcases List.mem_cons.mp ht with hself | hlater
    · exact Nat.le_of_eq (by rw [hself])
    · have hbehind := ((List.pairwise_cons.mp hinner).1 t hlater).behind
      omega
  rcases span_of_tokens hmem hstart hinner hforward' htrivia with ⟨final, hfinal, hcover, hstop⟩
  rw [hbegin, hcover] at hspan
  unfold Bracket.brackets Token.within
  rw [htext, List.filter_filter, List.filter_append, List.filter_append]
  -- A token in front starts before the span, and one behind stops after it.  For the latter
  -- an empty token will not do, but an empty token is no bracket.
  have hnoneFront : front.filter (fun t => !Bracket.plain t.kind &&
      (decide (span.start <= t.span.start) && decide (t.span.stop <= span.stop))) = [] := by
    apply List.filter_eq_nil_iff.mpr
    intro t ht
    have hfirst := hfront t ht first (by simp [hmem])
    have hnonempty := hfirst.nonempty
    have hbehind := hfirst.behind
    have houtside : ¬ span.start <= t.span.start := by
      rw [hspan]
      simp only
      omega
    simp [houtside]
  have hnoneRest : rest.filter (fun t => !Bracket.plain t.kind &&
      (decide (span.start <= t.span.start) && decide (t.span.stop <= span.stop))) = [] := by
    apply List.filter_eq_nil_iff.mpr
    intro t ht
    cases hplain : Bracket.plain t.kind with
    | true => simp
    | false =>
        have hbehind := (hrest final hfinal t ht).behind
        have hnonempty := hlast t ht hplain
        have houtside : ¬ t.span.stop <= span.stop := by
          rw [hspan]
          simp only
          omega
        simp [houtside]
  rw [hnoneFront, hnoneRest, List.nil_append, List.append_nil]
  apply List.filter_congr
  intro t ht
  cases hplain : Bracket.plain t.kind with
  | true => simp
  | false =>
      have hbegins := hstart t ht
      have hends := hstop t ht (isTrivia_of_bracket hplain)
      have hinside : span.start <= t.span.start ∧ t.span.stop <= span.stop := by
        rw [hspan]
        exact ⟨hbegins, hends⟩
      simp [hinside.1, hinside.2]

/-!
## Source texts
-/

/-- The brackets that lie inside the span of a statement are matched. -/
def Statement.Enclosed (text : List Token) (found : Statement) : Prop :=
  Bracket.Matched ((Token.within text found.span).map Token.kind)

theorem nonempty_of_bracket {body : List Token} {last t : Token}
    (hbefore : (body ++ [last]).Pairwise Token.Before) (hlast : last.kind = .endOfInput)
    (ht : t ∈ body ++ [last]) (h : Bracket.plain t.kind = false) :
    t.span.start < t.span.stop := by
  rcases List.mem_append.mp ht with hbody | hend
  · have hpairs := (List.pairwise_append.mp hbefore).2.2
    exact (hpairs t hbody last (by simp)).nonempty
  · rw [List.mem_singleton.mp hend, hlast] at h
    cases h

theorem Stretch.Lies.brackets_eq {body : List Token} {last : Token} {noted : List Diagnostic}
    {stretch : Stretch} (h : stretch.Lies (body ++ [last]) noted)
    (hbefore : (body ++ [last]).Pairwise Token.Before)
    (hforward : forall t, t ∈ body ++ [last] -> t.span.start <= t.span.stop)
    (hlast : last.kind = .endOfInput) :
    Bracket.brackets (Token.within (body ++ [last]) stretch.found.span) =
      Bracket.brackets stretch.tokens := by
  rcases h.inText with ⟨front, htext⟩
  rcases h.spans with ⟨first, more, htokens, htrivia, hspan⟩
  apply brackets_within hbefore hforward _ htext.symm htokens hspan htrivia
  intro t ht hplain
  apply nonempty_of_bracket hbefore hlast _ hplain
  rw [← htext]
  simp [ht]

/-- In a text with matched brackets, the brackets inside of every statement, at every
level, are matched exactly if each failed statement was given up soundly: counting
from the token where it failed, reading resumed where it would have resumed with
the brackets counted that were open at that token. -/
theorem enclosed_iff_sound (source : String)
    (hshort : Text.byteLength source.toList < 4294967296)
    (hmatched : Bracket.Matched ((tokenize source).1.map Token.kind)) :
    exists (parsed : Parsed) (failures : List Stretch), parse source = .ok parsed ∧
      failures.map Stretch.found = parsed.file.allStatements.filter Statement.isError ∧
      (forall failure, failure ∈ failures ->
        failure.Lies (tokenize source).1 parsed.errors ∧
        Bracket.brackets (Token.within (tokenize source).1 failure.found.span) =
          Bracket.brackets failure.tokens) ∧
      ((forall found, found ∈ parsed.file.allStatements ->
          found.Enclosed (tokenize source).1) <->
        forall failure, failure ∈ failures -> failure.Sound) := by
  have hbefore := tokenize_before (Nat.le_of_lt_succ hshort)
  have hforward : forall t, t ∈ (tokenize source).1 -> t.span.start <= t.span.stop :=
    fun t ht => tokenize_forward (Nat.le_of_lt_succ hshort) ht
  rcases tokenize_wellFormed source with ⟨body, stop, htokens, hbody⟩
  have hend : (Token.endAt stop).kind = .endOfInput := rfl
  have hfits : (nestRecovery (Token.endAt stop) rfl).Fits
      (Cursor.ofTokens (tokenize source).1) := by
    rw [htokens]
    constructor
    · intro t ht
      rw [Cursor.ahead_ofTokens hend] at ht
      exact ⟨(hbody t ht).quoted, (hbody t ht).inside⟩
    · exact Cursor.final_ofTokens_append hend
  rcases parseTokens_lists _ hfits with
    ⟨parsed, read, d, hparsed, passage, _, _, stretches, hnests⟩
  have hahead := passage.ahead
  rw [htokens, Cursor.ahead_ofTokens hend] at hahead
  rw [htokens] at hbefore hforward hmatched ⊢
  have hlies : forall stretch, stretch ∈ stretches ->
      stretch.Lies (body ++ [Token.endAt stop])
        (mergeErrors (tokenize source).2 parsed.errors) := by
    intro stretch hstretch
    apply (hnests.lies stretch hstretch).mono
    · exact ⟨[], by simp [hahead]⟩
    · intro diagnostic hmem
      exact mem_mergeErrors.mpr (Or.inr hmem)
  have hbrackets : forall stretch, stretch ∈ stretches ->
      Bracket.brackets (Token.within (body ++ [Token.endAt stop]) stretch.found.span) =
        Bracket.brackets stretch.tokens :=
    fun stretch hstretch => (hlies stretch hstretch).brackets_eq hbefore hforward hend
  have hfound : stretches.map Stretch.found = parsed.file.allStatements := hnests.found
  refine ⟨_, stretches.filter (fun stretch => stretch.found.isError), parse_eq hparsed,
    ?_, ?_, ?_, ?_⟩
  · rw [← hfound, List.filter_map]
    rfl
  · intro failure hfailure
    have hmem := (List.mem_filter.mp hfailure).1
    exact ⟨hlies failure hmem, hbrackets failure hmem⟩
  · intro hall failure hfailure
    rcases List.mem_filter.mp hfailure with ⟨hmem, herror⟩
    have hfailed : failure.found ∈ parsed.file.allStatements := by
      rw [← hfound]
      exact List.mem_map_of_mem hmem
    have henclosed := hall failure.found hfailed
    have hown : failure.Matched :=
      (Bracket.matched_of_brackets (hbrackets failure hmem)).mp henclosed
    exact hown.sound (hlies failure hmem) herror
  · intro hsound found hmem
    rw [← hfound] at hmem
    rcases List.mem_map.mp hmem with ⟨stretch, hstretch, hself⟩
    have htext : Bracket.unwind [] ((read ++ d.ahead).map Token.kind) = some [] := by
      rw [Bracket.Matched, List.map_append, Bracket.unwind_append] at hmatched
      rcases Option.bind_eq_some_iff.mp hmatched with ⟨stack, hstack, hlast⟩
      rw [← hahead, hstack]
      exact hlast
    have hall := (hnests.matched [] (Or.inr ⟨rfl, rfl⟩) htext
      (fun failure hfailure herror =>
        hsound failure (List.mem_filter.mpr ⟨hfailure, herror⟩))).2
    rw [← hself]
    exact (Bracket.matched_of_brackets (hbrackets stretch hstretch)).mpr (hall stretch hstretch)

/-- Behind the colon in `(a ; :`, `b)` reading resumes inside the parentheses. -/
theorem unsound_in_parentheses :
    Bracket.Matched ((tokenize "(a ; :\nb)").1.map Token.kind) ∧
    exists (parsed : Parsed) (failures : List Stretch), parse "(a ; :\nb)" = .ok parsed ∧
      failures.map Stretch.found = parsed.file.allStatements.filter Statement.isError ∧
      ¬ forall failure, failure ∈ failures -> failure.Sound := by
  have hshort : Text.byteLength "(a ; :\nb)".toList < 4294967296 := by decide +kernel
  have hmatched : Bracket.Matched ((tokenize "(a ; :\nb)").1.map Token.kind) := by
    decide +kernel
  rcases enclosed_iff_sound "(a ; :\nb)" hshort hmatched with
    ⟨parsed, failures, hparsed, hfound, _, hiff⟩
  refine ⟨hmatched, parsed, failures, hparsed, hfound, fun hsound => ?_⟩
  have hspans : (parse "(a ; :\nb)").toOption.map
      (fun parsed => parsed.file.allStatements.map Statement.span) =
        some [{ start := 0, stop := 6 }, { start := 7, stop := 9 }] := by
    decide +kernel
  have hopen : ¬ Bracket.Matched
      ((Token.within (tokenize "(a ; :\nb)").1 { start := 0, stop := 6 }).map Token.kind) := by
    decide +kernel
  rw [hparsed] at hspans
  have hspans : parsed.file.allStatements.map Statement.span =
      [{ start := 0, stop := 6 }, { start := 7, stop := 9 }] := Option.some.inj hspans
  have hmem : ({ start := 0, stop := 6 } : Span) ∈
      parsed.file.allStatements.map Statement.span := by
    rw [hspans]
    simp
  rcases List.mem_map.mp hmem with ⟨found, hfound, hspan⟩
  have henclosed := hiff.mpr hsound found hfound
  rw [Statement.Enclosed, hspan] at henclosed
  exact hopen henclosed

end Linewise
