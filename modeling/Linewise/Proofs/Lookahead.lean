import Linewise.Proofs.Condensing
import Linewise.Proofs.Joining.Extension
import Linewise.Proofs.Lexing
import Linewise.Proofs.Printing.Speculation

/-!
# Looking ahead for an arrow

A function literal is tried only if a search finds an arrow behind a run of
subpatterns.  The search counts brackets and does not look inside of them, while a
trial reads what they hold.  The brackets that a subpattern reads are matched, and the
first one closes with its last token, so wherever a trial gets to its arrow, so does
the search.  A trial that fails leaves no trace, so nothing is lost by not making it.
-/

namespace Linewise

theorem Cursor.tokensAhead_of_significant {c : Cursor} {token : Token} {rest : List Token}
    (hs : c.significant = token :: rest) :
    c.tokensAhead = token :: { c with ahead := rest }.tokensAhead := by
  rw [tokensAhead_eq, hs]
  simp [tokensAhead, isComment_of_significant hs]

theorem Cursor.head?_tokensAhead (c : Cursor) : c.tokensAhead.head? = some c.current := by
  cases hs : c.significant with
  | nil =>
      rw [tokensAhead_eq, hs, current_eq_final hs]
      rfl
  | cons token rest =>
      rw [tokensAhead_of_significant hs, current_eq hs]
      rfl

theorem Cursor.tokensAhead_cons {c : Cursor} (hfinal : c.final.kind = .endOfInput)
    (h : c.kind ≠ .endOfInput) : c.tokensAhead = c.current :: c.advance.tokensAhead := by
  rcases significant_of_kind_ne hfinal h with ⟨rest, hs⟩
  rw [tokensAhead_of_significant hs, advance_eq hs h]
  rfl

namespace Grammar

open Linewise.Parser
open Linewise.Account

/-!
## Brackets on the way
-/

theorem arrowFollows_unwind {stack stack' : List Bracket} {tokens : List Token}
    (depth : Nat) (rest : List Token)
    (hstack : Bracket.unwind stack (tokens.map Token.kind) = some stack')
    (hinside : forall t, t ∈ tokens -> t.kind ≠ .endOfInput) :
    arrowFollows (counted stack + depth + 1) false
        (tokens.filter (fun token => !token.isComment) ++ rest) =
      arrowFollows (counted stack' + depth + 1) false rest := by
  induction tokens generalizing stack with
  | nil =>
      cases hstack
      rfl
  | cons token tokens ih =>
      rcases Option.bind_eq_some_iff.mp hstack with ⟨behind, hstep, hrest⟩
      have hnext := ih hrest (fun t ht => hinside t (by simp [ht]))
      cases hcomment : token.isComment with
      | true =>
          rw [Bracket.step_plain (Bracket.plain_of_isComment hcomment)] at hstep
          cases hstep
          rw [List.filter_cons_of_neg (by simp [hcomment]), hnext]
      | false =>
          rcases counted_step hstep with ⟨hopens, hcloses, hother⟩
          rw [List.filter_cons_of_pos (by simp [hcomment]), List.cons_append, arrowFollows, ← hnext]
          split
          · rename_i hkind
            exact absurd hkind (hinside token (by simp))
          · rename_i hkind
            rw [hopens (Or.inl hkind)]
            congr 1
            omega
          · rename_i hkind
            rw [hopens (Or.inr hkind)]
            congr 1
            omega
          · rename_i hround hcurly
            rw [if_pos (Nat.succ_pos _)]
            by_cases hclose : token.kind = .mark .closeParen ∨ token.kind = .mark .closeCurly
            · rw [if_pos (by simpa using hclose), hcloses hclose]
              congr 1
              omega
            · rw [if_neg (by simpa using hclose)]
              rw [not_or] at hclose
              rw [hother hround hcurly hclose.1 hclose.2]

theorem arrowFollows_opening {token : Token} {rest : List Token} (depth : Nat) (first : Bool)
    (h : token.kind = .mark .openParen ∨ token.kind = .mark .openCurly) :
    arrowFollows depth first (token :: rest) = arrowFollows (depth + 1) false rest := by
  rcases h with hkind | hkind <;> simp [arrowFollows, hkind]

theorem arrowFollows_closing {token : Token} {rest : List Token} (depth : Nat)
    (h : token.kind = .mark .closeParen ∨ token.kind = .mark .closeCurly) :
    arrowFollows (depth + 1) false (token :: rest) = arrowFollows depth false rest := by
  rcases h with hkind | hkind <;> simp [arrowFollows, hkind]

theorem kind_of_closing {bracket : Bracket} {kind : Kind} (hbracket : bracket ≠ .square)
    (h : Bracket.step [bracket] kind = some []) :
    kind = .mark .closeParen ∨ kind = .mark .closeCurly := by
  cases kind with
  | mark found =>
      cases found with
      | closeParen => exact Or.inl rfl
      | closeCurly => exact Or.inr rfl
      | closeBracket =>
          cases bracket with
          | square => exact absurd rfl hbracket
          | round => cases h
          | curly => cases h
      | _ => cases h
  | _ => cases h

/-!
## The search beside the trial
-/

variable {level : Level} {first : Bool} {c d : Cursor}

def Reaches (first : Bool) (c d : Cursor) : Prop :=
  arrowFollows 0 first c.tokensAhead = arrowFollows 0 false d.tokensAhead

theorem reaches_of_encloses {bracket : Bracket} (hbracket : bracket ≠ .square)
    (hfinal : c.final.kind = .endOfInput)
    (hopening : c.kind = .mark .openParen ∨ c.kind = .mark .openCurly)
    (h : c.advance.Encloses bracket d) : Reaches first c d := by
  rcases h.ahead with ⟨inner, closing, hahead, hinner, hinside, hclosing⟩
  have hclose := kind_of_closing hbracket hclosing
  have hcomment : closing.isComment = false := by
    rcases hclose with hkind | hkind <;> simp [Token.isComment, hkind]
  have hne : c.kind ≠ .endOfInput := by
    rcases hopening with hkind | hkind <;> simp [hkind]
  have htokens : c.advance.tokensAhead =
      inner.filter (fun token => !token.isComment) ++ closing :: d.tokensAhead := by
    rw [Cursor.tokensAhead, Cursor.tokensAhead, hahead, h.final]
    simp [hcomment]
  calc arrowFollows 0 first c.tokensAhead
      = arrowFollows 1 false c.advance.tokensAhead := by
        rw [Cursor.tokensAhead_cons hfinal hne]
        exact arrowFollows_opening 0 first hopening
    _ = arrowFollows 1 false (closing :: d.tokensAhead) := by
        rw [htokens]
        exact arrowFollows_unwind 0 _ hinner hinside
    _ = arrowFollows 0 false d.tokensAhead := arrowFollows_closing 0 hclose

theorem reaches_advance (hfinal : c.final.kind = .endOfInput)
    (hkind : c.kind = .mark .underscore ∨ c.kind = .lowercaseName ∨ c.kind = .number ∨
      c.kind = .text) (hfirst : first = true ∨ c.current.startsPattern = true) :
    Reaches first c c.advance := by
  have hne : c.kind ≠ .endOfInput := by
    rcases hkind with hkind | hkind | hkind | hkind <;> simp [hkind]
  have hgoes : (first || c.current.startsPattern) = true := by simpa using hfirst
  rw [Reaches, Cursor.tokensAhead_cons hfinal hne]
  rcases hkind with hkind | hkind | hkind | hkind
  all_goals
    have hcurrent : c.current.kind = _ := hkind
    simp only [arrowFollows, hcurrent, hgoes]
    rfl

theorem text_eq_ok {literal : Lexeme} (h : text c = .ok literal d) :
    c.kind = .text ∧ d = c.advance := by
  rcases bind_eq_ok.mp h with ⟨token, e, htoken, hok⟩
  rcases expectAs_eq_ok htoken with ⟨hkind, rfl⟩
  cases hvalue : unquoted? token.value with
  | some value =>
      rw [hvalue] at hok
      cases hok
      exact ⟨hkind, rfl⟩
  | none =>
      rw [hvalue] at hok
      cases hok

theorem subpattern_reaches {pattern : Pattern} (hlevel : level.Keeps bracketAccount)
    (hc : bracketAccount.Fits c) (hfirst : first = true ∨ c.current.startsPattern = true)
    (hok : subpattern level c = .ok pattern d) : Reaches first c d := by
  have hinner : c.kind ≠ .endOfInput -> bracketAccount.Fits c.advance :=
    fun hne => hc.after (Cursor.advance_passage hc.final hne)
  rcases bind_eq_ok.mp hok with ⟨kind, e, hseen, hok⟩
  have hkind : c.kind = kind := by
    cases hseen
    rfl
  have hsame : e = c := by
    cases hseen
    rfl
  rw [hsame] at hok
  split at hok
  · rcases bind_eq_ok.mp hok with ⟨token, e, htoken, hok⟩
    rcases expectAs_eq_ok htoken with ⟨_, rfl⟩
    cases hok
    exact reaches_advance hc.final (by simp [hkind]) hfirst
  · rcases bind_eq_ok.mp hok with ⟨name, e, hname, hok⟩
    rcases leaf_eq_ok hname with ⟨_, rfl⟩
    cases hok
    exact reaches_advance hc.final (by simp [hkind]) hfirst
  · rcases bind_eq_ok.mp hok with ⟨literal, e, hliteral, hok⟩
    rcases leaf_eq_ok hliteral with ⟨_, rfl⟩
    cases hok
    exact reaches_advance hc.final (by simp [hkind]) hfirst
  · rcases bind_eq_ok.mp hok with ⟨literal, e, hliteral, hok⟩
    rcases text_eq_ok hliteral with ⟨_, rfl⟩
    cases hok
    exact reaches_advance hc.final (by simp [hkind]) hfirst
  · exact reaches_of_encloses (by simp) hc.final (Or.inr hkind)
      (destructurePattern_leaves hlevel (hinner (by simp [hkind])) hok)
  · exact reaches_of_encloses (by simp) hc.final (Or.inl hkind)
      (parenthesizedPattern_leaves hlevel (hinner (by simp [hkind])) hok)
  · cases hok

theorem repeatUpTo_reaches (hlevel : level.Keeps bracketAccount) (bound : Nat)
    {patterns : List Pattern} (hc : bracketAccount.Fits c)
    (hok : repeatUpTo (fun cursor => cursor.current.startsPattern) (subpattern level) bound c =
      .ok patterns d) : Reaches false c d := by
  induction bound generalizing c patterns with
  | zero =>
      simp only [repeatUpTo] at hok
      split at hok
      · cases hok
      · cases hok
        rfl
  | succ bound ih =>
      simp only [repeatUpTo] at hok
      split at hok
      · rename_i hstarts
        rcases bind_eq_ok.mp hok with ⟨pattern, e, hpattern, hok⟩
        rcases bind_eq_ok.mp hok with ⟨rest, f, hrest, hok⟩
        cases hok
        have hreply := ReadsIf.elim (subpattern_reads hlevel) hc trivial
        rw [hpattern] at hreply
        rcases hreply with ⟨read, noted, passage, _⟩
        have hfirst : Reaches false c e :=
          subpattern_reaches hlevel hc (Or.inr hstarts) hpattern
        exact hfirst.trans (ih (hc.after passage) hrest)
      · cases hok
        rfl

theorem mayBeFunction_of_inputs {inputs : List Pattern} (hlevel : level.Keeps bracketAccount)
    (hc : bracketAccount.Fits c) (hok : functionInputs level c = .ok inputs d) :
    arrowFollows 0 true c.tokensAhead = true ∧ mayBeFunction c = true := by
  rcases bind_eq_ok.mp hok with ⟨pattern, e, hpattern, hok⟩
  rcases bind_eq_ok.mp hok with ⟨rest, f, hrest, hok⟩
  rcases bind_eq_ok.mp hok with ⟨token, g, htoken, _⟩
  have hreply := ReadsIf.elim (subpattern_reads hlevel) hc trivial
  rw [hpattern] at hreply
  rcases hreply with ⟨read, noted, passage, _⟩
  have he := hc.after passage
  have hreply := ReadsIf.elim (subpatterns_reads hlevel) he trivial
  rw [hrest] at hreply
  rcases hreply with ⟨read', noted', passage', _⟩
  have hkind : f.kind = .mark .arrow := (expectAs_eq_ok htoken).1
  have harrow : arrowFollows 0 false f.tokensAhead = true := by
    have hcurrent : f.current.kind = .mark .arrow := hkind
    rw [Cursor.tokensAhead_cons (he.after passage').final (by simp [hkind]), arrowFollows]
    simp [hcurrent]
  have hfirst : Reaches true c e := subpattern_reaches hlevel hc (Or.inl rfl) hpattern
  have hfound : arrowFollows 0 true c.tokensAhead = true :=
    (hfirst.trans (repeatUpTo_reaches hlevel _ he hrest)).trans harrow
  refine ⟨hfound, ?_⟩
  have hstarts : Token.patternStarts.contains c.kind = true := by
    rcases bind_eq_ok.mp hpattern with ⟨kind, _, hseen, hpattern⟩
    have hkind : c.kind = kind := by
      cases hseen
      rfl
    rw [hkind]
    split at hpattern
    · rfl
    · rfl
    · rfl
    · rfl
    · rfl
    · rfl
    · cases hpattern
  rw [mayBeFunction, hstarts, hfound]
  rfl

/-!
## Function literals without looking ahead
-/

/-- A function literal, if one can be read; it is tried in any case. -/
def triedFunction (level : Level) : Parser (Option Expression) := do
  let start <- currentSpan
  let inputs <- speculate (functionInputs level)
  match inputs with
  | none => pure none
  | some inputs =>
      let _ <- skipLineBreaks
      let output <- level.expression 0
      let span <- spanFrom start
      pure (some (.function inputs output span))

theorem speculate_eq_none {A : Account} {α : Type} {least : Nat} {parser : Parser α}
    {script : α -> List Symbol} (hreads : A.Reads least parser script) (hc : A.Fits c)
    (hnever : forall value d, parser c ≠ .ok value d) : speculate parser c = .ok none c := by
  have hreply := ReadsIf.elim hreads hc trivial
  unfold speculate
  cases hparser : parser c with
  | ok value d => exact absurd hparser (hnever value d)
  | error diagnostic d =>
      rw [hparser] at hreply
      rcases hreply with ⟨read, noted, passage, _⟩
      simp only [Cursor.restore_checkpoint passage]
  | fault found =>
      rw [hparser] at hreply
      exact hreply.elim

theorem triedFunction_of_none (h : speculate (functionInputs level) c = .ok none c) :
    triedFunction level c = .ok none c := by
  simp only [triedFunction, currentSpan, look, bind_apply, h]
  rfl

theorem functionLiteral_of_not (h : mayBeFunction c = false) :
    functionLiteral level c = .ok none c := by
  simp only [functionLiteral, currentSpan, look, bind_apply, h]
  rfl

theorem speculate_inputs (room : Nat) (hc : bracketAccount.Fits c)
    (hnever : forall inputs d, functionInputs (Level.ofRoom room) c ≠ .ok inputs d) :
    speculate (functionInputs (Level.ofRoom room)) c = .ok none c := by
  have hreads := functionInputs_reads (Level.keeps_ofPatterns bracketAccount room)
  have hnone : speculate (functionInputs (Level.ofRoom room).ofPatterns) c = .ok none c :=
    speculate_eq_none hreads hc hnever
  exact hnone

theorem functionLiteral_eq_tried (room : Nat) (hc : bracketAccount.Fits c) :
    functionLiteral (Level.ofRoom room) c = triedFunction (Level.ofRoom room) c := by
  cases hworth : mayBeFunction c with
  | true =>
      simp only [functionLiteral, triedFunction, currentSpan, look, bind_apply, hworth]
      rfl
  | false =>
      have hnever : forall inputs d, functionInputs (Level.ofRoom room) c ≠ .ok inputs d := by
        intro inputs d hinputs
        change functionInputs (Level.ofRoom room).ofPatterns c = .ok inputs d at hinputs
        have hworth' := (mayBeFunction_of_inputs (Level.keeps_ofPatterns bracketAccount room) hc
          hinputs).2
        rw [hworth] at hworth'
        cases hworth'
      rw [functionLiteral_of_not hworth, triedFunction_of_none (speculate_inputs room hc hnever)]

end Grammar

theorem Cursor.fits_of_source {source : String} {c : Cursor}
    (h : c.ahead ++ [c.final] <:+ (tokenize source).1) : bracketAccount.Fits c := by
  rcases tokenize_wellFormed source with ⟨body, stop, htokens, hbody⟩
  rw [htokens] at h
  rcases h with ⟨before, h⟩
  rw [← List.append_assoc] at h
  rcases List.append_inj' h rfl with ⟨hahead, hfinal⟩
  constructor
  · intro t ht
    exact (hbody t (by simp [← hahead, ht])).quoted
  · injection hfinal with hfinal _
    rw [hfinal]
    rfl

/-- Looking ahead only saves work.  Wherever reading stands in a source text, and however
many levels are open, a function literal is read, or not read, as if it were tried in any
case, and the cursor is left in the same state.  The search finds an arrow wherever one or
more subpatterns with an arrow behind them can be read. -/
theorem functionLiteral_lookahead (source : String) (room : Nat) (c : Cursor)
    (h : c.ahead ++ [c.final] <:+ (tokenize source).1) :
    Grammar.functionLiteral (Level.ofRoom room) c = Grammar.triedFunction (Level.ofRoom room) c ∧
      forall inputs d, Grammar.functionInputs (Level.ofRoom room) c = .ok inputs d ->
        Grammar.arrowFollows 0 true c.tokensAhead = true := by
  have hc := Cursor.fits_of_source h
  constructor
  · exact Grammar.functionLiteral_eq_tried room hc
  · intro inputs d hinputs
    change Grammar.functionInputs (Level.ofRoom room).ofPatterns c = .ok inputs d at hinputs
    exact (Grammar.mayBeFunction_of_inputs (Level.keeps_ofPatterns bracketAccount room) hc
      hinputs).1

/-- Here the search finds an arrow behind brackets that hold no pattern, and a bracket is
closed that none opened. -/
theorem functionLiteral_lookahead_brackets :
    (Cursor.ofTokens (tokenize "(a + (b)) c -> d)").1).ahead ++
        [(Cursor.ofTokens (tokenize "(a + (b)) c -> d)").1).final] <:+
          (tokenize "(a + (b)) c -> d)").1 ∧
      Grammar.mayBeFunction (Cursor.ofTokens (tokenize "(a + (b)) c -> d)").1) = true ∧
      Grammar.functionLiteral Level.outermost
          (Cursor.ofTokens (tokenize "(a + (b)) c -> d)").1) =
        Grammar.triedFunction Level.outermost
          (Cursor.ofTokens (tokenize "(a + (b)) c -> d)").1) := by
  have hplace : (Cursor.ofTokens (tokenize "(a + (b)) c -> d)").1).ahead ++
      [(Cursor.ofTokens (tokenize "(a + (b)) c -> d)").1).final] <:+
        (tokenize "(a + (b)) c -> d)").1 := by decide +kernel
  exact ⟨hplace, by decide +kernel,
    (functionLiteral_lookahead "(a + (b)) c -> d)" Parser.maxDepth _ hplace).1⟩

end Linewise
