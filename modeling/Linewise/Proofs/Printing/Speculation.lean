import Linewise.Proofs.Reading.Statement
import Linewise.Proofs.Printing.Pattern

/-!
# Expressions that are tried as patterns

A statement that is an expression is first tried as the left side of an
assignment.  The trial may go wrong anywhere inside the brackets of the
expression, but if it gets through them, it stands behind them: the brackets that
it reads are matched, so it cannot pass the one that closes them.  Behind the
brackets stands a line break and no colon.
-/

namespace Linewise

/-!
## Reading inside brackets
-/

def bracketAccount : Account where
  Admits := Token.Quoted
  Ends := fun token => token.kind = .endOfInput
  Holds := fun read _ noted script => noted = [] ∧ forall below,
    Bracket.unwind below (read.map Token.kind) = Bracket.unwind below (Symbol.kinds script)
  quoted := fun h => h
  ends := fun h => h
  nil := fun _ => ⟨rfl, fun _ => rfl⟩
  append := by
    rintro read read' rest noted noted' script script' ⟨hnoted, h⟩ ⟨hnoted', h'⟩
    constructor
    · rw [hnoted, hnoted', List.append_nil]
    · intro below
      rw [List.map_append, Symbol.kinds_append, Bracket.unwind_append, Bracket.unwind_append, h]
      congr 1
      funext stack
      exact h' stack
  silent := by
    intro token rest hsilent
    constructor
    · rfl
    · intro below
      exact Bracket.unwind_plain (by simpa using Bracket.plain_of_isSilent hsilent) below
  word := fun _ _ _ => ⟨rfl, fun _ => rfl⟩
  group := by
    rintro read rest noted before inner hinner ⟨hnoted, h⟩
    exact ⟨hnoted, fun below => (h below).trans (Symbol.unwind_ungroup hinner below)⟩

def Level.ofPatterns (level : Level) : Level where
  statement := fun _ => Parser.tooDeep
  expression := fun _ => Parser.tooDeep
  pattern := level.pattern
  type := level.type

theorem Level.keeps_ofPatterns (A : Account) (room : Nat) :
    (Level.ofRoom room).ofPatterns.Keeps A := by
  induction room with
  | zero =>
      exact
        { statement := fun _ => Account.Reads.tooDeep
          expression := fun _ => Account.Reads.tooDeep
          pattern := Account.Reads.tooDeep
          type := Account.Reads.tooDeep }
  | succ room ih =>
      exact
        { statement := fun _ => Account.Reads.tooDeep
          expression := fun _ => Account.Reads.tooDeep
          pattern := (Grammar.orPattern_reads ih).nested
          type := (Grammar.functionOrNamedType_reads ih).nested }

namespace Cursor

def Crosses (c d : Cursor) : Prop :=
  exists read noted, c.Passage read noted d ∧ Bracket.Matched (read.map Token.kind)

/-- Ahead of `c` stand matched brackets and a token that closes `bracket`, and behind it
what is ahead of `d`. -/
structure Encloses (bracket : Bracket) (c d : Cursor) : Prop where
  ahead : exists inner closing, c.ahead = inner ++ closing :: d.ahead ∧
    Bracket.Matched (inner.map Token.kind) ∧
    (forall t, t ∈ inner -> t.kind ≠ .endOfInput) ∧
    Bracket.step [bracket] closing.kind = some []
  final : d.final = c.final

variable {bracket : Bracket} {c d e : Cursor}

theorem Crosses.refl (c : Cursor) : c.Crosses c := ⟨[], [], Passage.refl c, rfl⟩

theorem Crosses.reads {α : Type} {least : Nat} {pre : Cursor -> Prop} {parser : Parser α}
    {script : α -> List Symbol} {value : α} (h : c.Crosses d) (hc : bracketAccount.Fits c)
    (hreads : bracketAccount.ReadsIf least pre parser script) (hpre : pre d)
    (hbalanced : Symbol.Balanced (script value)) (hok : parser d = .ok value e) :
    c.Crosses e := by
  rcases h with ⟨read, noted, passage, hread⟩
  have hreply := hreads.elim (hc.after passage) hpre
  rw [hok] at hreply
  rcases hreply with ⟨read', noted', passage', _, _, hunwind⟩
  refine ⟨_, _, passage.trans passage', ?_⟩
  rw [Bracket.Matched, List.map_append, Bracket.unwind_append, hread.unwind, Option.bind_some,
    hunwind]
  exact hbalanced

theorem Crosses.leave (h : c.Crosses d) (hc : bracketAccount.Fits c)
    (hkind : Bracket.step [bracket] d.kind = some []) : Encloses bracket c d.advance := by
  rcases h with ⟨read, noted, passage, hread⟩
  have hne : d.kind ≠ .endOfInput := by
    intro hend
    rw [hend] at hkind
    cases hkind
  have hadvance := advance_passage (hc.after passage).final hne
  have hcomments : forall t, t ∈ d.ahead.takeWhile Token.isComment -> isTrivia t = true :=
    fun t ht => isTrivia_of_comments ht
  constructor
  · refine ⟨read ++ d.ahead.takeWhile Token.isComment, d.current, ?_, ?_, ?_, hkind⟩
    · rw [passage.ahead, List.append_assoc, List.append_cancel_left_eq]
      simpa using hadvance.ahead
    · rw [Bracket.Matched, List.map_append, Bracket.unwind_append, hread.unwind,
        Option.bind_some, Bracket.unwind_trivia hcomments]
    · intro t ht
      rcases List.mem_append.mp ht with hmem | hmem
      · exact passage.inside t hmem
      · exact hadvance.inside t (List.mem_append_left _ hmem)
  · rw [hadvance.final, passage.final]

/-- There is only one way to enclose the tokens ahead. -/
theorem Encloses.ahead_eq {inner rest : List Token} {closing : Token}
    (h : Encloses bracket c d) (hahead : c.ahead = inner ++ closing :: rest)
    (hinner : Bracket.Matched (inner.map Token.kind))
    (hcloses : Bracket.step [] closing.kind = none) : d.ahead = rest := by
  rcases h.ahead with ⟨inner', closing', hahead', hinner', _, hclosing'⟩
  have hcloses' := Bracket.step_none_of_closing hclosing'
  -- a bracket that closes one from outside is not among matched brackets
  have hnever : forall {first more : List Token} {token : Token},
      Bracket.Matched (first.map Token.kind) -> Bracket.step [] token.kind = none ->
      ¬ Bracket.Matched ((first ++ token :: more).map Token.kind) := by
    intro first more token hfirst hstep hmatched
    rw [Bracket.Matched, List.map_append, Bracket.unwind_append, hfirst.unwind,
      Option.bind_some, List.map_cons, Bracket.unwind_cons, hstep] at hmatched
    cases hmatched
  rw [hahead'] at hahead
  rcases List.append_eq_append_iff.mp hahead with ⟨more, hmore, hsplit⟩ | ⟨more, hmore, hsplit⟩
  · cases more with
    | nil =>
        injection hsplit
    | cons token more =>
        injection hsplit with htoken _
        rw [hmore, ← htoken] at hinner
        exact absurd hinner (hnever hinner' hcloses')
  · cases more with
    | nil =>
        injection hsplit with _ hrest
        exact hrest.symm
    | cons token more =>
        injection hsplit with htoken _
        rw [hmore, ← htoken] at hinner'
        exact absurd hinner' (hnever hinner hcloses)

end Cursor

/-!
## Patterns in brackets
-/

namespace Grammar

open Linewise.Parser
open Linewise.Account

variable {level : Level} {closing : Token} {rest : List Token} {s c d : Cursor}

theorem expect_leaves {mark : Mark} {bracket : Bracket} {token : Token}
    (hmark : Bracket.step [bracket] (.mark mark) = some []) (hs : bracketAccount.Fits s)
    (h : s.Crosses c) (hok : expect (.mark mark) c = .ok token d) : s.Encloses bracket d := by
  rcases expectAs_eq_ok hok with ⟨hkind, rfl⟩
  exact h.leave hs (by rw [hkind, hmark])

theorem balanced_patterns (patterns : List Pattern) :
    Symbol.Balanced (patterns.flatMap Pattern.script) :=
  Symbol.balanced_composed.flatMap
    (fun pattern _ => pattern.script_composed Symbol.balanced_composed)

theorem enclosedRest_leaves {first : Pattern} {multiline : Bool} {form : Enclosed Pattern}
    (hlevel : level.Keeps bracketAccount) (hs : bracketAccount.Fits s) (h : s.Crosses c)
    (hok : enclosedRest "tuple pattern" [.mark .semicolon] first multiline level.pattern c =
      .ok form d) : s.Encloses .round d := by
  rcases bind_eq_ok.mp hok with ⟨bound, e, hbound, hok⟩
  cases hbound
  rcases bind_eq_ok.mp hok with ⟨⟨separator, later⟩, f, hfound, hok⟩
  rcases bind_eq_ok.mp hok with ⟨token, g, htoken, hok⟩
  have hf := h.reads hs (separated_reads hlevel.pattern semicolon_isSilent _ none multiline)
    (Nat.lt_succ_self _) (balanced_patterns later) hfound
  have hg : s.Encloses .round g := expect_leaves rfl hs hf htoken
  cases separator with
  | none =>
      cases hok
      exact hg
  | some separator =>
      cases hok
      exact hg

theorem enclosed_leaves {form : Enclosed Pattern} (hlevel : level.Keeps bracketAccount)
    (hc : bracketAccount.Fits c.advance)
    (hok : enclosed "tuple pattern" [.mark .semicolon] level.pattern c = .ok form d) :
    c.advance.Encloses .round d := by
  have h := Cursor.Crosses.refl c.advance
  rcases bind_eq_ok.mp hok with ⟨_, e, hopening, hok⟩
  rcases expectAs_eq_ok hopening with ⟨_, rfl⟩
  rcases bind_eq_ok.mp hok with ⟨empty, e, hempty, hok⟩
  cases hempty
  split at hok
  · rename_i hclose
    rcases bind_eq_ok.mp hok with ⟨_, e, hadvance, hok⟩
    cases hadvance
    cases hok
    have hkind : c.advance.kind = .mark .closeParen := by simpa [Cursor.isAt] using hclose
    exact h.leave hc (by rw [hkind]; rfl)
  · rcases bind_eq_ok.mp hok with ⟨multiline, e, hskip, hok⟩
    have he := h.reads hc Reads.skipLineBreaks trivial Symbol.balanced_nil hskip
    rcases bind_eq_ok.mp hok with ⟨kind, f, hkind, hok⟩
    cases hkind
    split at hok
    · rename_i hseparator
      rcases bind_eq_ok.mp hok with ⟨_, f, hadvance, hok⟩
      rcases bind_eq_ok.mp hok with ⟨_, g, hskip', hok⟩
      rcases bind_eq_ok.mp hok with ⟨_, k, hclose, hok⟩
      cases hok
      have hsilent : e.kind.isSilent = true :=
        semicolon_isSilent _ (by simpa using hseparator)
      have hf := he.reads hc (ReadsIf.advanceSilent (fun _ hpre => hpre)) hsilent
        Symbol.balanced_nil hadvance
      have hg := hf.reads hc Reads.skipLineBreaks trivial Symbol.balanced_nil hskip'
      exact expect_leaves rfl hc hg hclose
    · rcases bind_eq_ok.mp hok with ⟨first, f, hfirst, hok⟩
      have hf := he.reads hc hlevel.pattern trivial
        (first.script_composed Symbol.balanced_composed) hfirst
      exact enclosedRest_leaves hlevel hc hf hok

theorem enclosedPattern_stays {start : Span} {form : Enclosed Pattern} {pattern : Pattern}
    (hok : enclosedPattern start form c = .ok pattern d) : d = c := by
  rcases bind_eq_ok.mp hok with ⟨span, e, hspan, hok⟩
  cases hspan
  cases form with
  | unit =>
      cases hok
      rfl
  | group found =>
      cases hok
      rfl
  | sequence separator elements =>
      cases hok
      rfl

theorem parenthesizedPattern_leaves {pattern : Pattern} (hlevel : level.Keeps bracketAccount)
    (hc : bracketAccount.Fits c.advance)
    (hok : parenthesizedPattern level c = .ok pattern d) : c.advance.Encloses .round d := by
  rcases bind_eq_ok.mp hok with ⟨start, e, hstart, hok⟩
  cases hstart
  rcases bind_eq_ok.mp hok with ⟨bare, e, hbare, hok⟩
  cases hbare
  split at hok
  · rcases bind_eq_ok.mp hok with ⟨form, e, hform, hok⟩
    rw [enclosedPattern_stays hok]
    exact enclosed_leaves hlevel hc hform
  · rcases bind_eq_ok.mp hok with ⟨_, e, hopening, hok⟩
    rcases expectAs_eq_ok hopening with ⟨_, rfl⟩
    rcases bind_eq_ok.mp hok with ⟨first, e, hfirst, hok⟩
    have he := (Cursor.Crosses.refl c.advance).reads hc hlevel.pattern trivial
      (first.script_composed Symbol.balanced_composed) hfirst
    rcases bind_eq_ok.mp hok with ⟨annotated, f, hannotated, hok⟩
    cases hannotated
    split at hok
    · rename_i hcolons
      rcases bind_eq_ok.mp hok with ⟨_, f, hadvance, hok⟩
      rcases bind_eq_ok.mp hok with ⟨_, g, hskip, hok⟩
      rcases bind_eq_ok.mp hok with ⟨type, k, htype, hok⟩
      rcases bind_eq_ok.mp hok with ⟨_, l, hclose, hok⟩
      rcases bind_eq_ok.mp hok with ⟨span, _, hspan, hok⟩
      cases hspan
      cases hok
      have hf := he.reads hc (ReadsIf.advanceMark .doubleColon (fun _ hpre => hpre))
        (by simpa [Cursor.isAt] using hcolons) rfl hadvance
      have hg := hf.reads hc Reads.skipLineBreaks trivial Symbol.balanced_nil hskip
      have hk := hg.reads hc hlevel.type trivial
        (type.script_composed Symbol.balanced_composed) htype
      exact expect_leaves rfl hc hk hclose
    · rcases bind_eq_ok.mp hok with ⟨form, f, hform, hok⟩
      rw [enclosedPattern_stays hok]
      exact enclosedRest_leaves hlevel hc he hform

theorem destructurePattern_leaves {pattern : Pattern} (hlevel : level.Keeps bracketAccount)
    (hc : bracketAccount.Fits c.advance) (hok : destructurePattern level c = .ok pattern d) :
    c.advance.Encloses .curly d := by
  rcases bind_eq_ok.mp hok with ⟨_, e, hopening, hok⟩
  rcases expectAs_eq_ok hopening with ⟨_, rfl⟩
  rcases bind_eq_ok.mp hok with ⟨fields, e, hfields, hok⟩
  have hbalanced : Symbol.Balanced (fields.flatMap Pattern.fieldScript) := by
    rw [← Pattern.fieldScripts_eq_flatMap]
    exact Pattern.fieldScripts_composed Symbol.balanced_composed fields
  have he := (Cursor.Crosses.refl c.advance).reads hc
    (Reads.lines (destructureField_reads hlevel)) trivial hbalanced hfields
  split at hok
  · cases hok
  · rcases bind_eq_ok.mp hok with ⟨_, f, hclose, hok⟩
    rcases bind_eq_ok.mp hok with ⟨span, _, hspan, hok⟩
    cases hspan
    cases hok
    exact expect_leaves rfl hc he hclose

/-!
## Units as patterns
-/

open Linewise.Piece

variable {room : Nat} {after : List Piece}

theorem patternOperand_word {piece : Piece} (hstarts : startsExpression piece = true)
    (hsound : piece.IsSound) (hplain : Bracket.plain piece.1 = true) (hafter : Pauses after) :
    Accepts room (patternOperand level) (piece :: after) after (fun _ => True) := by
  rcases piece with ⟨kind, value⟩
  have hlexeme : forall (kind : Kind) (description : String),
      Accepts room (leaf kind description) ((kind, value) :: after) after (fun _ => True) :=
    fun kind description =>
      (Accepts.leaf description { value := value, span := default }).mono (fun _ _ => trivial)
  refine Accepts.look (fun start => Accepts.kind ?_)
  cases kind with
  | mark found =>
      cases found with
      | underscore =>
          refine Accepts.kind (Accepts.bind (Accepts.expect (.mark .underscore, value)) ?_)
          exact fun _ _ => Accepts.pure trivial
      | openParen => cases hplain
      | openCurly => cases hplain
      | _ => cases hstarts
  | lowercaseName =>
      exact Accepts.kind (Accepts.bind (hlexeme _ _) (fun _ _ => Accepts.pure trivial))
  | number => exact Accepts.kind (Accepts.bind (hlexeme _ _) (fun _ _ => Accepts.pure trivial))
  | text =>
      rcases hsound.quoted rfl with ⟨inner, hinner⟩
      have hvalue : value = Symbol.quoted inner := hinner
      rw [hvalue]
      refine Accepts.kind (Accepts.bind (Accepts.text { value := inner, span := default }) ?_)
      exact fun _ _ => Accepts.pure trivial
  | capitalName =>
      apply Accepts.bind (hlexeme _ _)
      intro _ _
      apply Accepts.bind (Accepts.noUnits (fun _ => startsExpression_of_startsPattern) hafter)
      intro _ _
      exact Accepts.look (fun span => Accepts.pure trivial)
  | _ => cases hstarts

theorem fits_of_at {pieces : List Piece} (hc : c.At room pieces) : bracketAccount.Fits c where
  tokens := by
    intro t ht
    exact (hc.sound t.piece (by rw [← hc.ahead]; exact List.mem_map_of_mem ht)).quoted
  ends := hc.final

theorem ahead_of_group {opening closing : Mark} {inner : List Piece}
    (h : Partners opening closing) (hinner : Nested inner)
    (hc : c.At room (between opening closing inner ++ after)) :
    exists tokens token rest, c.advance.ahead = tokens ++ token :: rest ∧
      Bracket.Matched (tokens.map Token.kind) ∧ Bracket.step [] token.kind = none ∧
      rest.map Token.piece = after := by
  rw [between, List.cons_append, List.append_assoc, List.singleton_append] at hc
  have hadvance := hc.advance
  rcases List.map_eq_append_iff.mp hadvance.ahead with ⟨tokens, behind, hahead, htokens, hbehind⟩
  rcases List.map_eq_cons_iff.mp hbehind with ⟨token, rest, hsplit, htoken, hrest⟩
  have hkind : token.kind = .mark closing := congrArg Prod.fst htoken
  refine ⟨tokens, token, rest, ?_, ?_, ?_, hrest⟩
  · rw [hahead, hsplit]
  · have hmatched := hinner.matched
    rw [← htokens, List.map_map] at hmatched
    exact hmatched
  · rw [hkind]
    cases h <;> rfl

theorem patternOperand_leads {pieces : List Piece} {pattern : Pattern}
    (hlevel : level.Keeps bracketAccount) (hunit : IsUnit startsExpression pieces)
    (hafter : Pauses after) (hc : c.At room (pieces ++ after))
    (hok : patternOperand level c = .ok pattern d) : d.ahead.map Token.piece = after := by
  cases hunit with
  | atom hstarts hsound hplain =>
      rcases patternOperand_word hstarts hsound hplain hafter c hc with ⟨value, e, hvalue, he, _⟩
      rw [hok] at hvalue
      cases hvalue
      exact he.ahead
  | @group opening closing inner h hinner =>
      rcases ahead_of_group h hinner hc with
        ⟨tokens, token, rest, hahead, hmatched, hcloses, hrest⟩
      have hkind : c.kind = .mark opening := hc.kind_eq
      have hfits : bracketAccount.Fits c.advance := by
        have hadvance := Cursor.advance_passage (fits_of_at hc).final (by simp [hkind])
        exact (fits_of_at hc).after hadvance
      rcases bind_eq_ok.mp hok with ⟨start, e, hstart, hok⟩
      cases hstart
      rcases bind_eq_ok.mp hok with ⟨kind, e, hkind', hok⟩
      cases hkind'
      rw [hkind] at hok
      cases h with
      | round =>
          rcases bind_eq_ok.mp hok with ⟨kind, e, hkind', hok⟩
          cases hkind'
          rw [hkind] at hok
          rw [(parenthesizedPattern_leaves hlevel hfits hok).ahead_eq hahead hmatched hcloses]
          exact hrest
      | curly =>
          rcases bind_eq_ok.mp hok with ⟨kind, e, hkind', hok⟩
          cases hkind'
          rw [hkind] at hok
          rw [(destructurePattern_leaves hlevel hfits hok).ahead_eq hahead hmatched hcloses]
          exact hrest

theorem kind_of_lineBreak {rest : List Piece} (h : c.ahead.map Token.piece = lineBreak :: rest) :
    c.kind = .lineBreak := by
  rcases List.map_eq_cons_iff.mp h with ⟨token, more, hahead, htoken, _⟩
  have hkind : token.kind = .lineBreak := congrArg Prod.fst htoken
  simp [Cursor.kind, Cursor.current, Cursor.significant, hahead, Token.isComment, hkind]

theorem repeatWhile_stays {α : Type} {more : Cursor -> Bool} {item : Parser α}
    {values : List α} (hmore : more c = false) (hok : repeatWhile more item c = .ok values d) :
    d = c := by
  unfold repeatWhile at hok
  cases hbound : c.ahead.length with
  | zero =>
      simp only [hbound, repeatUpTo, hmore] at hok
      cases hok
      rfl
  | succ bound =>
      simp only [hbound, repeatUpTo, hmore] at hok
      cases hok
      rfl

theorem orPattern_leads {pieces rest : List Piece} {pattern : Pattern}
    (hlevel : level.Keeps bracketAccount) (hunit : IsUnit startsExpression pieces)
    (hc : c.At room (pieces ++ lineBreak :: rest)) (hok : orPattern level c = .ok pattern d) :
    d.ahead.map Token.piece = lineBreak :: rest := by
  rcases bind_eq_ok.mp hok with ⟨start, e, hstart, hok⟩
  cases hstart
  rcases bind_eq_ok.mp hok with ⟨first, e, hfirst, hok⟩
  have he := patternOperand_leads hlevel hunit pauses_lineBreak hc hfirst
  rcases bind_eq_ok.mp hok with ⟨later, f, hlater, hok⟩
  have hor : atOr e = false := by simp [atOr, Cursor.isAt, kind_of_lineBreak he]
  cases repeatWhile_stays hor hlater
  cases hok
  exact he

theorem assignmentHead_fails {pieces rest : List Piece}
    (hunit : IsUnit startsExpression pieces)
    (hc : c.At room (pieces ++ lineBreak :: rest)) :
    exists diagnostic d read noted,
      assignmentHead (Level.ofRoom room) c = .error diagnostic d ∧ c.Passage read noted d := by
  have hreply := ReadsIf.elim (assignmentHead_reads (Level.keeps_ofPatterns bracketAccount room))
    (fits_of_at hc) trivial
  change (assignmentHead (Level.ofRoom room) c).Satisfies _ _ at hreply
  cases hok : assignmentHead (Level.ofRoom room) c with
  | fault found =>
      rw [hok] at hreply
      exact hreply.elim
  | error diagnostic d =>
      rw [hok] at hreply
      rcases hreply with ⟨read, noted, passage, _⟩
      exact ⟨diagnostic, d, read, noted, rfl, passage⟩
  | ok found d =>
      rcases bind_eq_ok.mp hok with ⟨target, e, htarget, hok⟩
      rcases bind_eq_ok.mp hok with ⟨_, f, hcolon, _⟩
      rcases bind_eq_ok.mp htarget with ⟨start, g, hstart, htarget⟩
      cases hstart
      rcases bind_eq_ok.mp htarget with ⟨first, g, hfirst, htarget⟩
      rcases bind_eq_ok.mp htarget with ⟨later, k, hlater, htarget⟩
      have hsame : e.ahead = k.ahead := by
        split at htarget
        · cases htarget
          rfl
        · rcases bind_eq_ok.mp htarget with ⟨span, _, hspan, htarget⟩
          cases hspan
          cases htarget
          rfl
      cases room with
      | zero => cases hfirst
      | succ room =>
          rcases nested_eq_ok hfirst with ⟨l, depth, hl, hlevel⟩
          have hahead : g.ahead = l.ahead := by rw [hlevel]
          have hbreak := orPattern_leads (Level.keeps_ofPatterns bracketAccount room) hunit
            hc.deeper hl
          rw [← hahead] at hbreak
          cases repeatWhile_stays (by simp [Cursor.isAt, kind_of_lineBreak hbreak]) hlater
          rw [← hsame] at hbreak
          have hkind := (expectAs_eq_ok hcolon).1
          rw [kind_of_lineBreak hbreak] at hkind
          cases hkind

end Grammar
end Linewise
