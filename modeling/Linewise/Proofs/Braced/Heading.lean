import Linewise.Proofs.Carrying.Parentheses
import Linewise.Proofs.Origin.Header
import Linewise.Proofs.Precedence.Climbing
import Linewise.Proofs.Progress.Rule

/-!
# Statements that begin with a name and a colon

Whether a statement assigns to a plain variable is seen from its first tokens: a name,
possibly in parentheses, and a colon behind it.  A pattern is the only rule that reads these
tokens as a variable, and where they stand every other rule comes to the colon and stops in
front of it.
-/

namespace Linewise

/-!
## Headings
-/

/-- The tokens begin with a name, which may stand in parentheses, and go on with the rest. -/
inductive Heading : List Token -> Lexeme -> List Token -> Prop where
  | bare {token : Token} {rest : List Token} :
      token.kind = .lowercaseName -> Heading (token :: rest) token.toLexeme rest
  | enclosed {opening closing : Token} {inner rest : List Token} {name : Lexeme} :
      opening.kind = .mark .openParen -> Heading inner name (closing :: rest) ->
      closing.kind = .mark .closeParen -> Heading (opening :: inner) name rest

def Token.EndsName (token : Token) : Prop :=
  token.kind = .mark .colon ∨ token.kind = .mark .closeParen

namespace Token.EndsName

variable {token : Token}

theorem ne_of {kind : Kind} (h : token.EndsName) (hcolon : kind ≠ .mark .colon)
    (hclose : kind ≠ .mark .closeParen) : token.kind ≠ kind := by
  rcases h with hkind | hkind
  · rw [hkind]
    exact hcolon.symm
  · rw [hkind]
    exact hclose.symm

theorem startsExpression (h : token.EndsName) : token.startsExpression = false := by
  rcases h with hkind | hkind <;> simp [Token.startsExpression, expressionStarts, hkind]

theorem operator? (h : token.EndsName) : token.operator? = none := by
  rcases h with hkind | hkind <;> simp only [Token.operator?, hkind] <;> rfl

end Token.EndsName

namespace Heading

variable {tokens rest : List Token} {name : Lexeme}

theorem starts (h : Heading tokens name rest) :
    exists first more, tokens = first :: more ∧
      (first.kind = .lowercaseName ∧ more = rest ∨ first.kind = .mark .openParen) := by
  cases h with
  | bare hname => exact ⟨_, _, rfl, Or.inl ⟨hname, rfl⟩⟩
  | enclosed hopen _ _ => exact ⟨_, _, rfl, Or.inr hopen⟩

theorem append (h : Heading tokens name rest) (more : List Token) :
    Heading (tokens ++ more) name (rest ++ more) := by
  induction h with
  | bare hname => exact bare hname
  | enclosed hopen _ hclose ih => exact enclosed hopen ih hclose

theorem of_append {first more : List Token} {border follower : Token}
    (h : Heading (first ++ border :: more) name (follower :: rest))
    (hfollower : follower.EndsName) (hname : border.kind ≠ .lowercaseName)
    (hopen : border.kind ≠ .mark .openParen) (hends : ¬ border.EndsName) :
    exists later, Heading first name (follower :: later) ∧ rest = later ++ border :: more := by
  -- What ends a name is not the border, so it stands in front of it.
  have hfront : forall {front behind : List Token} {token : Token}, token.EndsName ->
      front ++ border :: more = token :: behind ->
      exists later, front = token :: later ∧ behind = later ++ border :: more := by
    intro front behind token htoken hsame
    rcases List.append_eq_cons_iff.mp hsame with ⟨_, hborder⟩ | hlater
    · cases hborder
      exact absurd htoken hends
    · exact hlater
  induction first generalizing follower rest with
  | nil =>
      cases h with
      | bare hkind => exact absurd hkind hname
      | enclosed hkind _ _ => exact absurd hkind hopen
  | cons token first ih =>
      generalize hbehind : follower :: rest = behind at h
      cases h with
      | bare hkind =>
          rcases hfront hfollower hbehind.symm with ⟨later, rfl, hrest⟩
          exact ⟨later, bare hkind, hrest⟩
      | enclosed hkind hinner hclose =>
          rcases ih hinner (Or.inr hclose) with ⟨behind, hinner, hsame⟩
          rcases hfront hfollower (hsame.symm.trans hbehind.symm) with ⟨later, rfl, hrest⟩
          exact ⟨later, enclosed hkind hinner hclose, hrest⟩

end Heading

/-!
## Cursors in front of tokens
-/

namespace Cursor

structure Sees (c : Cursor) (tokens : List Token) : Prop where
  ahead : c.tokensAhead = tokens
  final : c.final.kind = .endOfInput

namespace Sees

variable {c d : Cursor} {tokens rest : List Token} {token : Token}

theorem deeper (h : c.Sees tokens) (depth : Nat) : Sees { c with depth := depth } tokens :=
  ⟨h.ahead, h.final⟩

theorem current (h : c.Sees (token :: rest)) : c.current = token := by
  have hhead := c.head?_tokensAhead
  rw [h.ahead] at hhead
  exact (Option.some.inj hhead).symm

theorem kind (h : c.Sees (token :: rest)) : c.kind = token.kind :=
  congrArg Token.kind h.current

theorem cons (h : c.Sees tokens) (hkind : c.kind ≠ .endOfInput) :
    exists rest, tokens = c.current :: rest ∧ c.advance.Sees rest :=
  ⟨_, by rw [← h.ahead, tokensAhead_cons h.final hkind], rfl,
    (advance_passage h.final hkind).final ▸ h.final⟩

theorem advance (h : c.Sees (token :: rest)) (htoken : token.kind ≠ .endOfInput) :
    c.advance.Sees rest := by
  rcases h.cons (h.kind ▸ htoken) with ⟨_, hcons, hrest⟩
  rw [(List.cons.inj hcons).2]
  exact hrest

theorem peek {next : Token} (h : c.Sees (token :: next :: rest))
    (htoken : token.kind ≠ .endOfInput) : c.peek = next := by
  rw [← current_advance h.final (h.kind ▸ htoken)]
  exact (h.advance htoken).current

end Sees

end Cursor

/-!
## Forms in parentheses
-/

namespace Grammar

open Linewise.Parser
open Linewise.Account

section Parentheses

variable {α : Type} {construct : String} {separators : List Kind} {element : Parser α}
  {c d : Cursor}

theorem repeatWhile_eq_nil {more : Cursor -> Bool} {item : Parser α}
    (h : repeatWhile more item c = .ok [] d) : d = c := by
  by_cases hmore : more c = true
  · unfold repeatWhile at h
    cases hbound : c.ahead.length with
    | zero => simp [hbound, repeatUpTo, hmore] at h
    | succ bound =>
        rw [hbound, repeatUpTo_more hmore] at h
        rcases bind_eq_ok.mp h with ⟨first, e, _, hrest⟩
        rcases bind_eq_ok.mp hrest with ⟨rest, f, _, hpure⟩
        cases hpure
  · exact repeatWhile_stays (by simpa using hmore) h

theorem separated_eq_none {bound : Nat} {separator : Option Kind} {multiline : Bool}
    {rest : List α}
    (h : separated construct separators element bound separator multiline c =
      .ok (none, rest) d) : multiline = false ∧ d = c := by
  cases bound with
  | zero => cases h
  | succ bound =>
      rw [separated, currentKind_bind] at h
      split at h
      · -- A separator that is found is the one that is given.
        split at h
        · cases h
        · rcases bind_eq_ok.mp h with ⟨_, _, _, h⟩
          rcases bind_eq_ok.mp h with ⟨skipped, _, _, h⟩
          rcases bind_eq_ok.mp h with ⟨closed, _, _, h⟩
          split at h
          · cases h
          · rcases bind_eq_ok.mp h with ⟨next, _, _, h⟩
            rcases bind_eq_ok.mp h with ⟨⟨last, later⟩, _, hlater, hpure⟩
            cases hpure
            have hsome := separated_isSome hlater (Or.inl rfl)
            cases hsome
      · split at h
        · rename_i hclosed
          cases h
          exact ⟨by simpa using (Bool.and_eq_true_iff.mp hclosed).2, rfl⟩
        · cases h

theorem enclosedRest_eq_group {first value : α} {multiline : Bool}
    (h : enclosedRest construct separators first multiline element c = .ok (.group value) d) :
    multiline = false ∧ value = first ∧ c.kind = .mark .closeParen ∧ d = c.advance := by
  rw [enclosedRest, look_bind] at h
  rcases bind_eq_ok.mp h with ⟨⟨separator, rest⟩, e, hseparated, h⟩
  rcases bind_eq_ok.mp h with ⟨closing, _, hclosing, h⟩
  cases separator with
  | some separator => cases h
  | none =>
      rcases separated_eq_none hseparated with ⟨hmultiline, rfl⟩
      rcases expectAs_eq_ok hclosing with ⟨hkind, rfl⟩
      cases h
      exact ⟨hmultiline, rfl, hkind, rfl⟩

theorem enclosed_eq_group {value : α}
    (h : enclosed construct separators element c = .ok (.group value) d) :
    c.kind = .mark .openParen ∧ exists e, element c.advance = .ok value e ∧
      e.kind = .mark .closeParen ∧ d = e.advance := by
  rcases bind_eq_ok.mp h with ⟨opening, _, hopening, h⟩
  rcases expectAs_eq_ok hopening with ⟨hkind, rfl⟩
  rw [isAt_bind] at h
  split at h
  · rcases bind_eq_ok.mp h with ⟨_, _, _, h⟩
    cases h
  · rcases bind_eq_ok.mp h with ⟨multiline, _, hmultiline, h⟩
    cases hmultiline
    rw [currentKind_bind] at h
    split at h
    · rcases bind_eq_ok.mp h with ⟨_, _, _, h⟩
      rcases bind_eq_ok.mp h with ⟨_, _, _, h⟩
      rcases bind_eq_ok.mp h with ⟨_, _, _, h⟩
      cases h
    · rcases bind_eq_ok.mp h with ⟨first, e, hfirst, h⟩
      rcases enclosedRest_eq_group h with ⟨hsingle, rfl, hclose, rfl⟩
      rw [Cursor.skipLineBreaks_of_ne (by simpa [Cursor.isAt] using hsingle)] at hfirst
      exact ⟨hkind, e, hfirst, hclose, rfl⟩

end Parentheses

variable {level : Level} {room : Nat} {comments : List Lexeme} {c d : Cursor} {name : Lexeme}

/-!
## From a variable to its heading
-/

theorem joinAlternatives_eq_variable {first : Pattern} {rest : List (Pattern × Span)}
    (h : joinAlternatives first rest = .variable name) : first = .variable name ∧ rest = [] := by
  rcases List.eq_nil_or_concat rest with rfl | ⟨front, last, rfl⟩
  · exact ⟨h, rfl⟩
  · rw [joinAlternatives, List.concat_eq_append, List.foldl_append] at h
    cases h

theorem enclosedPattern_eq_variable {start : Span} {form : Enclosed Pattern}
    (h : enclosedPattern start form c = .ok (.variable name) d) :
    form = .group (.variable name) ∧ d = c := by
  cases form with
  | group pattern =>
      cases h
      exact ⟨rfl, rfl⟩
  | unit => cases h
  | sequence separator elements => cases h

theorem parenthesizedPattern_eq_variable
    (h : parenthesizedPattern level c = .ok (.variable name) d) :
    c.kind = .mark .openParen ∧ exists e, level.pattern c.advance = .ok (.variable name) e ∧
      e.kind = .mark .closeParen ∧ d = e.advance := by
  rw [parenthesizedPattern, currentSpan_bind, look_bind] at h
  split at h
  · rcases bind_eq_ok.mp h with ⟨form, e, hform, h⟩
    rcases enclosedPattern_eq_variable h with ⟨rfl, rfl⟩
    exact enclosed_eq_group hform
  · rcases bind_eq_ok.mp h with ⟨opening, _, hopening, h⟩
    rcases expectAs_eq_ok hopening with ⟨hkind, rfl⟩
    rcases bind_eq_ok.mp h with ⟨first, e, hfirst, h⟩
    rw [isAt_bind] at h
    split at h
    · iterate 5
        rcases bind_eq_ok.mp h with ⟨_, _, _, h⟩
      cases h
    · rcases bind_eq_ok.mp h with ⟨form, f, hform, h⟩
      rcases enclosedPattern_eq_variable h with ⟨rfl, rfl⟩
      rcases enclosedRest_eq_group hform with ⟨_, rfl, hclose, rfl⟩
      exact ⟨hkind, e, hfirst, hclose, rfl⟩

theorem subpattern_eq_variable (h : subpattern level c = .ok (.variable name) d) :
    (c.kind = .lowercaseName ∧ name = c.current.toLexeme ∧ d = c.advance) ∨
      parenthesizedPattern level c = .ok (.variable name) d := by
  rw [subpattern, currentKind_bind] at h
  generalize c.kind = kind at h ⊢
  split at h
  · rcases bind_eq_ok.mp h with ⟨_, _, _, h⟩
    cases h
  · rcases bind_eq_ok.mp h with ⟨found, _, hfound, h⟩
    rcases bind_eq_ok.mp hfound with ⟨token, _, htoken, hpure⟩
    cases h
    cases hpure
    rw [current_of_expectAs htoken]
    exact Or.inl ⟨rfl, rfl, (expectAs_eq_ok htoken).2⟩
  · rcases bind_eq_ok.mp h with ⟨_, _, _, h⟩
    cases h
  · rcases bind_eq_ok.mp h with ⟨_, _, _, h⟩
    cases h
  · rcases bind_eq_ok.mp h with ⟨opening, _, _, h⟩
    rcases bind_eq_ok.mp h with ⟨fields, _, _, h⟩
    split at h
    · cases h
    · rcases bind_eq_ok.mp h with ⟨_, _, _, h⟩
      rcases bind_eq_ok.mp h with ⟨_, _, _, h⟩
      cases h
  · exact Or.inr h
  · cases h

theorem patternOperand_eq_variable (h : patternOperand level c = .ok (.variable name) d) :
    subpattern level c = .ok (.variable name) d := by
  rw [patternOperand, currentSpan_bind, currentKind_bind] at h
  generalize c.kind = kind at h
  split at h
  · iterate 3
      rcases bind_eq_ok.mp h with ⟨_, _, _, h⟩
    cases h
  · iterate 3
      rcases bind_eq_ok.mp h with ⟨_, _, _, h⟩
    cases h
  · exact h

theorem orPattern_eq_variable (h : orPattern level c = .ok (.variable name) d) :
    patternOperand level c = .ok (.variable name) d := by
  rw [orPattern, currentSpan_bind] at h
  rcases bind_eq_ok.mp h with ⟨first, e, hfirst, h⟩
  rcases bind_eq_ok.mp h with ⟨rest, _, hrest, h⟩
  rcases Reply.ok.inj h with ⟨hjoined, rfl⟩
  rcases joinAlternatives_eq_variable hjoined with ⟨rfl, rfl⟩
  rw [repeatWhile_eq_nil hrest]
  exact hfirst

theorem heading_of_pattern {tokens : List Token} (hc : c.Sees tokens)
    (h : (Level.ofRoom room).pattern c = .ok (.variable name) d) :
    exists rest, d.Sees rest ∧ Heading tokens name rest := by
  induction room generalizing c d tokens with
  | zero => cases h
  | succ room ih =>
      rcases nested_eq_ok h with ⟨e, depth, he, rfl⟩
      have hinner := hc.deeper (c.depth + 1)
      rcases subpattern_eq_variable (patternOperand_eq_variable (orPattern_eq_variable he)) with
        ⟨hkind, rfl, rfl⟩ | he
      · rcases hinner.cons (by simp [hkind]) with ⟨rest, rfl, hrest⟩
        exact ⟨rest, hrest.deeper depth, .bare hkind⟩
      · rcases parenthesizedPattern_eq_variable he with ⟨hopen, f, hf, hclose, rfl⟩
        rcases hinner.cons (by simp [hopen]) with ⟨inner, rfl, hbehind⟩
        rcases ih hbehind hf with ⟨behind, hsees, hheading⟩
        rcases hsees.cons (by simp [hclose]) with ⟨rest, rfl, hrest⟩
        exact ⟨rest, hrest.deeper depth, .enclosed hopen hheading hclose⟩

theorem pattern_eq_variable (h : pattern level c = .ok (.variable name) d) :
    level.pattern c = .ok (.variable name) d := by
  rw [pattern, currentSpan_bind] at h
  rcases bind_eq_ok.mp h with ⟨first, e, hfirst, h⟩
  rcases bind_eq_ok.mp h with ⟨rest, f, hrest, h⟩
  split at h
  · rename_i hempty
    cases h
    rw [List.isEmpty_iff.mp hempty] at hrest
    rw [repeatWhile_eq_nil hrest]
    exact hfirst
  · rcases bind_eq_ok.mp h with ⟨_, _, _, h⟩
    cases h

theorem assignmentHead_eq_ok {target : Pattern} (h : assignmentHead level c = .ok target d) :
    exists e, pattern level c = .ok target e ∧ e.kind = .mark .colon := by
  rcases bind_eq_ok.mp h with ⟨found, e, hfound, h⟩
  rcases bind_eq_ok.mp h with ⟨colon, _, hcolon, h⟩
  cases h
  exact ⟨e, hfound, (expectAs_eq_ok hcolon).1⟩

theorem assignmentOrExpression_eq_assignment {start : Span} {target : Pattern}
    {value : Expression} {span : Span}
    (h : assignmentOrExpression level start c = .ok (.assignment target value span) d) :
    exists e, assignmentHead level c = .ok target e := by
  rcases bind_eq_ok.mp h with ⟨target', e, htarget, h⟩
  cases target' with
  | some target' =>
      iterate 3
        rcases bind_eq_ok.mp h with ⟨_, _, _, h⟩
      cases h
      exact ⟨e, speculate_eq_some htarget⟩
  | none =>
      iterate 2
        rcases bind_eq_ok.mp h with ⟨_, _, _, h⟩
      cases h

theorem statement_eq_assignment {target : Pattern} {value : Expression} {span : Span}
    (hfinal : c.final.kind = .endOfInput)
    (h : statement level comments c = .ok (.assignment target value span) d) :
    exists e, assignmentHead level c = .ok target e := by
  rw [statement, currentSpan_bind] at h
  rcases bind_eq_ok.mp h with ⟨attributes, e, hattributes, h⟩
  rw [isAt_bind] at h
  split at h
  · cases instanceDefinition_header _ _ _ h
  · rcases bind_eq_ok.mp h with ⟨head, f, hhead, h⟩
    cases head with
    | some head =>
        rcases bind_eq_ok.mp h with ⟨isType, _, _, h⟩
        split at h
        · cases typeDefinition_header _ _ _ h
        · cases traitDefinition_header _ _ _ h
    | none =>
        dsimp only at h
        rw [plainStatement, look_bind] at h
        split at h
        · cases constantDefinition_header _ _ _ h
        · split at h
          · rename_i hempty
            rcases assignmentOrExpression_eq_assignment h with ⟨g, hg⟩
            have hnone : attributes = [] := List.isEmpty_iff.mp hempty
            rw [hnone] at hattributes
            rw [repeatWhile_eq_nil hattributes] at hhead
            have hfits : (Tracing.idle c.ahead).Fits c := ⟨List.suffix_refl _, hfinal⟩
            have hsame : f = c :=
              definitionHead?_tries (E := Excuse.unquotedText).eq_of_none hfits hhead
            exact ⟨g, hsame ▸ hg⟩
          · cases h

/-!
## From a heading to its variable
-/

section Headed

variable {tokens rest : List Token} {follower : Token} {found : Pattern}

theorem not_follower_of_heading (hheading : Heading tokens name rest) (hc : c.Sees tokens) :
    c.kind ∉ Element.followers := by
  rcases hheading.starts with ⟨first, more, rfl, hfirst⟩
  rw [hc.kind]
  rcases hfirst with ⟨hkind, _⟩ | hkind <;> rw [hkind] <;> decide

theorem patternOperand_bare (h : c.kind = .lowercaseName) :
    patternOperand level c = .ok (.variable c.current.toLexeme) c.advance := by
  have hname : variableName c = .ok c.current.toLexeme c.advance :=
    bind_of_ok (expectAs_of_kind h _)
  rw [patternOperand, currentSpan_bind, currentKind_bind, h]
  change subpattern level c = _
  rw [subpattern, currentKind_bind, h]
  exact bind_of_ok hname

theorem pattern_of_operand (hfollower : follower.EndsName)
    (hoperand : forall {room c d found}, c.Sees tokens ->
      patternOperand (Level.ofRoom room) c = .ok found d ->
        found = .variable name ∧ d.Sees (follower :: rest))
    (hc : c.Sees tokens) (hok : (Level.ofRoom room).pattern c = .ok found d) :
    found = .variable name ∧ d.Sees (follower :: rest) := by
  cases room with
  | zero => cases hok
  | succ room =>
      rcases nested_eq_ok hok with ⟨e, depth, hor, rfl⟩
      rw [orPattern, currentSpan_bind] at hor
      rcases bind_eq_ok.mp hor with ⟨first, f, hfirst, hor⟩
      rcases bind_eq_ok.mp hor with ⟨later, _, hlater, hjoined⟩
      rcases hoperand (hc.deeper (c.depth + 1)) hfirst with ⟨rfl, hf⟩
      have hstops : atOr f = false := by simp [atOr, Cursor.isAt, hf.kind, hfollower.ne_of]
      rw [repeatWhile, repeatUpTo_stop hstops] at hlater
      cases hlater
      cases hjoined
      exact ⟨rfl, hf.deeper depth⟩

theorem patternOperand_of_heading (hheading : Heading tokens name (follower :: rest))
    (hfollower : follower.EndsName) (hc : c.Sees tokens)
    (hok : patternOperand (Level.ofRoom room) c = .ok found d) :
    found = .variable name ∧ d.Sees (follower :: rest) := by
  generalize hbehind : follower :: rest = behind at hheading
  induction hheading generalizing follower rest room c d found with
  | bare hname =>
      rw [patternOperand_bare (hc.kind.trans hname), hc.current] at hok
      cases hok
      exact ⟨rfl, hbehind ▸ hc.advance (by simp [hname])⟩
  | enclosed hopen hinner hclose ih =>
      have hinside := hc.advance (by simp [hopen])
      have hfilled := not_opensWithoutElement (hc.kind.trans hopen)
        (not_follower_of_heading hinner hinside) hc.final
      rw [patternOperand_enclosed (hc.kind.trans hopen), parenthesizedPattern, currentSpan_bind,
        look_bind, hfilled] at hok
      rcases bind_eq_ok.mp hok with ⟨_, _, hopening, hok⟩
      rcases expectAs_eq_ok hopening with ⟨_, rfl⟩
      rcases bind_eq_ok.mp hok with ⟨first, e, hfirst, hok⟩
      rcases pattern_of_operand (Or.inr hclose)
        (fun hc hok => ih (Or.inr hclose) hc hok rfl) hinside hfirst with ⟨rfl, he⟩
      have hkind := he.kind.trans hclose
      rw [isAt_bind, Cursor.isAt, hkind] at hok
      rcases bind_eq_ok.mp hok with ⟨form, f, hform, hok⟩
      rw [enclosedRest_group (by decide) hkind] at hform
      cases hform
      cases hok
      exact ⟨rfl, hbehind ▸ he.advance (by simp [hclose])⟩

theorem arrowFollows_heading (h : Heading tokens name rest) (depth : Nat) (first : Bool) :
    arrowFollows (depth + 1) first tokens = arrowFollows (depth + 1) false rest := by
  induction h generalizing depth first with
  | bare hname => simp [arrowFollows, hname]
  | enclosed hopen _ hclose ih =>
      rw [arrowFollows_opening _ first (Or.inl hopen), ih,
        arrowFollows_closing _ (Or.inl hclose)]

theorem not_mayBeFunction (hheading : Heading tokens name (follower :: rest))
    (hfollower : follower.EndsName) (hc : c.Sees tokens) : mayBeFunction c = false := by
  have hstops : arrowFollows 0 false (follower :: rest) = false := by
    rcases hfollower with hkind | hkind <;>
      simp [arrowFollows, hkind, Token.startsPattern, Token.patternStarts]
  rw [mayBeFunction, hc.ahead]
  generalize hbehind : follower :: rest = behind at hheading
  cases hheading with
  | bare hname => simp [arrowFollows, hname, ← hbehind, hstops]
  | enclosed hopen hinner hclose =>
      rw [arrowFollows_opening 0 true (Or.inl hopen), arrowFollows_heading hinner,
        arrowFollows_closing 0 (Or.inl hclose), ← hbehind, hstops, Bool.and_false]

variable {least : Nat} {value : Expression}

theorem expression_of_operand (hheading : Heading tokens name (follower :: rest))
    (hfollower : follower.EndsName)
    (hoperand : forall {room c d value}, c.Sees tokens ->
      operand (Level.ofRoom room) c = .ok value d -> d.Sees (follower :: rest))
    (hc : c.Sees tokens) (hok : (Level.ofRoom room).expression least c = .ok value d) :
    d.Sees (follower :: rest) := by
  cases room with
  | zero => cases hok
  | succ room =>
      rcases nested_eq_ok hok with ⟨e, depth, hbinary, rfl⟩
      have hinner := hc.deeper (c.depth + 1)
      rw [binaryExpression, currentSpan_bind,
        bind_of_ok (functionLiteral_of_not (not_mayBeFunction hheading hfollower hinner))]
        at hbinary
      rcases bind_eq_ok.mp hbinary with ⟨first, f, hfirst, hbinary⟩
      have hf := hoperand hinner hfirst
      have hstops : atOperator least f = false := by
        rw [atOperator, hf.current, hfollower.operator?]
      rcases bind_eq_ok.mp hbinary with ⟨later, _, hlater, happlied⟩
      cases repeatWhile_stays hstops hlater
      cases happlied
      exact hf.deeper depth

theorem operand_eq_call (h : c.kind = .lowercaseName ∨ c.kind = .mark .openParen) :
    operand level c = callExpression level c.current.span c := by
  rw [operand, currentSpan_bind, currentKind_bind]
  rcases h with hkind | hkind <;> rw [hkind]

theorem operand_of_subexpression (hheading : Heading tokens name (follower :: rest))
    (hfollower : follower.EndsName)
    (hsubexpression : forall {value d}, subexpression level c = .ok value d ->
      d.Sees (follower :: rest))
    (hc : c.Sees tokens) (hok : operand level c = .ok value d) : d.Sees (follower :: rest) := by
  have hkind : c.kind = .lowercaseName ∨ c.kind = .mark .openParen := by
    rcases hheading.starts with ⟨first, more, rfl, hfirst⟩
    rw [hc.kind]
    exact hfirst.imp And.left id
  rw [operand_eq_call hkind, callExpression, isAt_bind] at hok
  rcases bind_eq_ok.mp hok with ⟨head, e, hhead, hok⟩
  have he := hsubexpression hhead
  rw [look_bind, he.current, hfollower.startsExpression] at hok
  cases hok
  exact he

theorem subexpression_of_heading (hheading : Heading tokens name (follower :: rest))
    (hc : c.Sees tokens) (hok : subexpression (Level.ofRoom room) c = .ok value d) :
    d.Sees (follower :: rest) := by
  generalize hbehind : follower :: rest = behind at hheading
  induction hheading generalizing follower rest room c d value with
  | bare hname =>
      rw [subexpression, currentKind_bind, hc.kind.trans hname] at hok
      rcases bind_eq_ok.mp hok with ⟨lexeme, _, hlexeme, hok⟩
      rcases leaf_eq_ok hlexeme with ⟨_, rfl⟩
      cases hok
      exact hbehind ▸ hc.advance (by simp [hname])
  | enclosed hopen hinner hclose ih =>
      have hinside := hc.advance (by simp [hopen])
      have hkind := hc.kind.trans hopen
      rw [subexpression, currentKind_bind, hkind] at hok
      rcases bind_eq_ok.mp hok with ⟨start, _, hstart, hok⟩
      cases hstart
      rcases bind_eq_ok.mp hok with ⟨form, e, hform, hok⟩
      rw [enclosed_eq_rest hkind (not_follower_of_heading hinner hinside) (by decide)] at hform
      rcases bind_eq_ok.mp hform with ⟨first, f, hfirst, hrest⟩
      have hf := expression_of_operand hinner (Or.inr hclose)
        (fun hc => operand_of_subexpression hinner (Or.inr hclose) (fun hok => ih hc hok rfl) hc)
        hinside hfirst
      rw [enclosedRest_group (by decide) (hf.kind.trans hclose)] at hrest
      cases hrest
      cases hok
      exact hbehind ▸ hf.advance (by simp [hclose])

theorem expression_of_heading (hheading : Heading tokens name (follower :: rest))
    (hfollower : follower.EndsName) (hc : c.Sees tokens)
    (hok : (Level.ofRoom room).expression least c = .ok value d) : d.Sees (follower :: rest) :=
  expression_of_operand hheading hfollower
    (fun hc => operand_of_subexpression hheading hfollower
      (fun hok => subexpression_of_heading hheading hc hok) hc) hc hok

theorem statement_of_heading (hheading : Heading tokens name (follower :: rest))
    (hcolon : follower.kind = .mark .colon) (hc : c.Sees tokens) :
    statement level comments c = assignmentOrExpression level c.current.span c := by
  have hkind : c.kind = .lowercaseName ∧ c.peek.kind = .mark .colon ∨
      c.kind = .mark .openParen := by
    rcases hheading.starts with ⟨first, more, rfl, ⟨hfirst, rfl⟩ | hfirst⟩
    · rw [hc.kind, hc.peek (by simp [hfirst])]
      exact Or.inl ⟨hfirst, hcolon⟩
    · exact Or.inr (hc.kind.trans hfirst)
  have hattributes : attributes c = .ok [] c :=
    repeatUpTo_stop (by rcases hkind with ⟨hkind, _⟩ | hkind <;> simp [Cursor.isAt, hkind]) _
  have hinstance : c.isAt (.reserved .instanceWord) = false := by
    rcases hkind with ⟨hkind, _⟩ | hkind <;> simp [Cursor.isAt, hkind]
  have hpossible : atPair .capitalName (.mark .colon) c = false := by
    rcases hkind with ⟨hkind, _⟩ | hkind <;> simp [atPair, Cursor.isAt, hkind]
  have hconstant : atPair .lowercaseName (.mark .doubleColon) c = false := by
    rcases hkind with ⟨_, hpeek⟩ | hkind
    · simp [atPair, hpeek]
    · simp [atPair, Cursor.isAt, hkind]
  have hhead : definitionHead? c = .ok none c := by
    rw [definitionHead?, look_bind, hpossible]
    rfl
  rw [statement, currentSpan_bind, bind_of_ok hattributes, isAt_bind, hinstance,
    if_neg (by simp), bind_of_ok hhead]
  dsimp only
  rw [plainStatement, look_bind, hconstant]
  rfl

/-- With a heading in front of a colon nothing is read but an assignment to the variable: an
expression would stop in front of the colon, which cannot follow it. -/
theorem assignment_of_heading {start : Span} {found : Statement}
    (hheading : Heading tokens name (follower :: rest)) (hcolon : follower.kind = .mark .colon)
    (hc : c.Sees tokens) (hends : d.kind ≠ .mark .colon)
    (hok : assignmentOrExpression (Level.ofRoom room) start c = .ok found d) :
    exists value span, found = .assignment (.variable name) value span := by
  rcases bind_eq_ok.mp hok with ⟨target, e, htarget, hok⟩
  cases target with
  | some target =>
      rcases assignmentHead_eq_ok (speculate_eq_some htarget) with ⟨f, hpattern, _⟩
      rw [pattern, currentSpan_bind] at hpattern
      rcases bind_eq_ok.mp hpattern with ⟨first, g, hfirst, hpattern⟩
      rcases pattern_of_operand (Or.inl hcolon)
        (fun hc hok => patternOperand_of_heading hheading (Or.inl hcolon) hc hok) hc hfirst with
        ⟨rfl, hg⟩
      have hstops : g.isAt (.mark .semicolon) = false := by
        simp [Cursor.isAt, hg.kind, hcolon]
      rcases bind_eq_ok.mp hpattern with ⟨later, _, hlater, hpattern⟩
      rw [repeatWhile, repeatUpTo_stop hstops] at hlater
      cases hlater
      cases hpattern
      rcases bind_eq_ok.mp hok with ⟨_, _, _, hok⟩
      rcases bind_eq_ok.mp hok with ⟨value, _, _, hok⟩
      cases hok
      exact ⟨value, _, rfl⟩
  | none =>
      have hfits : (Tracing.idle c.ahead).Fits c := ⟨List.suffix_refl _, hc.final⟩
      have hsame : e = c :=
        (assignmentHead_proceeds (@proceeds_idle c.ahead room)).eq_of_speculate hfits htarget
      rcases bind_eq_ok.mp hok with ⟨value, f, hvalue, hok⟩
      rw [hsame, expression, currentSpan_bind] at hvalue
      rcases bind_eq_ok.mp hvalue with ⟨first, g, hfirst, hvalue⟩
      have hg := expression_of_heading hheading (Or.inl hcolon) hc hfirst
      rw [currentKind_bind, hg.kind, hcolon] at hvalue
      cases hvalue
      cases hok
      exact absurd (hg.kind.trans hcolon) hends

end Headed

/-- A statement that was read to the end of its line assigns to a plain variable exactly if it
begins with a name, which may stand in parentheses, and a colon behind it. -/
theorem heading_iff_assignment {read : List Token} {noted : List Diagnostic} {found : Statement}
    (hfinal : c.final.kind = .endOfInput) (passage : c.Passage read noted d)
    (hok : statementLine (Level.ofRoom room) (.mark .closeCurly) comments c = .ok found d) :
    (exists colon rest, Heading (read.filter (fun token => !token.isComment)) name
        (colon :: rest) ∧ colon.kind = .mark .colon) <->
      exists value span, found = .assignment (.variable name) value span := by
  rcases statementLine_eq_ok hok with ⟨hstatement, hends⟩
  have hsees : c.Sees (read.filter (fun token => !token.isComment) ++ d.tokensAhead) := by
    refine ⟨?_, hfinal⟩
    rw [Cursor.tokensAhead, passage.ahead, List.filter_append, List.append_assoc,
      ← passage.final, Cursor.tokensAhead]
  have hborder : d.kind = .lineBreak ∨ d.kind = .mark .closeCurly ∨ d.kind = .endOfInput := by
    rcases hends with hkind | hlist
    · exact Or.inl hkind
    · simpa [atListEnd, Cursor.hasTokens, Cursor.isAt] using Or.inr hlist
  have hname : d.current.kind ≠ .lowercaseName := by
    change d.kind ≠ _
    rcases hborder with hkind | hkind | hkind <;> simp [hkind]
  have hopen : d.current.kind ≠ .mark .openParen := by
    change d.kind ≠ _
    rcases hborder with hkind | hkind | hkind <;> simp [hkind]
  have hfollows : ¬ d.current.EndsName := by
    change ¬ (d.kind = _ ∨ d.kind = _)
    rcases hborder with hkind | hkind | hkind <;> simp [hkind]
  cases room with
  | zero => cases hstatement
  | succ room =>
      rcases nested_eq_ok hstatement with ⟨e, depth, hstatement, hd⟩
      have hinner := hsees.deeper (c.depth + 1)
      -- A heading decides which rule reads the line; conversely the assignment that was read tells
      -- how its first tokens were taken.
      constructor
      · rintro ⟨colon, rest, hheading, hcolon⟩
        have hlonger := hheading.append d.tokensAhead
        rw [statement_of_heading hlonger hcolon hinner] at hstatement
        apply assignment_of_heading hlonger hcolon hinner _ hstatement
        have hsame : e.kind = d.kind := by
          rw [hd]
          rfl
        rw [hsame]
        rcases hborder with hkind | hkind | hkind <;> simp [hkind]
      · rintro ⟨value, span, rfl⟩
        rcases statement_eq_assignment hinner.final hstatement with ⟨f, hhead⟩
        rcases assignmentHead_eq_ok hhead with ⟨g, hpattern, hcolon⟩
        rcases heading_of_pattern hinner (pattern_eq_variable hpattern) with
          ⟨behind, hbehind, hheading⟩
        rcases hbehind.cons (by simp [hcolon]) with ⟨rest, rfl, _⟩
        rcases List.head?_eq_some_iff.mp d.head?_tokensAhead with ⟨more, hmore⟩
        rw [hmore] at hheading
        rcases hheading.of_append (Or.inl hcolon) hname hopen hfollows with ⟨later, hlater, _⟩
        exact ⟨_, later, hlater, hcolon⟩

end Grammar

end Linewise
