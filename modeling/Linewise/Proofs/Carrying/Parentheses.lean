import Linewise.Proofs.Carrying.Enclosure
import Linewise.Proofs.Nesting.Confinement
import Linewise.Proofs.Sequence.Layout

/-!
# Redundant parentheses

Expressions, patterns and types may stand in parentheses.  Each of the three has its own
rule for what a parenthesis opens: an expression is first searched for an arrow, a pattern
is read before it is known whether a type follows, and a type name in parentheses takes no
parameters.  Main statement: parentheses around a whole element change nothing, as long as
there is room for one more level.
-/

namespace Linewise

def Sublanguage.Node : Sublanguage -> Type
  | .expression => Expression
  | .pattern => Pattern
  | .type => TypeExpr

/-- The rule for the elements of a sublanguage. -/
def Level.element (level : Level) : (language : Sublanguage) -> Parser language.Node
  | .expression => level.expression 0
  | .pattern => level.pattern
  | .type => level.type

namespace Grammar

open Linewise.Parser

def elementBody (level : Level) : (language : Sublanguage) -> Parser language.Node
  | .expression => binaryExpression level 0
  | .pattern => orPattern level
  | .type => functionOrNamedType level

theorem element_around (level : Level) (language : Sublanguage) :
    (Level.around level).element language = nested (elementBody level language) := by
  cases language <;> rfl

theorem element_approximates {level level' : Level} (h : level.Approximates level')
    (language : Sublanguage) : (level.element language).Approximates (level'.element language) := by
  cases language with
  | expression => exact h.expression 0
  | pattern => exact h.pattern
  | type => exact h.type

theorem element_carries {P : Pairing} {level : Level} {k : Nat} {S : List Bracket}
    (h : level.Carries P k) (language : Sublanguage) :
    P.Carries false ⟨false, S, k⟩ (fun _ => True) (level.element language)
      (fun _ => ⟨false, S, k⟩) := by
  cases language with
  | expression => exact h.expression 0
  | pattern => exact h.pattern
  | type => exact h.type

/-!
## The first token
-/

variable {room : Nat} {level : Level} {c d e : Cursor}

theorem begins_of_subtype {value : TypeExpr} (hok : subtype level c = .ok value d) :
    c.kind ∈ Token.typeStarts := by
  rcases bind_eq_ok.mp hok with ⟨kind, e, hseen, hok⟩
  have hkind : c.kind = kind := by
    cases hseen
    rfl
  rw [hkind]
  split at hok
  all_goals first | decide | cases hok

theorem begins_of_subpattern {value : Pattern} (hok : subpattern level c = .ok value d) :
    c.kind ∈ Token.patternStarts := by
  rcases bind_eq_ok.mp hok with ⟨kind, e, hseen, hok⟩
  have hkind : c.kind = kind := by
    cases hseen
    rfl
  rw [hkind]
  split at hok
  all_goals first | decide | cases hok

theorem not_follower_of_type {value : TypeExpr}
    (hok : functionOrNamedType level c = .ok value d) : c.kind ∉ Element.followers := by
  have hnever : forall kind, kind ∈ Token.typeStarts -> kind ∉ Element.followers := by decide
  rcases bind_eq_ok.mp hok with ⟨start, _, hstart, hok⟩
  cases hstart
  rcases bind_eq_ok.mp hok with ⟨bare, _, hbare, hok⟩
  cases hbare
  rcases bind_eq_ok.mp hok with ⟨first, _, hfirst, _⟩
  exact hnever _ (begins_of_subtype hfirst)

theorem not_follower_of_pattern {value : Pattern} (hok : orPattern level c = .ok value d) :
    c.kind ∉ Element.followers := by
  have hnever : forall kind, kind ∈ Token.patternStarts -> kind ∉ Element.followers := by decide
  rcases bind_eq_ok.mp hok with ⟨start, _, hstart, hok⟩
  cases hstart
  rcases bind_eq_ok.mp hok with ⟨first, _, hfirst, _⟩
  rcases bind_eq_ok.mp hfirst with ⟨start, _, hstart, hfirst⟩
  cases hstart
  rcases bind_eq_ok.mp hfirst with ⟨kind, f, hseen, hfirst⟩
  have hkind : c.kind = kind := by
    cases hseen
    rfl
  have hsame : f = c := by
    cases hseen
    rfl
  rw [hsame] at hfirst
  split at hfirst
  · rw [hkind]
    decide
  · rw [hkind]
    decide
  · exact hnever _ (begins_of_subpattern hfirst)

theorem not_follower_of_element {language : Sublanguage} {node : language.Node}
    (hok : (Level.ofRoom room).element language c = .ok node d) :
    c.kind ∉ Element.followers := by
  cases room with
  | zero => cases language <;> cases hok
  | succ room =>
      cases language with
      | expression => exact not_follower_of_expression hok
      | pattern =>
          rcases nested_eq_ok hok with ⟨e, _, hok, _⟩
          exact not_follower_of_pattern (c := { c with depth := c.depth + 1 }) hok
      | type =>
          rcases nested_eq_ok hok with ⟨e, _, hok, _⟩
          exact not_follower_of_type (c := { c with depth := c.depth + 1 }) hok

/-!
## A single element in parentheses
-/

section Group

variable {α : Type} {construct : String} {separators : List Kind} {element : Parser α} {value : α}

theorem enclosedRest_group (hseparators : Kind.mark .closeParen ∉ separators)
    (hclose : e.kind = .mark .closeParen) :
    enclosedRest construct separators value false element e = .ok (.group value) e.advance := by
  have hseparated : separated construct separators element (e.ahead.length + 1) none false e =
      .ok (none, []) e := by
    rw [separated, currentKind_bind, hclose, if_neg (by simpa using hseparators),
      if_pos (by simp)]
    rfl
  rw [enclosedRest, look_bind, bind_of_ok hseparated]
  dsimp only
  rw [bind_of_ok (expect_of_kind hclose)]
  rfl

theorem patternOperand_enclosed (h : c.kind = .mark .openParen) :
    patternOperand level c = parenthesizedPattern level c := by
  rw [patternOperand, currentSpan_bind, currentKind_bind, h]
  change subpattern level c = _
  rw [subpattern, currentKind_bind, h]

section First

variable (hopen : c.kind = .mark .openParen) (hfirst : c.advance.kind ∉ Element.followers)

include hopen hfirst

theorem enclosed_eq_rest (hseparators : forall kind, kind ∈ separators ->
      kind = .mark .semicolon ∨ kind = .mark .comma) :
    enclosed construct separators element c =
      (element >>= fun first => enclosedRest construct separators first false element)
        c.advance := by
  have hne : forall {kind}, kind ∈ Element.followers -> c.advance.kind ≠ kind :=
    fun hfollows hkind => hfirst (hkind ▸ hfollows)
  have hfilled : c.advance.isAt (.mark .closeParen) = false := by
    simp [Cursor.isAt, hne (show Kind.mark .closeParen ∈ Element.followers by decide)]
  have hbreak : c.advance.kind ≠ .lineBreak := hne (by decide)
  have hskip : skipLineBreaks c.advance = .ok false c.advance := by
    rw [skipLineBreaks, Cursor.skipLineBreaks_of_ne hbreak]
    simp [Cursor.isAt, hbreak]
  have hplain : ¬ separators.contains c.advance.kind = true := by
    intro hseparator
    rcases hseparators _ (by simpa using hseparator) with hkind | hkind
    · exact hne (by decide) hkind
    · exact hne (by decide) hkind
  rw [enclosed, bind_of_ok (expect_of_kind hopen), isAt_bind, hfilled, if_neg (by simp),
    bind_of_ok hskip, currentKind_bind, if_neg hplain]

theorem not_opensWithoutElement (hfinal : c.final.kind = .endOfInput) :
    opensWithoutElement c = false := by
  have hpeek := Cursor.current_advance hfinal (show c.kind ≠ .endOfInput by simp [hopen])
  have hkind : c.peek.kind ∉ Element.followers := by
    rw [← hpeek]
    exact hfirst
  have hfollows : forall kind, [Kind.mark .closeParen, .lineBreak, .mark .semicolon].contains
      kind = true -> kind ∈ Element.followers := by
    intro kind hmem
    simp only [List.contains_eq_mem, List.mem_cons, List.not_mem_nil, or_false,
      decide_eq_true_eq] at hmem
    rcases hmem with rfl | rfl | rfl <;> decide
  rw [opensWithoutElement, ← Bool.not_eq_true]
  exact fun hopens => hkind (hfollows _ hopens)

end First

variable (hopen : c.kind = .mark .openParen) (hfirst : c.advance.kind ∉ Element.followers)
  (hclose : e.kind = .mark .closeParen)

include hopen hfirst hclose

theorem enclosed_group (hseparators : forall kind, kind ∈ separators ->
      kind = .mark .semicolon ∨ kind = .mark .comma)
    (hread : element c.advance = .ok value e) :
    enclosed construct separators element c = .ok (.group value) e.advance := by
  have hclosing : Kind.mark .closeParen ∉ separators := by
    intro hmem
    rcases hseparators _ hmem with hkind | hkind <;> cases hkind
  rw [enclosed_eq_rest hopen hfirst hseparators, bind_of_ok hread]
  exact enclosedRest_group hclosing hclose

theorem type_group {type : TypeExpr} (hread : level.type c.advance = .ok type e)
    (hend : e.advance.kind = .endOfInput) :
    functionOrNamedType level c = .ok type e.advance := by
  have hsubtype : subtype level c = .ok type e.advance := by
    rw [subtype, currentKind_bind, hopen]
    dsimp only
    rw [parenthesizedType, currentSpan_bind,
      bind_of_ok (enclosed_group hopen hfirst hclose (by simp) hread)]
    rfl
  have hover : subtypes level e.advance = .ok [] e.advance :=
    repeatUpTo_stop (not_startsType_of_end hend) _
  have harrow : e.advance.isAt (.mark .arrow) = false := by simp [Cursor.isAt, hend]
  rw [functionOrNamedType, currentSpan_bind, isAt_bind, bind_of_ok hsubtype, bind_of_ok hover,
    isAt_bind, harrow]
  rfl

theorem pattern_group {pattern : Pattern} (hfinal : c.final.kind = .endOfInput)
    (hread : level.pattern c.advance = .ok pattern e)
    (hend : e.advance.kind = .endOfInput) :
    orPattern level c = .ok pattern e.advance := by
  have hplain := not_opensWithoutElement hopen hfirst hfinal
  have hannotated : e.isAt (.mark .doubleColon) = false := by simp [Cursor.isAt, hclose]
  have hparenthesized : parenthesizedPattern level c = .ok pattern e.advance := by
    rw [parenthesizedPattern, currentSpan_bind, look_bind, hplain, if_neg (by simp),
      bind_of_ok (expect_of_kind hopen), bind_of_ok hread, isAt_bind, hannotated,
      if_neg (by simp), bind_of_ok (enclosedRest_group (by simp) hclose)]
    rfl
  have hoperand : patternOperand level c = .ok pattern e.advance := by
    rw [patternOperand_enclosed hopen]
    exact hparenthesized
  have hor : atOr e.advance = false := by simp [atOr, Cursor.isAt, hend]
  have hover : repeatWhile atOr (alternative level c.current.span) e.advance =
      .ok [] e.advance := repeatUpTo_stop hor _
  rw [orPattern, currentSpan_bind, bind_of_ok hoperand, bind_of_ok hover]
  rfl

theorem expression_group {expression : Expression} (hworth : mayBeFunction c = false)
    (hread : level.expression 0 c.advance = .ok expression e)
    (hend : e.advance.kind = .endOfInput) :
    binaryExpression level 0 c = .ok expression e.advance := by
  have hsubexpression : subexpression level c = .ok expression e.advance := by
    rw [subexpression, currentKind_bind, hopen]
    dsimp only
    rw [parenthesizedExpression, currentSpan_bind,
      bind_of_ok (enclosed_group hopen hfirst hclose separators_separate hread)]
    rfl
  have hoperand : operand level c = .ok expression e.advance := by
    rw [operand, currentSpan_bind, currentKind_bind, hopen]
    dsimp only
    rw [callExpression, isAt_bind, bind_of_ok hsubexpression, look_bind,
      not_startsExpression_of_end hend]
    rfl
  have hover : repeatWhile (atOperator 0) (continuation level c.current.span) e.advance =
      .ok [] e.advance := repeatUpTo_stop (not_atOperator_of_end hend) _
  rw [binaryExpression, currentSpan_bind, bind_of_ok (functionLiteral_of_not hworth)]
  dsimp only
  rw [bind_of_ok hoperand, bind_of_ok hover]
  rfl

theorem element_group {language : Sublanguage} {node : language.Node}
    (hfinal : c.final.kind = .endOfInput) (hworth : mayBeFunction c = false)
    (hread : level.element language c.advance = .ok node e)
    (hend : e.advance.kind = .endOfInput) :
    elementBody level language c = .ok node e.advance := by
  cases language with
  | expression => exact expression_group hopen hfirst hclose hworth hread hend
  | pattern => exact pattern_group hopen hfirst hclose hfinal hread hend
  | type => exact type_group hopen hfirst hclose hread hend

end Group

/-!
## The token in front
-/

theorem eq_of_aligned {S : List Bracket} {k : Bool}
    (h : c.Aligned .identity [] ⟨.settled, S, k⟩ d) : d = c := by
  have hahead : d.ahead = c.ahead :=
    h.ahead.trans (Relabelling.map_identity Token.relabel_identity _)
  have herrors : d.errors = c.errors :=
    h.errors.trans (Relabelling.map_identity Diagnostic.relabel_identity _)
  have hprevious : d.previous = c.previous := h.previous.same (by simp)
  have hfinal : d.final = c.final := h.final
  have hdepth : d.depth = c.depth := h.depth
  cases c
  cases d
  simp only [Cursor.mk.injEq]
  exact ⟨hahead, hfinal, hprevious, herrors, hdepth⟩

theorem eq_ok_of_tracks {α : Type} {lax : Bool} {move : α -> α} {parser : Parser α} {value : α}
    (htracks : (Correspondence.aligned .identity rfl []).Tracks lax [] ⟨.expecting, [], false⟩
      (fun _ => True) parser parser (fun _ => ⟨.settled, [], false⟩) move)
    (hmove : forall value, move value = value) (hfits : plainRecovery.Fits c) (previous : Span)
    (hok : parser c = .ok value d) : parser { c with previous := previous } = .ok value d := by
  have haligned : c.Aligned .identity [] ⟨.expecting, [], false⟩
      { c with previous := previous } :=
    ⟨hfits, (Relabelling.map_identity Token.relabel_identity _).symm, rfl, rfl,
      (Relabelling.map_identity Diagnostic.relabel_identity _).symm, Or.inl ⟨rfl, Or.inl rfl⟩⟩
  have hreplies := htracks c _ haligned trivial
  rw [hok] at hreplies
  generalize parser { c with previous := previous } = reply at hreplies
  cases hreplies with
  | ok twin => rw [hmove, eq_of_aligned twin]
  | lost _ hlossy => exact hlossy.elim

theorem element_previous {language : Sublanguage} {node : language.Node}
    (hfits : plainRecovery.Fits c) (previous : Span)
    (hok : (Level.ofRoom room).element language c = .ok node d) :
    (Level.ofRoom room).element language { c with previous := previous } = .ok node d := by
  have htracks := tracks_ofRoom (Correspondence.aligned .identity rfl []) room
  cases language with
  | expression =>
      exact eq_ok_of_tracks (htracks.expression 0) Expression.relabel_identity hfits previous hok
  | pattern => exact eq_ok_of_tracks htracks.pattern Pattern.relabel_identity hfits previous hok
  | type => exact eq_ok_of_tracks htracks.type TypeExpr.relabel_identity hfits previous hok

/-!
## Whole elements
-/

section Whole

variable {language : Sublanguage} {node : language.Node} {body : List Token}
  {opening closing last : Token}

theorem matched_of_element (hroom : room <= maxDepth) (hlast : last.kind = .endOfInput)
    (hbody : forall t, t ∈ body -> t.Quoted ∧ t.kind ≠ .endOfInput)
    (hok : (Level.ofRoom room).element language (Cursor.opening body last) = .ok node d)
    (hend : d.kind = .endOfInput) (hclean : d.errors = []) :
    Bracket.Matched (body.map Token.kind) ∧ d.significant = [] := by
  have hcarries : (Pairing.unwound body).Carries false ⟨false, [], 0⟩ (fun _ => True)
      ((Level.ofRoom room).element language) (fun _ => ⟨false, [], 0⟩) :=
    element_carries (carries_ofRoom _ room (by simpa [Pairing.unwound] using hroom)) language
  have hstart : (Cursor.opening body last).Unwound body ⟨false, [], 0⟩ :=
    ⟨Cursor.fits_opening hlast (fun t ht => (hbody t ht).1), rfl, [], rfl, rfl⟩
  have hreply := hcarries.replies (c := Cursor.opening body last) ⟨rfl, hstart⟩ trivial
  rw [hok] at hreply
  rcases hreply (Or.inr hclean) with ⟨d', _, _, hunwound⟩
  rcases hunwound.read with ⟨read, htext, hread⟩
  have hdone : d.significant = [] := by
    cases hs : d.significant with
    | nil => rfl
    | cons token rest =>
        have hmem : token ∈ body := by
          rw [htext]
          exact List.mem_append_right read (Cursor.mem_ahead_of_significant hs)
        rw [Cursor.kind, Cursor.current_eq hs] at hend
        exact absurd hend (hbody token hmem).2
  refine ⟨?_, hdone⟩
  have hcomments := d.ahead_eq_significant
  rw [hdone, List.append_nil] at hcomments
  rw [Bracket.Matched, htext, List.map_append, Bracket.unwind_append, hread, Option.bind_some,
    hcomments, Bracket.unwind_trivia (fun t ht => Cursor.isTrivia_of_comments ht)]

theorem element_enclosed (hclosing : closing.kind = .mark .closeParen)
    (hlast : last.kind = .endOfInput) (hroom : c.depth + room < maxDepth)
    (hfits : plainRecovery.Fits c) (hmatched : Bracket.Matched (c.ahead.map Token.kind))
    (hok : (Level.ofRoom room).element language c = .ok node d) (hclean : d.errors = c.errors) :
    (Level.ofRoom room).element language
        { c with ahead := c.ahead ++ [closing], final := last, depth := c.depth + 1 } =
      .ok node { d with ahead := d.ahead ++ [closing], final := last, depth := c.depth + 1 } := by
  have hcarries : (Pairing.enclosed closing last hclosing hlast).Carries false
      ⟨false, [], c.depth⟩ (fun _ => True) ((Level.ofRoom room).element language)
      (fun _ => ⟨false, [], c.depth⟩) :=
    element_carries (carries_ofRoom _ room hroom) language
  have htwin : Cursor.Enclosed closing last ⟨false, [], c.depth⟩ c
      { c with ahead := c.ahead ++ [closing], final := last, depth := c.depth + 1 } :=
    ⟨hfits, rfl, hmatched, rfl⟩
  have hreply := hcarries.replies htwin trivial
  rw [hok] at hreply
  rcases hreply (Or.inr hclean) with ⟨e, he, htwin'⟩
  have henclosed : Cursor.Enclosed closing last ⟨false, [], c.depth⟩ d e := htwin'
  have hdepth : d.depth = c.depth := henclosed.depth
  rw [he, henclosed.same, hdepth]

theorem mayBeFunction_enclosed (hopening : opening.kind = .mark .openParen)
    (hclosing : closing.kind = .mark .closeParen) (hfinal : c.final.kind = .endOfInput)
    (hinside : forall t, t ∈ body -> t.kind ≠ .endOfInput)
    (hmatched : Bracket.Matched (body.map Token.kind))
    (hahead : c.ahead = opening :: (body ++ [closing])) : mayBeFunction c = false := by
  have htokens : c.tokensAhead =
      opening :: (body.filter (fun token => !token.isComment) ++ [closing, c.final]) := by
    have hopens : opening.isComment = false := by simp [Token.isComment, hopening]
    have hcloses : closing.isComment = false := by simp [Token.isComment, hclosing]
    simp [Cursor.tokensAhead, hahead, hopens, hcloses]
  have hpassed := arrowFollows_unwind 0 [closing, c.final] hmatched hinside
  have hnone : arrowFollows 0 true c.tokensAhead = false := by
    rw [htokens, arrowFollows, hopening]
    dsimp only
    rw [show 0 + 1 = counted [] + 0 + 1 from rfl, hpassed]
    simp [arrowFollows, hclosing, hfinal]
  rw [mayBeFunction, hnone, Bool.and_false]

theorem element_surrounded (hroom : room < maxDepth) {last' : Token}
    (hopening : opening.kind = .mark .openParen) (hclosing : closing.kind = .mark .closeParen)
    (hlast : last.kind = .endOfInput) (hlast' : last'.kind = .endOfInput)
    (hbody : forall t, t ∈ body -> t.Quoted ∧ t.kind ≠ .endOfInput)
    (hok : (Level.ofRoom room).element language (Cursor.opening body last) = .ok node d)
    (hend : d.kind = .endOfInput) (hclean : d.errors = []) :
    exists e, (Level.ofRoom (room + 1)).element language
        (Cursor.opening (opening :: (body ++ [closing])) last') = .ok node e ∧
      e.ahead = [] ∧ e.errors = [] := by
  have hopens : opening.kind.isSolid = true := by
    rw [hopening]
    rfl
  have hfits : plainRecovery.Fits (Cursor.opening body last) :=
    Cursor.fits_opening hlast (fun t ht => (hbody t ht).1)
  rcases matched_of_element (Nat.le_of_lt hroom) hlast hbody hok hend hclean with
    ⟨hmatched, hdone⟩
  -- the two readings meet behind the parenthesis that opens
  let outer : Cursor := { Cursor.opening (opening :: (body ++ [closing])) last' with depth := 1 }
  have hopen : outer.kind = .mark .openParen := by
    rw [Cursor.kind_cons rfl hopens, hopening]
  have hread : (Level.ofRoom room).element language outer.advance =
      .ok node { d with ahead := d.ahead ++ [closing], final := last', depth := 1 } := by
    rw [Cursor.advance_cons (c := outer) rfl hopens]
    exact element_enclosed (c := { Cursor.opening body last with previous := opening.span })
      hclosing hlast' (by simpa [Cursor.opening] using hroom) ⟨hfits.tokens, hfits.ends⟩ hmatched
      (element_previous hfits opening.span hok) hclean
  have hfirst := not_follower_of_element hread
  generalize hbehind : ({ d with ahead := d.ahead ++ [closing], final := last', depth := 1 } :
    Cursor) = e at hread
  have hsignificant : e.significant = [closing] := by
    have hcomment : closing.isComment = false := by simp [Token.isComment, hclosing]
    rw [← hbehind, Cursor.significant, Cursor.dropWhile_concat hcomment]
    exact congrArg (fun tokens => tokens ++ [closing]) hdone
  have hcurrent : e.current = closing := Cursor.current_eq hsignificant
  have hclose : e.kind = .mark .closeParen := by rw [Cursor.kind, hcurrent, hclosing]
  have hadvance : e.advance =
      { e with ahead := [], previous := Cursor.spanAfter e.previous e.current } :=
    Cursor.advance_eq (by rw [hsignificant, hcurrent]) (by simp [hclose])
  have hover : e.advance.kind = .endOfInput := by
    apply Cursor.kind_of_ahead_nil
    · rw [hadvance, ← hbehind]
      exact hlast'
    · rw [hadvance]
  have hworth : mayBeFunction outer = false :=
    mayBeFunction_enclosed hopening hclosing hlast' (fun t ht => (hbody t ht).2) hmatched rfl
  have hgroup := element_group hopen hfirst hclose hlast' hworth hread hover
  have hdepth : e.advance.depth = 1 := by rw [hadvance, ← hbehind]
  have hnested := nested_of_ok (c := Cursor.opening (opening :: (body ++ [closing])) last')
    (by decide : 0 < maxDepth) hdepth hgroup
  rw [Level.ofRoom, element_around]
  refine ⟨_, hnested, ?_, ?_⟩
  · rw [hadvance]
  · rw [hadvance, ← hbehind]
    exact hclean

theorem element_confined (more : Nat)
    (h : forall fault, (Level.confined room).element language c ≠ .fault fault) :
    (Level.ofRoom (more + room)).element language c =
      (Level.confined room).element language c := by
  rcases element_approximates (approximates_ofRoom room more) language c with
    hsame | ⟨fault, hfault⟩
  · exact hsame
  · exact absurd hfault (h fault)

end Whole

end Grammar

open Grammar in
/-- Redundant parentheses are transparent.  Let the tokens of a text be read to their end as
one element, without a diagnostic and without opening the last level that may be opened.
In parentheses the same tokens are read to their end again, and give the same tree. -/
theorem element_in_parentheses (language : Sublanguage) (node : language.Node)
    (body : List Token) (opening closing last last' : Token) (d : Cursor)
    (hopening : opening.kind = .mark .openParen) (hclosing : closing.kind = .mark .closeParen)
    (hlast : last.kind = .endOfInput) (hlast' : last'.kind = .endOfInput)
    (hbody : forall t, t ∈ body -> t.Quoted ∧ t.kind ≠ .endOfInput)
    (hread : Level.outermost.element language (Cursor.ofTokens (body ++ [last])) = .ok node d)
    (hend : d.kind = .endOfInput) (hclean : d.errors = [])
    (hspares : forall fault, (Level.confined (Parser.maxDepth - 1)).element language
      (Cursor.ofTokens (body ++ [last])) ≠ .fault fault) :
    exists e, Level.outermost.element language
        (Cursor.ofTokens (opening :: body ++ [closing, last'])) = .ok node e ∧
      e.ahead = [] ∧ e.errors = [] := by
  have hsplit :
      opening :: body ++ [closing, last'] = opening :: (body ++ [closing]) ++ [last'] := by
    simp
  rw [hsplit, Cursor.ofTokens_append hlast']
  rw [Cursor.ofTokens_append hlast] at hread hspares
  -- the last level is never opened, so it may be left away
  have hspared : (Level.ofRoom (Parser.maxDepth - 1)).element language
      (Cursor.opening body last) = .ok node d := by
    have hnone := element_confined 0 hspares
    rw [Nat.zero_add] at hnone
    rw [hnone, ← element_confined 1 hspares]
    exact hread
  exact element_surrounded (by decide) hopening hclosing hlast hlast' hbody hspared hend hclean

namespace Sample

def square : List Token :=
  [token .lowercaseName 1 "x", token (.mark .arrow) 3 "->", token .lowercaseName 6 "x",
    token (.mark .star) 8 "*", token .lowercaseName 10 "x"]

def leftParen : Token := token (.mark .openParen) 0 "("

def rightParen : Token := token (.mark .closeParen) 11 ")"

def complete {α : Type} : Reply α -> Bool
  | .ok _ cursor => cursor.isAt .endOfInput && cursor.errors.isEmpty
  | _ => false

theorem exists_of_complete {α : Type} {reply : Reply α} (h : complete reply = true) :
    exists value d, reply = .ok value d ∧ d.kind = .endOfInput ∧ d.errors = [] := by
  cases reply with
  | ok value d =>
      simp only [complete, Bool.and_eq_true, Cursor.isAt, beq_iff_eq, List.isEmpty_iff] at h
      exact ⟨value, d, rfl, h⟩
  | error diagnostic d => cases h
  | fault fault => cases h

end Sample

/-- The function `x -> x * x` is the same with and without parentheses. -/
theorem element_in_parentheses_square :
    exists (function : Expression) (d e : Cursor), d.errors = [] ∧ e.errors = [] ∧
      Level.outermost.element .expression
        (Cursor.ofTokens (Sample.square ++ [Token.endAt 11])) = .ok function d ∧
      Level.outermost.element .expression (Cursor.ofTokens (Sample.leftParen :: Sample.square ++
        [Sample.rightParen, Token.endAt 12])) = .ok function e := by
  have hcomplete : Sample.complete (Level.outermost.element .expression
      (Cursor.ofTokens (Sample.square ++ [Token.endAt 11]))) = true := by decide +kernel
  have hconfined : Sample.complete ((Level.confined (Parser.maxDepth - 1)).element .expression
      (Cursor.ofTokens (Sample.square ++ [Token.endAt 11]))) = true := by decide +kernel
  rcases Sample.exists_of_complete hcomplete with ⟨function, d, hread, hend, hclean⟩
  have hspares : forall fault, (Level.confined (Parser.maxDepth - 1)).element .expression
      (Cursor.ofTokens (Sample.square ++ [Token.endAt 11])) ≠ .fault fault := by
    intro fault hfault
    rw [hfault] at hconfined
    cases hconfined
  have hbody : forall t, t ∈ Sample.square -> t.Quoted ∧ t.kind ≠ .endOfInput := by
    simp [Sample.square, Sample.token, Token.Quoted]
  rcases element_in_parentheses .expression function Sample.square Sample.leftParen
    Sample.rightParen (Token.endAt 11) (Token.endAt 12) d rfl rfl rfl rfl hbody hread hend hclean
    hspares with ⟨e, hparenthesized, _, hclean'⟩
  exact ⟨function, d, e, hclean, hclean', hread, hparenthesized⟩

end Linewise
