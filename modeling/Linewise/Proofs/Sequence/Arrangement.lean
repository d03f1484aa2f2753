import Linewise.Proofs.Sequence.Layout

/-!
# Arrangements of a sequence

The ways to write a sequence, side by side.  Main result: whichever is chosen, the same
elements come out, or reading stops at the same separator.  Elements that are single
tokens show that there are such sequences.
-/

namespace Linewise

def Element.ofAtom (token separator newline : Token) (hatom : token.IsAtom)
    (hseparator : separator.kind ∈ Grammar.separators) (hnewline : newline.kind = .lineBreak) :
    Element where
  tokens := [token]
  value := token.atom
  separator := separator
  newline := newline
  quoted := by
    intro t ht
    rw [List.mem_singleton.mp ht]
    exact hatom.quoted
  separates := hseparator
  breaks := hnewline

/-- A way to write a sequence. -/
inductive Arrangement where
  /-- On one line. -/
  | inline
  /-- On one line, in parentheses. -/
  | enclosed
  /-- In parentheses, each element with a separator and a line break behind it. -/
  | broken
deriving DecidableEq

/-- The tokens of a sequence in an arrangement. -/
def Arrangement.tokens (opening newline closing : Token) (first : Element)
    (rest : List Element) : Arrangement -> List Token
  | .inline => first.tokens ++ first.behind false rest
  | .enclosed => Element.inParentheses false opening newline closing first rest
  | .broken => Element.inParentheses true opening newline closing first rest

namespace Grammar

open Linewise.Parser
open Linewise.Account

variable {room depth : Nat} {c : Cursor} {item first : Element} {rest : List Element}
  {broken : Bool}

/-!
## The tokens of a sequence
-/

theorem quoted_of_ne {token : Token} {kind : Kind} (h : token.kind = kind) (hne : kind ≠ .text) :
    token.Quoted := by
  intro htext
  exact absurd (h.symm.trans htext) hne

theorem quoted_separator (item : Element) : item.separator.Quoted := by
  rcases item.separator_kind with hkind | hkind
  · exact quoted_of_ne hkind (by simp)
  · exact quoted_of_ne hkind (by simp)

theorem quoted_behind : forall t, t ∈ item.behind broken rest -> t.Quoted := by
  have hnewline : forall item : Element, item.newline.Quoted :=
    fun item => quoted_of_ne item.breaks (by simp)
  induction rest generalizing item with
  | nil =>
      intro t ht
      cases broken with
      | false => cases ht
      | true =>
          simp only [Element.behind, if_true, List.mem_cons, List.not_mem_nil, or_false] at ht
          rcases ht with rfl | rfl
          · exact quoted_separator item
          · exact hnewline item
  | cons next rest ih =>
      intro t ht
      rcases List.mem_cons.mp ht with rfl | ht
      · exact quoted_separator item
      rcases List.mem_append.mp ht with hbreak | ht
      · cases broken with
        | false => cases hbreak
        | true =>
            rw [List.mem_singleton.mp hbreak]
            exact hnewline item
      rcases List.mem_append.mp ht with ht | ht
      · exact next.quoted t ht
      · exact ih t ht

theorem quoted_inParentheses {opening newline closing : Token}
    (hopening : opening.kind = .mark .openParen) (hclosing : closing.kind = .mark .closeParen)
    (hnewline : newline.kind = .lineBreak) :
    forall t, t ∈ Element.inParentheses broken opening newline closing first rest -> t.Quoted := by
  intro t ht
  rcases List.mem_cons.mp ht with rfl | ht
  · exact quoted_of_ne hopening (by simp)
  rcases List.mem_append.mp ht with hbreak | ht
  · cases broken with
    | false => cases hbreak
    | true =>
        rw [List.mem_singleton.mp hbreak]
        exact quoted_of_ne hnewline (by simp)
  rcases List.mem_append.mp ht with ht | ht
  · exact first.quoted t ht
  rcases List.mem_append.mp ht with ht | ht
  · exact quoted_behind t ht
  · rw [List.mem_singleton.mp ht]
    exact quoted_of_ne hclosing (by simp)

/-!
## Reading a sequence
-/

def Settles (first : Element) (rest : List Element) (reply : Reply Expression) : Prop :=
  reply.Satisfies
    (fun value d => d.ahead = [] ∧
      Element.odd? first.separator.kind (first :: rest) = none ∧
      exists span, value = sequenceOf first.separator.kind
        (first.value :: rest.map Element.value) span)
    (fun g _ => exists odd,
      Element.odd? first.separator.kind (first :: rest) = some odd ∧ g = odd.mixed)

theorem endsWith_cons {kind : Kind} (hrest : rest ≠ []) (h : EndsWith kind rest) :
    EndsWith kind (first :: rest) := by
  intro last hfound
  cases rest with
  | nil => exact absurd rfl hrest
  | cons next rest => exact h last (by rwa [List.getLast?_cons_cons] at hfound)

theorem inline_settles (hrest : rest ≠ []) (hlast : EndsWith first.separator.kind rest)
    (hitems : forall next, next ∈ first :: rest ->
      next.Exact ((Level.ofRoom room).expression 0) depth)
    (hc : c.Before depth (first.tokens ++ first.behind false rest)) :
    Settles first rest (expression (Level.ofRoom room) c) := by
  have htail : Closes (first.behind false rest) := by simpa using closes_behind closes_nil
  rcases exact_reads (hitems first (by simp)) hc htail with ⟨d, hok, hd, _⟩
  have hkind : d.kind = first.separator.kind := by
    cases rest with
    | nil => exact absurd rfl hrest
    | cons next rest => exact Cursor.kind_cons hd.ahead first.separator_isSolid
  have hbound : rest.length <= d.ahead.length := by
    rw [hd.ahead]
    exact length_behind false first rest
  rw [expression, currentSpan_bind, bind_of_ok hok, currentKind_bind, hkind,
    if_pos (by simpa using first.separates)]
  apply satisfies_bind
  refine (nextElements_settle (fun next hnext => hitems next (by simp [hnext]))
    (endsWith_cons hrest hlast) hd hbound).mono ?_ (fun _ _ held => held)
  rintro values e ⟨hnone, rfl, he⟩
  exact ⟨he, hnone, e.spanFrom c.current.span, rfl⟩

theorem depth_lt_of_exact (hfinal : c.final.kind = .endOfInput)
    (h : item.Exact ((Level.ofRoom room).expression 0) depth) : depth < maxDepth := by
  have hfits : plainRecovery.Fits { c with ahead := item.tokens, depth := depth } :=
    ⟨item.quoted, hfinal⟩
  rcases h _ [] hfits rfl (by simp) (closes_nil _ hfinal) with ⟨d, hok, _⟩
  cases room with
  | zero => cases hok
  | succ room =>
      by_cases hdepth : depth < maxDepth
      · exact hdepth
      · simp only [Level.ofRoom, Level.around, nested, if_neg hdepth] at hok
        cases hok

theorem inParentheses_settles {opening newline closing : Token}
    (hopening : opening.kind = .mark .openParen) (hclosing : closing.kind = .mark .closeParen)
    (hnewline : newline.kind = .lineBreak) (hrest : rest ≠ [])
    (hlast : EndsWith first.separator.kind rest) (hdepth : depth < maxDepth)
    (hitems : forall next, next ∈ first :: rest ->
      next.Exact ((Level.ofRoom room).expression 0) (depth + 1))
    (hc : c.Before depth (Element.inParentheses broken opening newline closing first rest)) :
    Settles first rest (expression (Level.ofRoom (room + 1)) c) := by
  have hdeeper : ({ c with depth := c.depth + 1 } : Cursor).Before (depth + 1)
      (Element.inParentheses broken opening newline closing first rest) :=
    ⟨⟨hc.fits.tokens, hc.fits.ends⟩, congrArg (· + 1) hc.depth, hc.ahead⟩
  have hsettles := binaryExpression_settles hopening hclosing hnewline hrest hlast hitems hdeeper
  have hnested : (Level.ofRoom (room + 1)).expression 0 c =
      closeLevel (binaryExpression (Level.ofRoom room) 0 { c with depth := c.depth + 1 }) :=
    if_pos (by rwa [hc.depth])
  rw [expression, currentSpan_bind]
  apply satisfies_bind
  rw [hnested]
  generalize binaryExpression (Level.ofRoom room) 0 { c with depth := c.depth + 1 } = reply
    at hsettles
  cases reply with
  | fault found => exact hsettles
  | error g d =>
      rcases hsettles with ⟨hopen, hodd⟩
      rw [closeLevel, hopen]
      exact hodd
  | ok value d =>
      rcases hsettles with ⟨hd, hnone, hvalue⟩
      rw [closeLevel, hd.depth]
      have hend : ({ d with depth := depth } : Cursor).kind = .endOfInput :=
        Cursor.kind_of_ahead_nil hd.fits.final hd.ahead
      show Reply.Satisfies _ _ ((currentKind >>= _) { d with depth := depth })
      rw [currentKind_bind, hend]
      exact ⟨hd.ahead, hnone, hvalue⟩

theorem arrangement_settles {opening newline closing : Token}
    (hopening : opening.kind = .mark .openParen) (hclosing : closing.kind = .mark .closeParen)
    (hnewline : newline.kind = .lineBreak) (hrest : rest ≠ [])
    (hlast : EndsWith first.separator.kind rest)
    (houter : forall next, next ∈ first :: rest ->
      next.Exact ((Level.ofRoom (room + 1)).expression 0) depth)
    (hinner : forall next, next ∈ first :: rest ->
      next.Exact ((Level.ofRoom room).expression 0) (depth + 1))
    (hfinal : c.final.kind = .endOfInput) (hdepth : c.depth = depth) (arrangement : Arrangement)
    (hahead : c.ahead = arrangement.tokens opening newline closing first rest) :
    Settles first rest (expression (Level.ofRoom (room + 1)) c) := by
  have hspare : depth < maxDepth := depth_lt_of_exact hfinal (houter first (by simp))
  have henclosed : forall {broken},
      c.ahead = Element.inParentheses broken opening newline closing first rest ->
      Settles first rest (expression (Level.ofRoom (room + 1)) c) := by
    intro broken hahead
    have hquoted : forall t, t ∈ c.ahead -> t.Quoted := by
      rw [hahead]
      exact quoted_inParentheses hopening hclosing hnewline
    exact inParentheses_settles hopening hclosing hnewline hrest hlast hspare hinner
      ⟨⟨hquoted, hfinal⟩, hdepth, hahead⟩
  cases arrangement with
  | enclosed => exact henclosed hahead
  | broken => exact henclosed hahead
  | inline =>
      have hquoted : forall t, t ∈ c.ahead -> t.Quoted := by
        rw [hahead]
        intro t ht
        rcases List.mem_append.mp ht with ht | ht
        · exact first.quoted t ht
        · exact quoted_behind t ht
      exact inline_settles hrest hlast houter ⟨⟨hquoted, hfinal⟩, hdepth, hahead⟩

theorem odd?_eq_none (h : forall next, next ∈ rest -> next.separator.kind = first.separator.kind) :
    Element.odd? first.separator.kind (first :: rest) = none := by
  apply List.find?_eq_none.mpr
  intro next hnext
  rcases List.mem_cons.mp hnext with rfl | hnext
  · simp
  · simp [h next hnext]

theorem Settles.ok {reply : Reply Expression} (h : Settles first rest reply)
    (hnone : Element.odd? first.separator.kind (first :: rest) = none) :
    exists span d, d.ahead = [] ∧
      reply = .ok (sequenceOf first.separator.kind (first.value :: rest.map Element.value) span)
        d := by
  cases reply with
  | ok value d =>
      rcases h with ⟨hd, _, span, rfl⟩
      exact ⟨span, d, hd, rfl⟩
  | error g d =>
      rcases h with ⟨odd, hodd, _⟩
      rw [hnone] at hodd
      cases hodd
  | fault found => exact h.elim

theorem Settles.error {reply : Reply Expression} {odd : Element} (h : Settles first rest reply)
    (hodd : Element.odd? first.separator.kind rest = some odd) :
    exists d, reply = .error odd.mixed d := by
  have hsame : first.separator.kind = first.separator.kind := rfl
  rw [← odd?_cons_of_eq hsame] at hodd
  cases reply with
  | ok value d =>
      rcases h with ⟨_, hnone, _⟩
      rw [hnone] at hodd
      cases hodd
  | error g d =>
      rcases h with ⟨found, hfound, rfl⟩
      rw [hfound] at hodd
      cases hodd
      exact ⟨d, rfl⟩
  | fault found => exact h.elim

/-!
## Elements of one token
-/

theorem current_of_follower (h : c.kind ∈ Element.followers) :
    c.current.startsExpression = false ∧ c.current.operator? = none := by
  have hnever : forall kind, kind ∈ Element.followers ->
      kind ∉ Token.expressionStarts ∧ kind ≠ .lowercaseName ∧
        kind.spelling?.bind Operator.ofSpelling? = none := by decide +kernel
  rcases hnever _ h with ⟨hstarts, hname, hspelling⟩
  have hstarts : c.current.kind ∉ Token.expressionStarts := hstarts
  have hname : c.current.kind ≠ .lowercaseName := hname
  have hspelling : c.current.kind.spelling?.bind Operator.ofSpelling? = none := hspelling
  constructor
  · simp [Token.startsExpression, hstarts]
  · unfold Token.operator?
    split
    · rename_i hlowercase
      exact absurd hlowercase hname
    · cases hspelled : c.current.kind.spelling? with
      | none => rfl
      | some spelling =>
          rw [hspelled] at hspelling
          exact hspelling

theorem arrowFollows_of_follower (h : c.kind ∈ Element.followers) :
    arrowFollows 0 false c.tokensAhead = false := by
  have hhead : exists tail, c.tokensAhead = c.current :: tail := by
    rw [Cursor.tokensAhead_eq, Cursor.current]
    cases hs : c.significant with
    | nil => exact ⟨[], rfl⟩
    | cons token tail =>
        have hcomment := Cursor.isComment_of_significant hs
        exact ⟨tail.filter (fun token => !token.isComment) ++ [c.final], by simp [hcomment]⟩
  have hstarts : c.current.startsPattern = false := by
    have hnever : forall kind, kind ∈ Element.followers -> kind ∉ Token.patternStarts := by decide
    have hkind : c.current.kind ∉ Token.patternStarts := hnever _ h
    simp [Token.startsPattern, hkind]
  rcases hhead with ⟨tail, htail⟩
  have hkinds : c.current.kind ∈ Element.followers := h
  simp only [Element.followers, List.mem_cons, List.not_mem_nil, or_false] at hkinds
  rw [htail]
  rcases hkinds with hkind | hkind | hkind | hkind | hkind
  all_goals simp [arrowFollows, hkind, hstarts]

theorem mayBeFunction_atom {token : Token} {tail : List Token} (hatom : token.IsAtom)
    (hfinal : c.final.kind = .endOfInput) (hahead : c.ahead = token :: tail)
    (hfollows : ({ c with ahead := tail } : Cursor).kind ∈ Element.followers) :
    mayBeFunction c = false := by
  have hkind := Cursor.kind_cons hahead hatom.isSolid
  have hnext : arrowFollows 0 false c.advance.tokensAhead = false := by
    rw [Cursor.advance_cons hahead hatom.isSolid]
    exact arrowFollows_of_follower (c := c.past token tail) hfollows
  have hcases := hatom.kind
  simp only [Token.atomKinds, List.mem_cons, List.not_mem_nil, or_false, ← hkind] at hcases
  unfold mayBeFunction
  rcases hcases with h | h | h | h | h
  · rw [reaches_advance hfinal (by simp [h]) (Or.inl rfl), hnext, Bool.and_false]
  · rw [reaches_advance hfinal (by simp [h]) (Or.inl rfl), hnext, Bool.and_false]
  · rw [h]
    rfl
  · rw [reaches_advance hfinal (by simp [h]) (Or.inl rfl), hnext, Bool.and_false]
  · rw [reaches_advance hfinal (by simp [h]) (Or.inl rfl), hnext, Bool.and_false]

theorem exact_ofAtom {token separator newline : Token} (hatom : token.IsAtom)
    (hseparator : separator.kind ∈ separators) (hnewline : newline.kind = .lineBreak)
    (hdepth : depth < maxDepth) :
    (Element.ofAtom token separator newline hatom hseparator hnewline).Exact
      ((Level.ofRoom (room + 1)).expression 0) depth := by
  intro c tail hc hopen hahead hfollows
  have hahead : ({ c with depth := c.depth + 1 } : Cursor).ahead = token :: tail := hahead
  have hnested : (Level.ofRoom (room + 1)).expression 0 c =
      closeLevel (binaryExpression (Level.ofRoom room) 0 { c with depth := c.depth + 1 }) :=
    if_pos (by rwa [hopen])
  rw [hnested]
  generalize hdeeper : ({ c with depth := c.depth + 1 } : Cursor) = d at hahead
  have hfinal : d.final.kind = .endOfInput := by
    rw [← hdeeper]
    exact hc.final
  have hfollows : (d.past token tail).kind ∈ Element.followers := by
    rw [← hdeeper]
    exact hfollows
  rcases current_of_follower hfollows with ⟨hstops, hoperator⟩
  have hover : repeatWhile (atOperator 0) (continuation (Level.ofRoom room) d.current.span)
      (d.past token tail) = .ok [] (d.past token tail) :=
    repeatUpTo_stop (by rw [atOperator, hoperator]) _
  have hcall : callExpression (Level.ofRoom room) d.current.span d =
      .ok token.atom (d.past token tail) := by
    rw [callExpression, isAt_bind, bind_of_ok (subexpression_atom hatom hahead), look_bind,
      hstops]
    rfl
  have hoperand : operand (Level.ofRoom room) d = .ok token.atom (d.past token tail) := by
    rw [operand, currentSpan_bind, currentKind_bind, Cursor.kind_cons hahead hatom.isSolid]
    have hcases := hatom.kind
    simp only [Token.atomKinds, List.mem_cons, List.not_mem_nil, or_false] at hcases
    rcases hcases with h | h | h | h | h <;> rw [h] <;> exact hcall
  have hread : binaryExpression (Level.ofRoom room) 0 d =
      .ok token.atom (d.past token tail) := by
    rw [binaryExpression, currentSpan_bind,
      bind_of_ok (functionLiteral_of_not (mayBeFunction_atom hatom hfinal hahead hfollows))]
    exact (bind_of_ok hoperand).trans (bind_of_ok hover)
  have hlevel : (d.past token tail).depth = c.depth + 1 := by
    rw [← hdeeper]
    rfl
  rw [hread, closeLevel, hlevel]
  exact ⟨_, rfl, rfl⟩

end Grammar

/-- Sequences on one line, in parentheses and on several lines agree.  The elements are
read exactly wherever a sequence may stand, outside of parentheses and one level further
in; behind the last one the first separator stands again, which only the arrangement on
several lines writes.  If all separators are the same, every arrangement is read to its
end and gives the elements in order, in a tuple or in a collection.  Otherwise every
arrangement fails at the first separator that differs from the first one. -/
theorem expression_arrangements (room depth : Nat) (first : Element) (rest : List Element)
    (opening newline closing : Token) (arrangement : Arrangement) (c : Cursor)
    (hopening : opening.kind = .mark .openParen) (hclosing : closing.kind = .mark .closeParen)
    (hnewline : newline.kind = .lineBreak) (hrest : rest ≠ [])
    (hlast : Grammar.EndsWith first.separator.kind rest)
    (houter : forall next, next ∈ first :: rest ->
      next.Exact ((Level.ofRoom (room + 1)).expression 0) depth)
    (hinner : forall next, next ∈ first :: rest ->
      next.Exact ((Level.ofRoom room).expression 0) (depth + 1))
    (hahead : c.ahead = arrangement.tokens opening newline closing first rest)
    (hfinal : c.final.kind = .endOfInput) (hdepth : c.depth = depth) :
    ((forall next, next ∈ rest -> next.separator.kind = first.separator.kind) ->
      exists span d, d.ahead = [] ∧
        (first.separator.kind = .mark .semicolon ->
          Grammar.expression (Level.ofRoom (room + 1)) c =
            .ok (.tuple (first.value :: rest.map Element.value) span) d) ∧
        (first.separator.kind = .mark .comma ->
          Grammar.expression (Level.ofRoom (room + 1)) c =
            .ok (.collection (first.value :: rest.map Element.value) span) d)) ∧
      (forall odd, Element.odd? first.separator.kind rest = some odd ->
        exists d, Grammar.expression (Level.ofRoom (room + 1)) c = .error odd.mixed d) := by
  have hsettles := Grammar.arrangement_settles hopening hclosing hnewline hrest hlast houter
    hinner hfinal hdepth arrangement hahead
  constructor
  · intro hsame
    rcases hsettles.ok (Grammar.odd?_eq_none hsame) with ⟨span, d, hd, hok⟩
    refine ⟨span, d, hd, ?_, ?_⟩
    · intro hkind
      rw [hok, hkind]
      rfl
    · intro hkind
      rw [hok, hkind]
      rfl
  · intro odd hodd
    exact hsettles.error hodd

namespace Sample

def counted (position : Nat) (value : String) (mark : Mark)
    (hmark : Kind.mark mark ∈ Grammar.separators) : Element :=
  .ofAtom (token .number position value) (token (.mark mark) (position + 2) "")
    (token .lineBreak (position + 3) "") (isAtom_token (by decide) (by decide) position value)
    hmark rfl

def opening : Token := token (.mark .openParen) 0 "("

def newline : Token := token .lineBreak 1 ""

def closing : Token := token (.mark .closeParen) 20 ")"

def one : Element := counted 2 "1" .semicolon (by decide)

def two : Element := counted 7 "2" .comma (by decide)

def three : Element := counted 12 "3" .semicolon (by decide)

/-- A cursor in front of the elements, each on a line of its own. -/
def broken (rest : List Element) : Cursor :=
  { ahead := Arrangement.broken.tokens opening newline closing one rest
    final := Token.endAt 21, previous := default, errors := [], depth := 0 }

theorem exact_counted {room depth position : Nat} {value : String} {mark : Mark}
    {hmark : Kind.mark mark ∈ Grammar.separators} (hdepth : depth < Parser.maxDepth) :
    (counted position value mark hmark).Exact ((Level.ofRoom (room + 1)).expression 0) depth :=
  Grammar.exact_ofAtom _ _ _ hdepth

theorem exact_numbers {room depth : Nat} (hdepth : depth < Parser.maxDepth) :
    forall item, item ∈ [one, two, three] ->
      item.Exact ((Level.ofRoom (room + 1)).expression 0) depth := by
  intro item hitem
  simp only [List.mem_cons, List.not_mem_nil, or_false] at hitem
  rcases hitem with rfl | rfl | rfl
  · exact exact_counted hdepth
  · exact exact_counted hdepth
  · exact exact_counted hdepth

end Sample

/-- Two numbers with semicolons make a tuple; with a third one behind a comma, reading
stops at the comma. -/
theorem expression_arrangements_numbers :
    (exists span d, d.ahead = [] ∧
      Grammar.expression Level.outermost (Sample.broken [Sample.three]) =
        .ok (.tuple [.number ⟨"1", ⟨2, 3⟩⟩, .number ⟨"3", ⟨12, 13⟩⟩] span) d) ∧
      exists d, Grammar.expression Level.outermost (Sample.broken [Sample.two, Sample.three]) =
        .error Sample.two.mixed d := by
  have hall : forall {room depth}, depth < Parser.maxDepth ->
      forall item, item ∈ [Sample.one, Sample.three] ->
        item.Exact ((Level.ofRoom (room + 1)).expression 0) depth := by
    intro room depth hdepth item hitem
    exact Sample.exact_numbers hdepth item (by
      rcases List.mem_pair.mp hitem with rfl | rfl <;> simp)
  constructor
  · rcases (expression_arrangements 63 0 Sample.one [Sample.three] Sample.opening Sample.newline
      Sample.closing .broken (Sample.broken [Sample.three]) rfl rfl rfl (by simp)
      (by intro last hlast; cases hlast; rfl) (hall (by decide)) (hall (by decide)) rfl rfl
      rfl).1 (by intro next hnext; rw [List.mem_singleton.mp hnext]; rfl) with
      ⟨span, d, hd, htuple, _⟩
    exact ⟨span, d, hd, htuple rfl⟩
  · exact (expression_arrangements 63 0 Sample.one [Sample.two, Sample.three] Sample.opening
      Sample.newline Sample.closing .broken (Sample.broken [Sample.two, Sample.three]) rfl rfl rfl
      (by simp) (by intro last hlast; cases hlast; rfl) (Sample.exact_numbers (by decide))
      (Sample.exact_numbers (by decide)) rfl rfl rfl).2 Sample.two rfl

end Linewise
