import Linewise.Proofs.Lookahead
import Linewise.Proofs.Precedence.Climbing
import Linewise.Proofs.Sequence.Shelter

/-!
# Layouts of a sequence

A sequence may be written on one line, on one line in parentheses, and in parentheses
with each element on a line of its own.  The first is read by a loop of its own, the other
two by the loop for parenthesized forms, in which line breaks and a separator behind the
last element play a part.  Main statement: the three are read alike.  Either all
separators are the same, and the elements make a tuple or a collection; or two are mixed,
and reading stops at the first that differs.
-/

namespace Linewise

/-!
## Elements
-/

/-- The tokens of an element and the value they stand for, with the separator and the line
break that may stand behind them. -/
structure Element where
  tokens : List Token
  value : Expression
  separator : Token
  newline : Token
  quoted : forall t, t ∈ tokens -> t.Quoted
  separates : separator.kind ∈ Grammar.separators
  breaks : newline.kind = .lineBreak

namespace Element

def followers : List Kind :=
  [.mark .semicolon, .mark .comma, .mark .closeParen, .lineBreak, .endOfInput]

/-- With `depth` levels open, exactly the tokens of the item are read, to its value,
whichever of the tokens that may follow an element follows. -/
def Exact (element : Parser Expression) (depth : Nat) (item : Element) : Prop :=
  forall (c : Cursor) (rest : List Token), plainRecovery.Fits c -> c.depth = depth ->
    c.ahead = item.tokens ++ rest -> ({ c with ahead := rest } : Cursor).kind ∈ followers ->
    exists d, element c = .ok item.value d ∧ d.ahead = rest

/-- The tokens behind an element and up to the end of the sequence.  If lines are broken,
a separator and a line break stand behind every element, also the last one. -/
def behind (broken : Bool) (item : Element) : List Element -> List Token
  | [] => if broken then [item.separator, item.newline] else []
  | next :: rest =>
      item.separator :: ((if broken then [item.newline] else []) ++
        (next.tokens ++ next.behind broken rest))

def inParentheses (broken : Bool) (opening newline closing : Token) (first : Element)
    (rest : List Element) : List Token :=
  opening :: ((if broken then [newline] else []) ++
    (first.tokens ++ (first.behind broken rest ++ [closing])))

/-- The first item behind which another separator stands than the given one. -/
def odd? (separator : Kind) (items : List Element) : Option Element :=
  items.find? (fun item => item.separator.kind ≠ separator)

/-- The diagnostic at a separator that is mixed with another. -/
def mixed (item : Element) : Diagnostic where
  cause := .ambiguousElision "sequence" "`;` and `,` can't be mixed in one sequence"
  span := item.separator.span

theorem separator_kind (item : Element) :
    item.separator.kind = .mark .semicolon ∨ item.separator.kind = .mark .comma :=
  Grammar.separators_separate _ item.separates

theorem separator_isSolid (item : Element) : item.separator.kind.isSolid = true := by
  rcases item.separator_kind with hkind | hkind
  · rw [hkind]
    rfl
  · rw [hkind]
    rfl

end Element

/-!
## Places in a sequence
-/

namespace Cursor

variable {c : Cursor}

structure Before (depth : Nat) (tokens : List Token) (c : Cursor) : Prop where
  fits : plainRecovery.Fits c
  depth : c.depth = depth
  ahead : c.ahead = tokens

theorem Before.advance {depth : Nat} {token : Token} {rest : List Token}
    (h : c.Before depth (token :: rest)) (hsolid : token.kind.isSolid = true) :
    c.advance.Before depth rest := by
  have hne : c.kind ≠ .endOfInput := by
    rw [kind_cons h.ahead hsolid]
    exact Kind.ne_end_of_isSolid hsolid
  have hfits := h.fits.after (advance_passage h.fits.final hne)
  rw [advance_cons h.ahead hsolid] at hfits ⊢
  exact ⟨hfits, h.depth, rfl⟩

theorem skipLineBreaks_of_ne (h : c.kind ≠ .lineBreak) : c.skipLineBreaks = c := by
  have hnone : forall tokens : List Token,
      ((tokens.dropWhile Token.isComment).headD c.final).kind ≠ .lineBreak ->
      afterLineBreaks? tokens = none := by
    intro tokens hkind
    induction tokens with
    | nil => rfl
    | cons token rest ih =>
        unfold afterLineBreaks?
        split
        · rename_i hcomment
          rw [List.dropWhile_cons_of_pos hcomment] at hkind
          exact ih hkind
        · rename_i hcomment
          rw [List.dropWhile_cons_of_neg hcomment] at hkind
          exact if_neg (by simpa [Token.isLineBreak] using hkind)
  rw [skipLineBreaks, hnone c.ahead h, Option.getD_none]

theorem skipLineBreaks_newline {newline : Token} {rest : List Token}
    (hnewline : newline.kind = .lineBreak) (hahead : c.ahead = newline :: rest)
    (hrest : ({ c with ahead := rest } : Cursor).kind ≠ .lineBreak) :
    c.skipLineBreaks = { c with ahead := rest } := by
  have hskip := congrArg Cursor.ahead (skipLineBreaks_of_ne hrest)
  have hsame : (afterLineBreaks? rest).getD rest = rest := hskip
  rw [skipLineBreaks, hahead]
  simp [afterLineBreaks?, Token.isComment, Token.isLineBreak, hnewline, hsame]

end Cursor

namespace Grammar

open Linewise.Parser
open Linewise.Account

variable {room depth : Nat} {c : Cursor}

theorem begins_of_subexpression {level : Level} {value : Expression} {d : Cursor}
    (hok : subexpression level c = .ok value d) : c.kind ∈ Token.expressionStarts := by
  rcases bind_eq_ok.mp hok with ⟨kind, e, hseen, hok⟩
  have hkind : c.kind = kind := by
    cases hseen
    rfl
  rw [hkind]
  split at hok
  all_goals first | decide | cases hok

theorem begins_of_operand {level : Level} {value : Expression} {d : Cursor}
    (hok : operand level c = .ok value d) :
    c.kind ∈ Token.expressionStarts ∨ c.kind.isReserved = true := by
  rcases bind_eq_ok.mp hok with ⟨start, e, hstart, hok⟩
  cases hstart
  rcases bind_eq_ok.mp hok with ⟨kind, e, hseen, hok⟩
  have hkind : c.kind = kind := by
    cases hseen
    rfl
  have hsame : e = c := by
    cases hseen
    rfl
  rw [hsame] at hok
  split at hok
  · exact Or.inr (by rw [hkind]; rfl)
  · exact Or.inr (by rw [hkind]; rfl)
  · exact Or.inr (by rw [hkind]; rfl)
  · rcases bind_eq_ok.mp hok with ⟨textHead, f, htext, hok⟩
    cases htext
    rcases bind_eq_ok.mp hok with ⟨head, f, hhead, _⟩
    exact Or.inl (begins_of_subexpression hhead)

theorem begins_of_expression {least : Nat} {value : Expression} {d : Cursor}
    (hok : (Level.ofRoom room).expression least c = .ok value d) :
    c.kind ∈ Token.expressionStarts ∨ c.kind.isReserved = true := by
  cases room with
  | zero => cases hok
  | succ room =>
      rcases nested_eq_ok hok with ⟨e, _, hok, _⟩
      change ({ c with depth := c.depth + 1 } : Cursor).kind ∈ _ ∨
        ({ c with depth := c.depth + 1 } : Cursor).kind.isReserved = true
      generalize ({ c with depth := c.depth + 1 } : Cursor) = c at hok
      cases hworth : mayBeFunction c with
      | true =>
          rw [mayBeFunction, Bool.and_eq_true] at hworth
          have hstarts : forall kind, kind ∈ Token.patternStarts ->
              kind ∈ Token.expressionStarts := by decide
          exact Or.inl (hstarts _ (by simpa using hworth.1))
      | false =>
          rcases bind_eq_ok.mp hok with ⟨start, f, hstart, hok⟩
          cases hstart
          rcases bind_eq_ok.mp hok with ⟨function, f, hfunction, hok⟩
          rw [functionLiteral_of_not hworth] at hfunction
          cases hfunction
          rcases bind_eq_ok.mp hok with ⟨first, f, hfirst, _⟩
          exact begins_of_operand hfirst

theorem not_follower_of_expression {least : Nat} {value : Expression} {d : Cursor}
    (hok : (Level.ofRoom room).expression least c = .ok value d) :
    c.kind ∉ Element.followers := by
  have hnever : forall kind, kind ∈ Element.followers ->
      kind ∉ Token.expressionStarts ∧ kind.isReserved = false := by decide
  intro hfollows
  rcases hnever _ hfollows with ⟨hstarts, hreserved⟩
  rcases begins_of_expression hok with hbegins | hbegins
  · exact hstarts hbegins
  · rw [hreserved] at hbegins
    cases hbegins

/-!
## The elements of a sequence
-/

def Closes (tail : List Token) : Prop :=
  forall c : Cursor, c.final.kind = .endOfInput ->
    ({ c with ahead := tail } : Cursor).kind ∈ Element.followers

theorem closes_nil : Closes [] := by
  intro c hfinal
  have hkind : ({ c with ahead := [] } : Cursor).kind = .endOfInput :=
    Cursor.kind_of_ahead_nil hfinal rfl
  rw [hkind]
  decide

theorem closes_cons {token : Token} {tail : List Token} (h : token.kind ∈ Element.followers)
    (hsolid : token.kind.isSolid = true) : Closes (token :: tail) := by
  intro c _
  rwa [Cursor.kind_cons rfl hsolid]

variable {kind : Kind} {item : Element} {rest : List Element} {broken : Bool}
  {tail : List Token}

theorem closes_separator (item : Element) (tail : List Token) :
    Closes (item.separator :: tail) := by
  apply closes_cons _ item.separator_isSolid
  rcases item.separator_kind with hkind | hkind
  · rw [hkind]
    decide
  · rw [hkind]
    decide

theorem closes_behind (h : Closes tail) : Closes (item.behind broken rest ++ tail) := by
  cases rest with
  | cons next rest => exact closes_separator item _
  | nil =>
      cases broken with
      | true => exact closes_separator item _
      | false => exact h

theorem exact_reads (h : item.Exact ((Level.ofRoom room).expression 0) depth)
    (hc : c.Before depth (item.tokens ++ tail)) (htail : Closes tail) :
    exists d, (Level.ofRoom room).expression 0 c = .ok item.value d ∧ d.Before depth tail ∧
      c.kind ∉ Element.followers := by
  rcases h c tail hc.fits hc.depth hc.ahead (htail c hc.fits.final) with ⟨d, hok, hahead⟩
  have hreply := ReadsIf.elim ((keeps_recovery plainRecovery room).expression 0) hc.fits trivial
  rw [hok] at hreply
  rcases hreply with ⟨read, noted, passage, _⟩
  refine ⟨d, hok, ⟨hc.fits.after passage, ?_, hahead⟩, not_follower_of_expression hok⟩
  rw [passage.depth, hc.depth]

theorem odd?_cons_of_eq (h : item.separator.kind = kind) :
    Element.odd? kind (item :: rest) = Element.odd? kind rest :=
  List.find?_cons_of_neg (by simp [h])

theorem odd?_cons_of_ne (h : item.separator.kind ≠ kind) :
    Element.odd? kind (item :: rest) = some item :=
  List.find?_cons_of_pos (by simp [h])

/-- The last separator is the given one. -/
def EndsWith (kind : Kind) (items : List Element) : Prop :=
  forall last, items.getLast? = some last -> last.separator.kind = kind

theorem nextElements_settle (hitems : forall next, next ∈ rest ->
      next.Exact ((Level.ofRoom room).expression 0) depth)
    (hlast : EndsWith kind (item :: rest)) (hc : c.Before depth (item.behind false rest))
    {bound : Nat} (hbound : rest.length <= bound) :
    (repeatUpTo (fun cursor => separators.contains cursor.kind)
      (nextElement (Level.ofRoom room) kind) bound c).Satisfies
        (fun values d => Element.odd? kind (item :: rest) = none ∧
          values = rest.map Element.value ∧ d.ahead = [])
        (fun g _ => exists odd, Element.odd? kind (item :: rest) = some odd ∧ g = odd.mixed) := by
  induction rest generalizing item c bound with
  | nil =>
      have hahead : c.ahead = [] := hc.ahead
      have hend : c.kind = .endOfInput := Cursor.kind_of_ahead_nil hc.fits.final hahead
      rw [repeatUpTo_stop (by simp [hend, separators])]
      have hsame : item.separator.kind = kind := hlast item rfl
      exact ⟨by rw [odd?_cons_of_eq hsame]; rfl, rfl, hahead⟩
  | cons next rest ih =>
      cases bound with
      | zero => exact absurd hbound (Nat.not_succ_le_zero _)
      | succ bound =>
          have hkind : c.kind = item.separator.kind :=
            Cursor.kind_cons hc.ahead item.separator_isSolid
          rw [repeatUpTo_more (by simpa [hkind] using item.separates)]
          by_cases hsame : item.separator.kind = kind
          · have hadvance := hc.advance item.separator_isSolid
            rcases exact_reads (hitems next (by simp)) hadvance
              (by simpa using closes_behind closes_nil) with ⟨d, hok, hd, _⟩
            have hnext : nextElement (Level.ofRoom room) kind c = .ok next.value d := by
              rw [nextElement, currentKind_bind, hkind, if_pos hsame, advance_bind, hok]
            rw [bind_of_ok hnext, odd?_cons_of_eq hsame]
            apply satisfies_bind
            refine (ih (fun other hother => hitems other (by simp [hother])) ?_ hd
              (Nat.le_of_succ_le_succ hbound)).mono ?_ (fun _ _ held => held)
            · intro last hfound
              exact hlast last (by rwa [List.getLast?_cons_cons])
            · rintro values e ⟨hnone, rfl, he⟩
              exact ⟨hnone, rfl, he⟩
          · have hmixed : nextElement (Level.ofRoom room) kind c = .error item.mixed c := by
              rw [nextElement, currentKind_bind, hkind, if_neg hsame, mixedSeparators,
                Element.mixed, Cursor.current_cons hc.ahead item.separator_isSolid]
            rw [bind_of_error hmixed]
            exact ⟨item, odd?_cons_of_ne hsame, rfl⟩

theorem skipLineBreaks_gap (broken : Bool) {newline : Token} {tokens : List Token}
    (hnewline : newline.kind = .lineBreak)
    (hc : c.Before depth ((if broken then [newline] else []) ++ tokens))
    (htokens : forall {d : Cursor}, d.Before depth tokens -> d.kind ≠ .lineBreak) :
    exists d, skipLineBreaks c = .ok broken d ∧ d.Before depth tokens := by
  cases broken with
  | false =>
      have hne : c.kind ≠ .lineBreak := htokens hc
      refine ⟨c, ?_, hc⟩
      rw [skipLineBreaks, Cursor.skipLineBreaks_of_ne hne]
      simp [Cursor.isAt, hne]
  | true =>
      have hahead : c.ahead = newline :: tokens := hc.ahead
      have hkind : c.kind = .lineBreak := by
        have hcomment : newline.isComment = false := by simp [Token.isComment, hnewline]
        simp [Cursor.kind, Cursor.current, Cursor.significant, hahead, hcomment, hnewline]
      have hd : ({ c with ahead := tokens } : Cursor).Before depth tokens := by
        refine ⟨⟨?_, hc.fits.ends⟩, hc.depth, rfl⟩
        intro t ht
        exact hc.fits.tokens t (by simp [hahead, show t ∈ tokens from ht])
      refine ⟨{ c with ahead := tokens }, ?_, hd⟩
      rw [skipLineBreaks, Cursor.skipLineBreaks_newline hnewline hahead (htokens hd)]
      simp [Cursor.isAt, hkind]

section Separated

variable {α : Type} {construct : String} {allowed : List Kind} {element : Parser α} {bound : Nat}
  {separator : Option Kind} {multiline skipped : Bool} {value : α} {d e : Cursor}

theorem separated_closed (hallowed : Kind.mark .closeParen ∉ allowed)
    (hkind : c.kind = .mark .closeParen) :
    separated construct allowed element (bound + 1) separator false c =
      .ok (separator, []) c := by
  rw [separated, currentKind_bind, hkind, if_neg (by simpa using hallowed), if_pos (by simp)]
  rfl

theorem separated_mixed {other : Kind} (hkind : c.kind = kind) (hallowed : kind ∈ allowed)
    (hother : other ≠ kind) :
    separated construct allowed element (bound + 1) (some other) multiline c =
      mixedSeparators construct c := by
  rw [separated, currentKind_bind, hkind, if_pos (by simpa using hallowed),
    if_pos (by simp [hother])]

theorem not_mixed (h : separator = none ∨ separator = some kind) :
    ¬ (separator.isSome && separator != some kind) = true := by
  rcases h with hnone | hsome
  · simp [hnone]
  · simp [hsome]

variable (hkind : c.kind = kind) (hallowed : kind ∈ allowed)
  (hseparator : separator = none ∨ separator = some kind)
  (hskip : skipLineBreaks c.advance = .ok skipped d)

include hkind hallowed hseparator hskip

theorem separated_trailing (hclose : d.kind = .mark .closeParen) :
    separated construct allowed element (bound + 1) separator multiline c =
      .ok (some kind, []) d := by
  rw [separated, currentKind_bind, hkind, if_pos (by simpa using hallowed),
    if_neg (not_mixed hseparator), advance_bind, bind_of_ok hskip, isAt_bind,
    if_pos (by simp [Cursor.isAt, hclose])]
  rfl

theorem separated_next (hopen : d.kind ≠ .mark .closeParen) (hok : element d = .ok value e) :
    separated construct allowed element (bound + 1) separator multiline c =
      (separated construct allowed element bound (some kind) (multiline || skipped) >>=
        fun found => pure (found.1, value :: found.2)) e := by
  rw [separated, currentKind_bind, hkind, if_pos (by simpa using hallowed),
    if_neg (not_mixed hseparator), advance_bind, bind_of_ok hskip, isAt_bind,
    if_neg (by simp [Cursor.isAt, hopen]), bind_of_ok hok]

end Separated

theorem separated_settles {closing : Token} (hclosing : closing.kind = .mark .closeParen)
    (hitems : forall next, next ∈ rest -> next.Exact ((Level.ofRoom room).expression 0) depth)
    (hlast : EndsWith kind (item :: rest))
    (hc : c.Before depth (item.behind broken rest ++ [closing])) {separator : Option Kind}
    (hseparator : separator = some kind ∨
      (separator = none ∧ item.separator.kind = kind ∧ rest ≠ []))
    {bound : Nat} (hbound : rest.length < bound) :
    (separated "sequence" separators ((Level.ofRoom room).expression 0) bound separator broken
      c).Satisfies
        (fun found d => Element.odd? kind (item :: rest) = none ∧
          found = (some kind, rest.map Element.value) ∧ d.Before depth [closing])
        (fun g d => d.depth = depth ∧
          exists odd, Element.odd? kind (item :: rest) = some odd ∧ g = odd.mixed) := by
  have hclose : closing.kind.isSolid = true := by
    rw [hclosing]
    rfl
  have hparen : forall {d : Cursor}, d.Before depth [closing] -> d.kind = .mark .closeParen := by
    intro d hd
    rw [Cursor.kind_cons hd.ahead hclose, hclosing]
  have hcloses : Closes [closing] := by
    apply closes_cons _ hclose
    rw [hclosing]
    decide
  have hmatches : item.separator.kind = kind ->
      separator = none ∨ separator = some item.separator.kind := by
    intro hsame
    rcases hseparator with hsome | ⟨hnone, _⟩
    · exact Or.inr (by rw [hsome, hsame])
    · exact Or.inl hnone
  -- The induction is on the elements still to come; what was read before the one in hand is
  -- in `separator` alone.
  induction rest generalizing item c separator bound with
  | nil =>
      cases bound with
      | zero => exact absurd hbound (Nat.not_lt_zero _)
      | succ bound =>
          have hsame : item.separator.kind = kind := hlast item rfl
          have hnone : Element.odd? kind [item] = none := by
            rw [odd?_cons_of_eq hsame]
            rfl
          -- On one line the parenthesis closes right away; on broken lines the last element is
          -- followed by a separator of its own.
          cases broken with
          | false =>
              have hsome : separator = some kind := by
                rcases hseparator with hsome | ⟨_, _, hne⟩
                · exact hsome
                · exact absurd rfl hne
              rw [separated_closed (by decide) (hparen hc), hsome]
              exact ⟨hnone, rfl, hc⟩
          | true =>
              have hkind : c.kind = item.separator.kind :=
                Cursor.kind_cons hc.ahead item.separator_isSolid
              have hadvance : c.advance.Before depth (item.newline :: [closing]) :=
                hc.advance item.separator_isSolid
              rcases skipLineBreaks_gap true item.breaks hadvance
                (fun hd => by simp [hparen hd]) with ⟨d, hskip, hd⟩
              rw [separated_trailing hkind item.separates (hmatches hsame) hskip (hparen hd), hsame]
              exact ⟨hnone, rfl, hd⟩
  | cons next rest ih =>
      cases bound with
      | zero => exact absurd hbound (Nat.not_lt_zero _)
      | succ bound =>
          have hahead : c.Before depth (item.separator ::
              ((if broken then [item.newline] else []) ++
                (next.tokens ++ (next.behind broken rest ++ [closing])))) := by
            simpa [Element.behind] using hc
          have hkind : c.kind = item.separator.kind :=
            Cursor.kind_cons hahead.ahead item.separator_isSolid
          by_cases hsame : item.separator.kind = kind
          · have htail : Closes (next.behind broken rest ++ [closing]) := closes_behind hcloses
            have hnext := hitems next (by simp)
            have hbegins : forall {d : Cursor},
                d.Before depth (next.tokens ++ (next.behind broken rest ++ [closing])) ->
                d.kind ∉ Element.followers := by
              intro d hd
              rcases exact_reads hnext hd htail with ⟨_, _, _, hd⟩
              exact hd
            rcases skipLineBreaks_gap _ item.breaks (hahead.advance item.separator_isSolid)
              (fun hd hline => hbegins hd (by rw [hline]; decide)) with ⟨d, hskip, hd⟩
            rcases exact_reads hnext hd htail with ⟨e, hok, he, _⟩
            have hopen : d.kind ≠ .mark .closeParen :=
              fun hparen => hbegins hd (by rw [hparen]; decide)
            rw [separated_next hkind item.separates (hmatches hsame) hskip hopen hok, hsame,
              Bool.or_self, odd?_cons_of_eq hsame]
            apply satisfies_bind
            refine (ih (fun other hother => hitems other (by simp [hother])) ?_ he (Or.inl rfl)
              (Nat.lt_of_succ_lt_succ hbound) (fun h => Or.inr (by rw [h]))).mono ?_
              (fun _ _ held => held)
            · intro last hfound
              exact hlast last (by rwa [List.getLast?_cons_cons])
            · rintro found f ⟨hnone, rfl, hf⟩
              exact ⟨hnone, rfl, hf⟩
          · have hsome : separator = some kind := by
              rcases hseparator with hsome | ⟨_, heq, _⟩
              · exact hsome
              · exact absurd heq hsame
            rw [hsome, separated_mixed hkind item.separates (fun heq => hsame heq.symm)]
            refine ⟨hc.depth, item, odd?_cons_of_ne hsame, ?_⟩
            rw [Element.mixed, Cursor.current_cons hahead.ahead item.separator_isSolid]

/-!
## Trying a parenthesis as a pattern
-/

variable {first : Element} {newline closing : Token}

def Reached (text : List Token) (bracket : Bracket) (depth : Nat) (tokens : List Token) : Prop :=
  exists c : Cursor, c.Before depth tokens ∧ c.Sheltered text bracket []

variable {text : List Token} {bracket : Bracket}

theorem Reached.plain {token : Token} {tokens : List Token}
    (h : Reached text bracket depth (token :: tokens)) (hplain : Bracket.plain token.kind = true) :
    Reached text bracket depth tokens := by
  rcases h with ⟨c, hc, h⟩
  have hfits : plainRecovery.Fits { c with ahead := tokens } := by
    refine ⟨?_, hc.fits.ends⟩
    intro t ht
    exact hc.fits.tokens t (by simp [hc.ahead, show t ∈ tokens from ht])
  rcases h.read with ⟨read, htext, hread⟩
  refine ⟨{ c with ahead := tokens }, ⟨hfits, hc.depth, rfl⟩, hfits, read ++ [token], ?_, ?_⟩
  · rw [htext, hc.ahead, List.append_assoc]
    rfl
  · exact hread.token (Bracket.step_plain hplain [])

theorem Reached.separator (item : Element)
    (h : Reached text bracket depth (item.separator :: tail)) :
    Reached text bracket depth tail := by
  apply h.plain
  rcases item.separator_kind with hkind | hkind
  · rw [hkind]
    rfl
  · rw [hkind]
    rfl

theorem Reached.gap (hnewline : newline.kind = .lineBreak)
    (h : Reached text bracket depth ((if broken then [newline] else []) ++ tail)) :
    Reached text bracket depth tail := by
  cases broken with
  | false => exact h
  | true => exact h.plain (by rw [hnewline]; rfl)

theorem Reached.element (hitem : item.Exact ((Level.ofRoom room).expression 0) depth)
    (htail : Closes tail) (h : Reached text bracket depth (item.tokens ++ tail)) :
    Reached text bracket depth tail := by
  rcases h with ⟨c, hc, h⟩
  rcases exact_reads hitem hc htail with ⟨d, hok, hd, _⟩
  exact ⟨d, hd, expression_sheltered h hok⟩

theorem Reached.elements (hitems : forall next, next ∈ first :: rest ->
      next.Exact ((Level.ofRoom room).expression 0) depth) (htail : Closes tail)
    (h : Reached text bracket depth (first.tokens ++ (first.behind broken rest ++ tail))) :
    Reached text bracket depth tail := by
  induction rest generalizing first with
  | nil =>
      have hbehind := Reached.element (hitems first (by simp)) (closes_behind htail) h
      cases broken with
      | false => exact hbehind
      | true => exact (Reached.separator first hbehind).plain (by rw [first.breaks]; rfl)
  | cons next rest ih =>
      have hbehind := Reached.element (hitems first (by simp)) (closes_behind htail) h
      have hgap : Reached text bracket depth ((if broken then [first.newline] else []) ++
          (next.tokens ++ (next.behind broken rest ++ tail))) := by
        apply Reached.separator first
        simpa [Element.behind] using hbehind
      exact ih (fun other hother => hitems other (by simp [hother])) (hgap.gap first.breaks)

theorem ahead_of_encloses {body : List Token} {d e : Cursor}
    (hshelters : Bracket.Shelters bracket [] body) (hahead : d.ahead = body ++ [closing])
    (h : d.Encloses bracket e) : e.ahead = [] := by
  rcases h.ahead with ⟨inner, token, hsplit, hmatched, _, hcloses⟩
  have hclosed : Bracket.unwind [bracket] ((inner ++ [token]).map Token.kind) = some [] := by
    rw [List.map_append, Bracket.unwind_append, hmatched.unwind, Option.bind_some,
      List.map_singleton, Bracket.unwind_cons, hcloses]
    rfl
  have hinside : ¬ inner ++ [token] <+: body := fun hpart => hshelters.parts hpart hclosed rfl
  have hwhole : inner ++ [token] ++ e.ahead = body ++ [closing] := by
    rw [← hahead, hsplit, List.append_assoc]
    rfl
  rcases Bracket.prefix_append_cases ⟨e.ahead, hwhole⟩ with hpart | ⟨part, hpart, hlast⟩
  · exact absurd hpart hinside
  · rcases List.prefix_cons_iff.mp hlast with rfl | ⟨part', rfl, hnone⟩
    · exact absurd (by simp [hpart]) hinside
    · rw [List.prefix_nil.mp hnone] at hpart
      rw [hpart] at hwhole
      exact List.append_right_eq_self.mp hwhole

theorem functionInputs_never {opening : Token} (hopening : opening.kind = .mark .openParen)
    (hclosing : closing.kind = .mark .closeParen) (hnewline : newline.kind = .lineBreak)
    (hitems : forall next, next ∈ first :: rest ->
      next.Exact ((Level.ofRoom room).expression 0) depth)
    (hc : c.Before depth (opening :: ((if broken then [newline] else []) ++
      (first.tokens ++ (first.behind broken rest ++ [closing])))))
    (inputs : List Pattern) (d : Cursor) :
    functionInputs (Level.ofRoom room) c ≠ .ok inputs d := by
  intro hok
  have hsolid : opening.kind.isSolid = true := by
    rw [hopening]
    rfl
  have hkind : c.kind = .mark .openParen := by rw [Cursor.kind_cons hc.ahead hsolid, hopening]
  have hadvance := hc.advance hsolid
  have hcloses : Closes [closing] := by
    apply closes_cons
    · rw [hclosing]
      decide
    · rw [hclosing]
      rfl
  rcases bind_eq_ok.mp hok with ⟨pattern, e, hpattern, hok⟩
  rcases bind_eq_ok.mp hok with ⟨others, f, hothers, hok⟩
  rcases bind_eq_ok.mp hok with ⟨token, _, htoken, _⟩
  -- the first subpattern is what stands in the parentheses
  have hencloses : c.advance.Encloses .round e := by
    rcases bind_eq_ok.mp hpattern with ⟨kind, _, hseen, hpattern⟩
    cases hseen
    rw [hkind] at hpattern
    exact parenthesizedPattern_leaves (Level.keeps_ofPatterns bracketAccount room)
      ⟨hadvance.fits.tokens, hadvance.fits.ends⟩ hpattern
  have hreached : Reached c.advance.ahead .round depth [closing] := by
    have hstart : c.advance.Sheltered c.advance.ahead .round [] :=
      ⟨hadvance.fits, [], rfl, Bracket.shelters_nil .round⟩
    exact Reached.elements hitems hcloses (Reached.gap hnewline ⟨c.advance, hadvance, hstart⟩)
  have hnone : e.ahead = [] := by
    rcases hreached with ⟨g, hg, hsheltered⟩
    rcases hsheltered.read with ⟨body, hbody, hshelters⟩
    rw [hg.ahead] at hbody
    exact ahead_of_encloses hshelters hbody hencloses
  have hend : e.kind = .endOfInput := by
    apply Cursor.kind_of_ahead_nil _ hnone
    rw [hencloses.final]
    exact hadvance.fits.final
  cases repeatWhile_stays (not_startsPattern_of_end hend) hothers
  have harrow := (expectAs_eq_ok htoken).1
  rw [hend] at harrow
  cases harrow

/-!
## Sequences in parentheses
-/

theorem length_behind (broken : Bool) (item : Element) (rest : List Element) :
    rest.length <= (item.behind broken rest).length := by
  induction rest generalizing item with
  | nil => exact Nat.zero_le _
  | cons next rest ih =>
      have hrest := ih next
      simp only [Element.behind, List.length_cons, List.length_append]
      omega

section Parentheses

variable {opening : Token} (hopening : opening.kind = .mark .openParen)
  (hclosing : closing.kind = .mark .closeParen) (hnewline : newline.kind = .lineBreak)
  (hrest : rest ≠ []) (hlast : EndsWith first.separator.kind rest)
  (hitems : forall next, next ∈ first :: rest ->
    next.Exact ((Level.ofRoom room).expression 0) depth)
  (hc : c.Before depth (Element.inParentheses broken opening newline closing first rest))

include hopening hclosing hnewline hrest hlast hitems hc

theorem enclosed_settles :
    (enclosed "sequence" separators ((Level.ofRoom room).expression 0) c).Satisfies
      (fun form d => Element.odd? first.separator.kind (first :: rest) = none ∧
        form = .sequence first.separator.kind (first.value :: rest.map Element.value) ∧
        d.Before depth [])
      (fun g d => d.depth = depth ∧ exists odd,
        Element.odd? first.separator.kind (first :: rest) = some odd ∧ g = odd.mixed) := by
  have hopens : opening.kind.isSolid = true := by
    rw [hopening]
    rfl
  have hcloses : closing.kind.isSolid = true := by
    rw [hclosing]
    rfl
  have htail : Closes (first.behind broken rest ++ [closing]) := by
    apply closes_behind
    apply closes_cons _ hcloses
    rw [hclosing]
    decide
  have hfirst := hitems first (by simp)
  have hadvance := hc.advance hopens
  have hbegins : forall {d : Cursor},
      d.Before depth (first.tokens ++ (first.behind broken rest ++ [closing])) ->
      d.kind ∉ Element.followers := by
    intro d hd
    rcases exact_reads hfirst hd htail with ⟨_, _, _, hkind⟩
    exact hkind
  rcases skipLineBreaks_gap _ hnewline hadvance
    (fun hd hline => hbegins hd (by rw [hline]; decide)) with ⟨d, hskip, hd⟩
  rcases exact_reads hfirst hd htail with ⟨e, hok, he, hkind⟩
  have hopen : expect (.mark .openParen) c = .ok c.current c.advance :=
    expect_of_kind (by rw [Cursor.kind_cons hc.ahead hopens, hopening])
  have hfilled : c.advance.isAt (.mark .closeParen) = false := by
    cases broken with
    | false =>
        have hne := hbegins hadvance
        simp only [Cursor.isAt, beq_eq_false_iff_ne, ne_eq]
        exact fun hclose => hne (by rw [hclose]; decide)
    | true =>
        have hline : c.advance.kind = .lineBreak := by
          have hcomment : newline.isComment = false := by simp [Token.isComment, hnewline]
          have hahead : c.advance.ahead = newline :: _ := hadvance.ahead
          simp [Cursor.kind, Cursor.current, Cursor.significant, hahead, hcomment, hnewline]
        simp [Cursor.isAt, hline]
  have hplain : ¬ separators.contains d.kind = true := by
    intro hseparator
    rcases separators_separate _ (by simpa using hseparator) with hsemicolon | hcomma
    · exact hkind (by rw [hsemicolon]; decide)
    · exact hkind (by rw [hcomma]; decide)
  have hbound : rest.length < e.ahead.length + 1 := by
    have hlength := length_behind broken first rest
    rw [he.ahead, List.length_append]
    omega
  rw [enclosed, bind_of_ok hopen, isAt_bind, hfilled, if_neg (by simp), bind_of_ok hskip,
    currentKind_bind, if_neg hplain, bind_of_ok hok, enclosedRest, look_bind]
  have hends : EndsWith first.separator.kind (first :: rest) := by
    intro last hfound
    cases rest with
    | nil => exact absurd rfl hrest
    | cons next rest => exact hlast last (by rwa [List.getLast?_cons_cons] at hfound)
  apply satisfies_bind
  refine (separated_settles hclosing (fun next hnext => hitems next (by simp [hnext])) hends he
    (Or.inr ⟨rfl, rfl, hrest⟩) hbound).mono ?_ (fun _ _ held => held)
  rintro found f ⟨hnone, rfl, hf⟩
  have hclose : expect (.mark .closeParen) f = .ok f.current f.advance :=
    expect_of_kind (by rw [Cursor.kind_cons hf.ahead hcloses, hclosing])
  show Reply.Satisfies _ _ ((expect (.mark .closeParen) >>= _) f)
  rw [bind_of_ok hclose]
  exact ⟨hnone, rfl, hf.advance hcloses⟩

theorem binaryExpression_settles :
    (binaryExpression (Level.ofRoom room) 0 c).Satisfies
      (fun value d => d.Before depth [] ∧
        Element.odd? first.separator.kind (first :: rest) = none ∧
        exists span, value = sequenceOf first.separator.kind
          (first.value :: rest.map Element.value) span)
      (fun g d => d.depth = depth ∧ exists odd,
        Element.odd? first.separator.kind (first :: rest) = some odd ∧ g = odd.mixed) := by
  have hopens : opening.kind.isSolid = true := by
    rw [hopening]
    rfl
  have hkind : c.kind = .mark .openParen := by rw [Cursor.kind_cons hc.ahead hopens, hopening]
  have hfits : bracketAccount.Fits c := ⟨hc.fits.tokens, hc.fits.ends⟩
  have hfunction : functionLiteral (Level.ofRoom room) c = .ok none c := by
    rw [functionLiteral_eq_tried room hfits]
    exact triedFunction_of_none (speculate_inputs room hfits
      (functionInputs_never hopening hclosing hnewline hitems hc))
  have hoperand : operand (Level.ofRoom room) c =
      callExpression (Level.ofRoom room) c.current.span c := by
    rw [operand, currentSpan_bind, currentKind_bind, hkind]
  have hsubexpression : subexpression (Level.ofRoom room) c =
      parenthesizedExpression (Level.ofRoom room) c := by
    rw [subexpression, currentKind_bind, hkind]
  rw [binaryExpression, currentSpan_bind, bind_of_ok hfunction]
  apply satisfies_bind
  rw [hoperand, callExpression, isAt_bind]
  apply satisfies_bind
  rw [hsubexpression, parenthesizedExpression, currentSpan_bind]
  apply satisfies_bind
  refine (enclosed_settles hopening hclosing hnewline hrest hlast hitems hc).mono ?_
    (fun _ _ held => held)
  rintro form d ⟨hnone, rfl, hd⟩
  have hend : d.kind = .endOfInput := Cursor.kind_of_ahead_nil hd.fits.final hd.ahead
  have hstops : d.current.startsExpression = false := not_startsExpression_of_end hend
  show Reply.Satisfies _ _ ((look (fun cursor : Cursor => cursor.current.startsExpression) >>= _) d)
  rw [look_bind, hstops, if_neg (by simp)]
  have hover : repeatWhile (atOperator 0) (continuation (Level.ofRoom room) c.current.span) d =
      .ok [] d := repeatUpTo_stop (not_atOperator_of_end hend) _
  show Reply.Satisfies _ _ ((repeatWhile (atOperator 0) _ >>= _) d)
  rw [bind_of_ok hover]
  exact ⟨hd, hnone, d.spanFrom c.current.span, rfl⟩

end Parentheses

end Grammar
end Linewise
