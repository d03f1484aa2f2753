import Linewise.Proofs.Nesting.Visits

/-!
# What parsers make

The combinators one by one: a parser can be followed and makes values with a property if
its parts do.  Nothing is asked of the tokens, so the laws hold for every input.
-/

namespace Linewise

open Linewise.Parser

variable {α β : Type} {P : α -> Prop} {Q : β -> Prop}

structure Makes (P : α -> Prop) (parser : Parser α) : Prop where
  visits : forall c, exists moments, Visits parser c moments
  holds : forall c value d, parser c = .ok value d -> P value

abbrev Goes (parser : Parser α) : Prop := Makes (fun _ => True) parser

namespace Makes

theorem mono {P' : α -> Prop} {parser : Parser α} (h : Makes P parser)
    (himp : forall value, P value -> P' value) : Makes P' parser where
  visits := h.visits
  holds := fun c value d hvalue => himp value (h.holds c value d hvalue)

/-!
## One step
-/

theorem bind {first : Parser α} {next : α -> Parser β} (hfirst : Makes P first)
    (hnext : forall value, P value -> Makes Q (next value)) : Makes Q (first >>= next) where
  visits := by
    intro c
    rcases hfirst.visits c with ⟨moments, h⟩
    by_cases hok : exists value d, first c = .ok value d
    · rcases hok with ⟨value, d, hvalue⟩
      rcases (hnext value (hfirst.holds c value d hvalue)).visits d with ⟨moments', h'⟩
      exact ⟨moments ++ moments', Visits.bind hvalue h h'⟩
    · exact ⟨moments, Visits.bindStop (fun value d hvalue => hok ⟨value, d, hvalue⟩) h⟩
  holds := by
    intro c value e hvalue
    rcases bind_eq_ok.mp hvalue with ⟨middle, d, hmiddle, hrest⟩
    exact (hnext middle (hfirst.holds c middle d hmiddle)).holds d value e hrest

theorem pass {first : Parser α} {next : α -> Parser β} (hfirst : Goes first)
    (hnext : forall value, Makes Q (next value)) : Makes Q (first >>= next) :=
  hfirst.bind (fun value _ => hnext value)

theorem look {view : Cursor -> α} {next : α -> Parser β}
    (hnext : forall value, Makes Q (next value)) : Makes Q (Parser.look view >>= next) := by
  apply pass ?_ hnext
  exact ⟨fun c => ⟨[c], Visits.look view c⟩, fun _ _ _ _ => trivial⟩

theorem give {value : α} (h : P value) : Makes P (pure value) where
  visits := fun c => ⟨[c], Visits.look (fun _ => value) c⟩
  holds := by
    intro c found d hfound
    cases hfound
    exact h

theorem build {start : Span} {make : Span -> α} (h : forall span, P (make span)) :
    Makes P (Parser.spanFrom start >>= fun span => pure (make span)) := by
  apply look
  intro span
  exact give (h span)

theorem refuse (diagnostic : Cursor -> Diagnostic) :
    Makes P (fun cursor => .error (diagnostic cursor) cursor) where
  visits := fun c => ⟨[c], Visits.refuse diagnostic c⟩
  holds := by
    intro c value d hvalue
    cases hvalue

theorem unexpected (expected : String) : Makes P (Parser.unexpected expected) := refuse _

theorem mixedSeparators (construct : String) : Makes P (Parser.mixedSeparators construct) :=
  refuse _

theorem tooDeep : Makes P Parser.tooDeep := refuse _

theorem faulty (fault : Fault) : Makes P (Parser.faulty fault) where
  visits := fun c => ⟨[c], Visits.faulty fault c⟩
  holds := by
    intro c value d hvalue
    cases hvalue

theorem choose {yes no : Parser α} {test : Cursor -> Bool} (hyes : Makes P yes)
    (hno : Makes P no) :
    Makes P (fun cursor => if test cursor then yes cursor else no cursor) where
  visits := by
    intro c
    have hchosen : Makes P (if test c then yes else no) := by
      split
      · exact hyes
      · exact hno
    rcases hchosen.visits c with ⟨moments, h⟩
    exact ⟨c :: moments, Visits.choose h⟩
  holds := by
    intro c value d hvalue
    split at hvalue
    · exact hyes.holds c value d hvalue
    · exact hno.holds c value d hvalue

theorem map {f : α -> β} {parser : Parser α} (h : Makes P parser)
    (hf : forall value, P value -> Q (f value)) : Makes Q (f <$> parser) := by
  apply bind h
  intro value hvalue
  exact give (hf value hvalue)

theorem present {parser : Parser α} (h : Makes P parser) :
    Makes (fun found => forall value, found = some value -> P value) (some <$> parser) :=
  h.map (fun _ hvalue _ hfound => Option.some.inj hfound ▸ hvalue)

theorem optional {first : Parser (Option α)} {next : Option α -> Parser β} {possible : Bool}
    (hfirst : Makes (fun found => forall value, found = some value -> P value) first)
    (hnext : forall found, (forall value, found = some value -> P value) ->
      Makes Q (next found)) :
    Makes Q (if possible then first >>= next else pure none >>= next) := by
  split
  · exact bind hfirst hnext
  · exact hnext none (by simp)

/-!
## Moving on
-/

theorem advance : Goes Parser.advance where
  visits := fun c => ⟨_, Visits.advance c⟩
  holds := fun _ _ _ _ => trivial

theorem skipLineBreaks : Goes Parser.skipLineBreaks where
  visits := by
    intro c
    rcases c.exists_walk_skipLineBreaks with ⟨moments, hwalk⟩
    exact ⟨moments, Visits.skipLineBreaks hwalk⟩
  holds := fun _ _ _ _ => trivial

theorem leadingComments : Goes Parser.leadingComments where
  visits := fun c => ⟨_, Visits.leadingComments c⟩
  holds := fun _ _ _ _ => trivial

theorem expectAs (kind : Kind) (description : String) : Goes (Parser.expectAs kind description) :=
  choose advance (refuse _)

theorem expect (kind : Kind) : Goes (Parser.expect kind) := expectAs kind _

theorem leaf (kind : Kind) (description : String) : Goes (Grammar.leaf kind description) := by
  apply pass (expectAs kind description)
  intro token
  exact give trivial

theorem text : Goes Grammar.text := by
  apply pass (expect .text)
  intro token
  split
  · exact give trivial
  · exact faulty _

/-!
## Trying and nesting
-/

theorem speculate {parser : Parser α} (h : Makes P parser) :
    Makes (fun found => forall value, found = some value -> P value)
      (Parser.speculate parser) where
  visits := by
    intro c
    rcases h.visits c with ⟨moments, hvisits⟩
    exact ⟨_, Visits.speculate hvisits⟩
  holds := by
    rintro c found d hfound value rfl
    unfold Parser.speculate at hfound
    cases hreply : parser c with
    | ok value' e =>
        rw [hreply] at hfound
        cases hfound
        exact h.holds c value d hreply
    | error diagnostic e =>
        rw [hreply] at hfound
        cases hfound
    | fault fault =>
        rw [hreply] at hfound
        cases hfound

theorem nested {parser : Parser α} (h : Makes P parser) : Makes P (Parser.nested parser) where
  visits := by
    intro c
    by_cases hdepth : c.depth < maxDepth
    · rcases h.visits { c with depth := c.depth + 1 } with ⟨moments, hvisits⟩
      exact ⟨_, Visits.nested hdepth hvisits⟩
    · exact ⟨[c], Visits.nestedFull (Nat.not_lt.mp hdepth)⟩
  holds := by
    intro c value d hvalue
    rcases nested_eq_ok hvalue with ⟨e, _, hreply, _⟩
    exact h.holds _ value e hreply

/-!
## Repeating
-/

theorem repeatUpTo {more : Cursor -> Bool} {item : Parser α} (hitem : Makes P item)
    (bound : Nat) :
    Makes (fun items => forall value, value ∈ items -> P value)
      (Parser.repeatUpTo more item bound) := by
  induction bound with
  | zero =>
      apply choose (faulty .stalled)
      exact give (by simp)
  | succ bound ih =>
      apply choose
      · apply bind hitem
        intro first hfirst
        apply bind ih
        intro rest hrest
        exact give (List.forall_mem_cons.mpr ⟨hfirst, hrest⟩)
      · exact give (by simp)

theorem repeatWhile {more : Cursor -> Bool} {item : Parser α} (hitem : Makes P item) :
    Makes (fun items => forall value, value ∈ items -> P value)
      (Parser.repeatWhile more item) := by
  change Makes _ (Parser.look (fun cursor => cursor.ahead.length) >>=
    Parser.repeatUpTo more item)
  exact look (fun bound => repeatUpTo hitem bound)

/-!
## Lines and parentheses
-/

theorem lines {terminator : Kind} {item : Parser α} (hitem : Makes P item) :
    Makes (fun items => forall value, value ∈ items -> P value)
      (Parser.lines terminator item) := by
  have hline : Makes P (wholeLine terminator item) := by
    apply bind hitem
    intro value hvalue
    apply pass skipLineBreaks
    intro skipped
    apply look
    intro ended
    split
    · exact give hvalue
    · exact unexpected _
  apply pass skipLineBreaks
  intro _
  exact repeatWhile hline

def ofEnclosed (P : α -> Prop) : Enclosed α -> Prop
  | .unit => True
  | .group value => P value
  | .sequence _ elements => forall value, value ∈ elements -> P value

theorem separated {construct : String} {separators : List Kind} {element : Parser α}
    (helement : Makes P element) (bound : Nat) (separator : Option Kind) (multiline : Bool) :
    Makes (fun found => forall value, value ∈ found.2 -> P value)
      (Parser.separated construct separators element bound separator multiline) := by
  induction bound generalizing separator multiline with
  | zero => exact faulty .stalled
  | succ bound ih =>
      apply look
      intro kind
      split
      · split
        · exact mixedSeparators construct
        · apply pass advance
          intro _
          apply pass skipLineBreaks
          intro skipped
          apply look
          intro closed
          split
          · exact give (by simp)
          · apply bind helement
            intro next hnext
            apply bind (ih _ _)
            intro rest hrest
            exact give (List.forall_mem_cons.mpr ⟨hnext, hrest⟩)
      · split
        · exact give (by simp)
        · exact unexpected _

theorem enclosedRest {construct : String} {separators : List Kind} {element : Parser α}
    (helement : Makes P element) {first : α} (hfirst : P first) (multiline : Bool) :
    Makes (ofEnclosed P)
      (Parser.enclosedRest construct separators first multiline element) := by
  apply look
  intro bound
  apply bind (separated helement bound none multiline)
  rintro ⟨separator, rest⟩ hrest
  apply pass (expect (.mark .closeParen))
  intro _
  cases separator with
  | none => exact give hfirst
  | some separator => exact give (List.forall_mem_cons.mpr ⟨hfirst, hrest⟩)

theorem enclosed {construct : String} {separators : List Kind} {element : Parser α}
    (helement : Makes P element) :
    Makes (ofEnclosed P) (Parser.enclosed construct separators element) := by
  apply pass (expect (.mark .openParen))
  intro _
  apply look
  intro empty
  split
  · apply pass advance
    intro _
    exact give trivial
  · apply pass skipLineBreaks
    intro multiline
    apply look
    intro kind
    split
    · apply pass advance
      intro _
      apply pass skipLineBreaks
      intro _
      apply pass (expect (.mark .closeParen))
      intro _
      exact give (P := ofEnclosed P) (by simp [ofEnclosed])
    · apply bind helement
      intro first hfirst
      exact enclosedRest helement hfirst multiline

end Makes

end Linewise
